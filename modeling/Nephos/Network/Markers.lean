import Nephos.Network.FailClosed
import Nephos.Network.KernelNames
import Nephos.Reconcile.Names

/-!
# What the ownership markers identify

`Run` derives the hardware address of an interface from its id, the store
checks the address, `EnsureENI` writes a marker with both and `DeleteENI`
reads the marker back.  The four agree on every id, address and namespace, so
that an interface can always be deleted again and never in place of another.
-/

namespace Nephos

open Effects Kernel Transaction

/-- The row of an interface that `Run` created, perhaps with another
status. -/
def IssuedByRun (eni : ENI) : Prop :=
  ∃ input key random eniRandom now store made,
    made ∉ store.enis ∧
    made ∈ (run input key random eniRandom now store).store.enis ∧
    eni.id = made.id ∧ eni.privateIP = made.privateIP ∧
    eni.macAddress = made.macAddress

theorem hexValue_hexDigit : ∀ nibble < 16,
    Text.hexValue (Text.hexDigit nibble) = some nibble := by
  decide

theorem hexDigit_ne_colon : ∀ nibble < 16, Text.hexDigit nibble ≠ ':' := by
  decide

/-- Bytes are read back from their digits. -/
theorem hexBytes_hexByte (bytes : List UInt8) :
    Text.hexBytes (bytes.flatMap Text.hexByte) = some bytes := by
  induction bytes with
  | nil => rfl
  | cons byte bytes induction =>
      have bound := byte.toNat_lt
      have high := hexValue_hexDigit (byte.toNat / 16) (by omega)
      have low := hexValue_hexDigit (byte.toNat % 16) (by omega)
      have whole : byte.toNat / 16 * 16 + byte.toNat % 16 = byte.toNat := by
        omega
      simp [Text.hexByte, Text.hexBytes, high, low, induction, whole]

theorem colon_notMem_hexByte (byte : UInt8) : ':' ∉ Text.hexByte byte := by
  have bound := byte.toNat_lt
  rw [Text.hexByte, List.mem_pair, not_or]
  exact ⟨(hexDigit_ne_colon _ (by omega)).symm,
    (hexDigit_ne_colon _ (by omega)).symm⟩

/-- An address of six bytes is read back from its text. -/
theorem parseMAC_hardwareAddrText {bytes : List UInt8}
    (six : bytes.length = 6) :
    parseMAC (hardwareAddrText bytes) = some bytes := by
  have parts : (List.intercalate [':'] (bytes.map Text.hexByte)).splitOn ':' =
      bytes.map Text.hexByte := by
    refine List.splitOn_intercalate ':' ?_ ?_
    · intro part member
      obtain ⟨byte, -, rfl⟩ := List.mem_map.mp member
      exact colon_notMem_hexByte byte
    · intro empty
      rw [List.map_eq_nil_iff] at empty
      rw [empty] at six
      cases six
  have pairs : (bytes.map Text.hexByte).all
      (fun part => part.length == 2) = true := by
    rw [List.all_map]
    exact List.all_eq_true.mpr fun _ _ => rfl
  have shape : ¬ (List.intercalate [':'] (bytes.map Text.hexByte)).length <
        14 ∧
      (List.intercalate [':'] (bytes.map Text.hexByte))[2]? = some ':' ∧
      (List.intercalate [':'] (bytes.map Text.hexByte)).getD 2 ':' = ':' := by
    match bytes, six with
    | [a, b, c, d, e, f], _ => exact ⟨show ¬ 17 < 14 by decide, rfl, rfl⟩
  have flat := hexBytes_hexByte bytes
  rw [List.flatMap_def] at flat
  simp only [parseMAC, hardwareAddrText, String.toList_ofList, shape, parts,
    pairs, flat, six, if_false, if_true, true_or]

theorem localUnicast : ∀ number < 256,
    ((UInt8.ofNat number &&& 0xfc) ||| 0x02) &&& 3 = 2 ∧
      ((UInt8.ofNat number &&& 0xfc) ||| 0x02).toNat % 4 = 2 := by
  decide +kernel

/-- A derived address passes the store's check and is its own rendering. -/
theorem deriveMAC_valid (eniID : ID) :
    ∃ bytes, validENIMAC (deriveMAC eniID) = .ok bytes ∧
      parseMAC (deriveMAC eniID) = some bytes ∧ bytes.length = 6 ∧
      (bytes.headD 0).toNat % 4 = 2 ∧
      hardwareAddrText bytes = deriveMAC eniID := by
  have count : ((Sha256.sum (Text.utf8 eniID)).take 6).length = 6 := by
    rw [List.length_take, Sha256.sum_length]
    rfl
  unfold deriveMAC
  split
  · rename_i empty
    rw [empty] at count
    cases count
  · rename_i first rest digest
    rw [digest] at count
    have six : (((first &&& 0xfc) ||| 0x02) :: rest).length = 6 := count
    have parsed := parseMAC_hardwareAddrText six
    have unicast := localUnicast first.toNat first.toNat_lt
    rw [UInt8.ofNat_toNat] at unicast
    refine ⟨_, ?_, parsed, six, unicast.2, rfl⟩
    rw [validENIMAC, parsed]
    exact if_pos ⟨six, unicast.1⟩

theorem fields_four (first second third fourth : List Char)
    (plain : ∀ part ∈ [first, second, third, fourth], part ≠ [] ∧
      ∀ char ∈ part, Text.isSpace char = false) :
    Text.fields (String.ofList (first ++ ' ' :: (second ++ ' ' ::
      (third ++ ' ' :: fourth)))) =
      [first, second, third, fourth].map String.ofList := by
  have split : ∀ (part rest : List Char),
      (∀ char ∈ part, Text.isSpace char = false) →
      (part ++ ' ' :: rest).splitOnP Text.isSpace =
        part :: rest.splitOnP Text.isSpace := by
    intro part rest clean
    apply List.splitOnP_append_cons_of_forall_mem
    · intro char member
      simp [clean char member]
    · rfl
  simp only [List.forall_mem_cons] at plain
  obtain ⟨one, two, three, four, -⟩ := plain
  have last : fourth.splitOnP Text.isSpace = [fourth] :=
    List.splitOnP_eq_singleton four.2
  rw [Text.fields, String.toList_ofList, split _ _ one.2, split _ _ two.2,
    split _ _ three.2, last]
  simp [one.1, two.1, three.1, four.1]

theorem isSpace_hexDigit : ∀ nibble < 16,
    Text.isSpace (Text.hexDigit nibble) = false ∧
      isMarkerHex (Text.hexDigit nibble) = true := by
  decide

theorem isSpace_of_isDigit {char : Char} (digit : char.isDigit = true) :
    Text.isSpace char = false := by
  have bounds : 48 ≤ char.toNat ∧ char.toNat ≤ 57 := by
    simp only [Char.isDigit, Bool.and_eq_true, decide_eq_true_eq] at digit
    exact digit
  simp only [Text.isSpace, Bool.or_eq_false_iff, Bool.and_eq_false_iff,
    decide_eq_false_iff_not, beq_eq_false_iff_ne]
  omega

theorem mem_intercalate {α : Type} {separator : List α}
    {parts : List (List α)} {item : α}
    (member : item ∈ List.intercalate separator parts) :
    item ∈ separator ∨ ∃ part ∈ parts, item ∈ part := by
  induction parts with
  | nil => cases member
  | cons part parts induction =>
      cases parts with
      | nil =>
          right
          refine ⟨part, List.mem_singleton.mpr rfl, ?_⟩
          simpa [List.intercalate] using member
      | cons next parts =>
          have shape : List.intercalate separator (part :: next :: parts) =
              part ++ (separator ++
                List.intercalate separator (next :: parts)) := by
            simp [List.intercalate]
          rw [shape, List.mem_append, List.mem_append] at member
          rcases member with first | between | later
          · exact .inr ⟨part, List.mem_cons_self, first⟩
          · exact .inl between
          · rcases induction later with between | ⟨other, inside, here⟩
            · exact .inl between
            · exact .inr ⟨other, List.mem_cons_of_mem _ inside, here⟩

/-- The characters of a hardware address are digits and colons. -/
theorem hardwareAddrText_plain (bytes : List UInt8) :
    ∀ char ∈ (hardwareAddrText bytes).toList,
      Text.isSpace char = false := by
  intro char member
  rw [hardwareAddrText, String.toList_ofList] at member
  rcases mem_intercalate member with colon | ⟨part, inside, digit⟩
  · rw [List.mem_singleton.mp colon]
    decide
  · obtain ⟨byte, -, rfl⟩ := List.mem_map.mp inside
    have bound := byte.toNat_lt
    rw [Text.hexByte, List.mem_pair] at digit
    rcases digit with rfl | rfl
    · exact (isSpace_hexDigit _ (by omega)).1
    · exact (isSpace_hexDigit _ (by omega)).1

/-- What `Run` fixes about an interface. -/
theorem IssuedByRun.identity {eni : ENI} (issued : IssuedByRun eni) :
    Minted "eni-" eni.id ∧ (∃ ip, eni.privateIP = .v4 ip) ∧
      eni.macAddress = deriveMAC eni.id := by
  obtain ⟨input, key, random, eniRandom, now, store, made, absent, present,
    id, ip, mac⟩ := issued
  rw [id, ip, mac]
  unfold run at present
  split at present
  · exact absurd present absent
  · rename_i request checked
    rcases Outcome.ofTx_cases (runTx request) Instance.id store with
      ⟨failure, shape⟩ | ⟨value, changed, final, done, shape⟩
    · rw [shape] at present
      exact absurd present absent
    · rw [shape] at present
      rcases runTx_ok done with
        ⟨_, _, -, -, -, -, rfl⟩ | ⟨-, subnet, address, fits, -, -, rfl⟩
      · exact absurd present absent
      · have created : made = request.eni subnet.id
            (store.indexSequence + 1 + 1) address := by
          change made ∈ (Store.remember _ _).enis at present
          rw [Store.remember_enis] at present
          exact (List.mem_append.mp present).elim (absurd · absent)
            List.mem_singleton.mp
        subst created
        simp only [checkRunRequest, except_bind_ok_iff] at checked
        obtain ⟨_, -, _, -, _, -, eniID, drawn, same⟩ := checked
        cases same
        exact ⟨newID_minted drawn, Addr.is4_iff.mp fits.is4, rfl⟩

theorem markerID_minted {id : ID} (minted : Minted "eni-" id) :
    markerID (markerFront ++ id) = .ok id := by
  obtain ⟨digits, rfl, count, hex⟩ := minted
  have text : (String.ofList digits).toList = digits := String.toList_ofList
  have chars : (markerFront ++ ("eni-" ++ String.ofList digits)).toList =
      markerFront.toList ++ ("eni-".toList ++ digits) := by
    rw [String.toList_append, String.toList_append]
    rw [text]
  have marked : (digits.all isMarkerHex) = true := by
    refine List.all_eq_true.mpr fun char member => ?_
    obtain ⟨nibble, small, rfl⟩ := hex char member
    exact (isSpace_hexDigit nibble small).2
  have four : "eni-".toList.length = 4 := rfl
  have tail : ("eni-".toList ++ digits).drop 4 = digits :=
    List.drop_left' four
  have fits : markerFront.toList.isPrefixOf
        (markerFront.toList ++ ("eni-".toList ++ digits)) = true ∧
      ("eni-".toList ++ digits).length = 21 ∧
      "eni-".toList.isPrefixOf ("eni-".toList ++ digits) = true ∧
      (("eni-".toList ++ digits).drop 4).all isMarkerHex = true := by
    refine ⟨List.isPrefixOf_iff_prefix.mpr (List.prefix_append _ _), ?_,
      List.isPrefixOf_iff_prefix.mpr (List.prefix_append _ _), ?_⟩
    · rw [List.length_append, count, four]
    · rw [tail]
      exact marked
  unfold markerID
  rw [chars, List.drop_left, if_pos fits, String.ofList_append, String.ofList_toList]
  rfl

theorem markerMAC_derived (eniID : ID) :
    markerMAC (deriveMAC eniID) = .ok (deriveMAC eniID) := by
  obtain ⟨bytes, -, parsed, six, unicast, text⟩ := deriveMAC_valid eniID
  rw [markerMAC, parsed]
  dsimp only
  rw [if_neg (by omega), text]
  rfl

theorem minted_plain {id : ID} (minted : Minted "eni-" id) :
    ∀ char ∈ (markerFront ++ id).toList, Text.isSpace char = false := by
  obtain ⟨digits, rfl, -, hex⟩ := minted
  have text : (String.ofList digits).toList = digits := String.toList_ofList
  intro char member
  rw [String.toList_append, String.toList_append, text,
    ← List.append_assoc] at member
  rcases List.mem_append.mp member with front | digit
  · have clean : ∀ char ∈ markerFront.toList ++ "eni-".toList,
        Text.isSpace char = false := by
      simp [markerFront, Text.isSpace]
    exact clean char front
  · obtain ⟨nibble, small, rfl⟩ := hex char digit
    exact (isSpace_hexDigit nibble small).1

theorem addrText_plain (ip : BitVec 32) :
    (Addr.text (.v4 ip)).toList ≠ [] ∧
      ∀ char ∈ (Addr.text (.v4 ip)).toList, Text.isSpace char = false := by
  obtain ⟨a, b, c, d, -, text⟩ := Addr.text_toList ip
  rw [text]
  refine ⟨by simp, fun char member => ?_⟩
  have dot : Text.isSpace '.' = false := by decide
  have number : ∀ value, char ∈ (Text.decimal value).toList →
      Text.isSpace char = false := fun value inside =>
    isSpace_of_isDigit (Text.isDigit_of_mem_decimal inside)
  simp only [List.mem_append, List.mem_cons] at member
  rcases member with inA | rfl | inB | rfl | inC | rfl | inD
  · exact number a inA
  · exact dot
  · exact number b inB
  · exact dot
  · exact number c inC
  · exact dot
  · exact number d inD

/-- A marker is read back as the interface and the namespace it was written
for. -/
theorem parseENIAlias_eniAlias {eni : ENI} (issued : IssuedByRun eni)
    {inode : Nat} (nonzero : inode ≠ 0) (fits : inode < 2 ^ 64) :
    parseENIAlias (eniAlias eni inode) = .ok
      { id := eni.id, ip := eni.privateIP, mac := eni.macAddress
        namespaceInode := inode } := by
  obtain ⟨minted, ⟨ip, address⟩, mac⟩ := issued.identity
  obtain ⟨bytes, -, -, six, -, text⟩ := deriveMAC_valid eni.id
  have macPlain : (deriveMAC eni.id).toList ≠ [] ∧
      ∀ char ∈ (deriveMAC eni.id).toList, Text.isSpace char = false := by
    rw [← text]
    refine ⟨?_, hardwareAddrText_plain bytes⟩
    match bytes, six with
    | [_, _, _, _, _, _], _ =>
        rw [hardwareAddrText, String.toList_ofList]
        exact List.cons_ne_nil _ _
  have inodePlain : (Text.decimal inode).toList ≠ [] ∧
      ∀ char ∈ (Text.decimal inode).toList, Text.isSpace char = false := by
    constructor
    · rw [Text.decimal_toList]
      exact Nat.toDigits_ne_nil
    · intro char member
      exact isSpace_of_isDigit (Text.isDigit_of_mem_decimal member)
  have front : (markerFront ++ eni.id).toList ≠ [] := by
    rw [String.toList_append]
    exact List.cons_ne_nil _ _
  have written : eniAlias eni inode = String.ofList
      ((markerFront ++ eni.id).toList ++ ' ' :: ((Addr.text (.v4 ip)).toList ++
        ' ' :: ((deriveMAC eni.id).toList ++ ' ' ::
          (Text.decimal inode).toList))) := by
    apply String.toList_injective
    rw [eniAlias, address, mac]
    simp only [String.toList_append, String.toList_ofList,
      List.append_assoc]
    rfl
  have fields := fields_four (markerFront ++ eni.id).toList
    (Addr.text (.v4 ip)).toList (deriveMAC eni.id).toList
    (Text.decimal inode).toList (by
      simp only [List.forall_mem_cons]
      exact ⟨⟨front, minted_plain minted⟩, addrText_plain ip, macPlain,
        inodePlain, List.forall_mem_nil _⟩)
  rw [parseENIAlias, written, fields]
  simp only [List.map, String.ofList_toList, markerID_minted minted,
    parseAddr_text, markerMAC_derived, parseUint64_decimal fits, nonzero,
    address, mac]
  rfl

section Deleting

variable {keepsAlias : Bool} {refused : Nat → Kernel.Op → Bool}
  {network : Network} {eni : ENI} {vpc : VPC} {name : String}
  {link : Kernel.Link}
  {record : ENIIdentity}

theorem exactly_orThrow {α : Type} {value : Except String α}
    {traced : Moment} :
    ((machine keepsAlias).exactly refused).Safe
      (fun result moment => moment = traced ∧ result = value)
      (orThrow value).run traced := by
  cases value with
  | ok value => exact Task.safe_pure ⟨rfl, rfl⟩
  | error text => exact Task.safe_throw ⟨rfl, rfl⟩

/-- A call with an answer, when nothing is refused. -/
theorem exactly_answered {op : Kernel.Op} {front : String} {value : op.Value}
    {after : Network} {traced : Moment}
    {post : Except String op.Value → Moment → Prop}
    (answer : traced.state.answer keepsAlias op = (.ok value, after))
    (holds : post (.ok value) ⟨after, traced.history ++
      [⟨traced.state, op, .ok value, after⟩]⟩) :
    ((machine keepsAlias).exactly fun _ _ => false).Safe post
      (perform op front).run traced := by
  refine exactly_perform (fun _ other => ?_) (fun refusal => ?_)
  · cases answer.symm.trans other
    exact holds
  · rcases refusal with refusal | failed
    · cases refusal
    · cases answer.symm.trans failed

theorem exactly_allowed {bad : Prop} [Decidable bad] {text : String}
    {traced : Moment} (fine : ¬ bad) :
    ((machine keepsAlias).exactly refused).Safe
      (fun result moment => moment = traced ∧ result = .ok ())
      (refuseIf bad text).run traced := by
  unfold refuseIf
  rw [if_neg fine]
  exact Task.safe_pure ⟨rfl, rfl⟩

/-- A link that is there can be deleted. -/
theorem answer_linkDel (inside : link ∈ network.router.links.links) :
    network.answer keepsAlias (.linkDel link) =
      (.ok (), network.removePair link) := by
  simp only [Network.answer]
  split
  · rename_i there found
    have same : there.index = link.index := by
      simpa using List.find?_some found
    rw [LinkTable.eq_of_index (List.mem_of_find?_eq_some found) inside same]
  · rename_i absent
    rw [List.find?_eq_none] at absent
    exact absurd (beq_self_eq_true link.index) (absent link inside)

variable (keepsAlias) in
/-- The link of the interface itself is deleted. -/
theorem detach_accepts (found : network.router.links.find name = some link)
    (veth : link.kind = "veth")
    (parsed : parseENIAlias link.marker = .ok record)
    (id : record.id = eni.id) (ip : record.ip = eni.privateIP)
    (mac : record.mac = eni.macAddress) :
    ((machine keepsAlias).exactly fun _ _ => false).Safe
      (fun _ moment => ∃ event ∈ moment.history, event.op = .linkDel link)
      (detach eni name).run ⟨network, []⟩ := by
  unfold detach
  have entered : ((machine keepsAlias).exactly fun _ _ => false).Safe
      (fun result (moment : Moment) => moment.state = network ∧
        result = .ok ())
      (perform (.enter .router) "").run ⟨network, []⟩ :=
    exactly_answered rfl ⟨rfl, rfl⟩
  refine Task.safe_bind entered trivial (fun _ ends => nomatch ends.2) ?_
  rintro _ moment - ⟨same, -⟩
  refine Task.safe_bind exactly_lookUp trivial
    (fun _ looked => absurd rfl (looked.returns _)) ?_
  intro result later _ looked
  match result with
  | .error (.failed text) => cases looked.failed text rfl
  | .error .notFound =>
      have missing := looked.missing rfl
      rw [same] at missing
      cases missing.symm.trans found
  | .ok there =>
      have present := looked.found there rfl
      rw [same] at present
      cases found.symm.trans present
      refine Task.safe_bind exactly_orThrow trivial
        (fun _ ends => nomatch ends.2.trans parsed) ?_
      rintro value reading - ⟨rfl, read⟩
      cases read.trans parsed
      have state : reading.state = network := looked.state.trans same
      have owned : ¬ (link.kind ≠ "veth" ∨ record.id ≠ eni.id ∨
          record.ip ≠ eni.privateIP ∨ record.mac ≠ eni.macAddress) := by
        simp [veth, id, ip, mac]
      refine Task.safe_bind (exactly_allowed owned) trivial
        (fun _ ends => nomatch ends.2) ?_
      rintro _ checked - ⟨rfl, -⟩
      have inside : link ∈ checked.state.router.links.links := by
        rw [state]
        exact (LinkTable.find_mem found).1
      have deleted : ((machine keepsAlias).exactly fun _ _ => false).Safe
          (fun result (moment : Moment) => result = .ok () ∧
            ∃ event ∈ moment.history, event.op = .linkDel link)
          (perform (.linkDel link) ("delete ENI " ++ name ++ ": ")).run
          checked :=
        exactly_answered (answer_linkDel inside) ⟨rfl, _,
          List.mem_append_right _ (List.mem_singleton.mpr rfl), rfl⟩
      refine Task.safe_bind deleted trivial (fun _ ends => nomatch ends.1) ?_
      rintro _ moment - ⟨-, event, member, isDelete⟩
      exact (Machine.exactly_remembers _ member).mono trivial
        fun {_ _} _ kept => ⟨event, kept, isDelete⟩

variable (keepsAlias refused) in
/-- The link of another interface is left alone. -/
theorem detach_refuses (found : network.router.links.find name = some link)
    (parsed : parseENIAlias link.marker = .ok record)
    (other : record.id ≠ eni.id) :
    ((machine keepsAlias).exactly refused).Safe
      (fun result moment => moment.state = network ∧
        ∃ text, result = .error text)
      (detach eni name).run ⟨network, []⟩ := by
  unfold detach
  have entered : ((machine keepsAlias).exactly refused).Safe
      (fun _ (moment : Moment) => moment.state = network)
      (perform (.enter .router) "").run ⟨network, []⟩ :=
    exactly_perform (fun _ answer => (Prod.mk.inj answer).2.symm)
      (fun _ => rfl)
  refine Task.safe_bind entered trivial (fun _ same => ⟨same, _, rfl⟩) ?_
  intro _ moment _ same
  refine Task.safe_bind exactly_lookUp trivial
    (fun _ looked => absurd rfl (looked.returns _)) ?_
  intro result later _ looked
  have state : later.state = network := looked.state.trans same
  match result with
  | .error (.failed text) => exact Task.safe_throw ⟨state, _, rfl⟩
  | .error .notFound =>
      have missing := looked.missing rfl
      rw [same] at missing
      cases missing.symm.trans found
  | .ok there =>
      have present := looked.found there rfl
      rw [same] at present
      cases found.symm.trans present
      refine Task.safe_bind exactly_orThrow trivial
        (fun _ ends => nomatch ends.2.trans parsed) ?_
      rintro value _ - ⟨rfl, read⟩
      cases read.trans parsed
      refine Task.safe_bind exactly_refuseIf trivial ?_ ?_
      · rintro text _ - ⟨rfl, -⟩
        exact ⟨state, text, rfl⟩
      · rintro _ _ - ⟨rfl, owned⟩
        exact absurd (.inr (.inl other)) (owned rfl)

theorem deleteENI_eq {vpcName : String}
    (vpcNamed : netnsName vpc.shortIndex = .ok vpcName)
    (named : eniLinkName eni.shortIndex = .ok name) :
    (deleteENI vpc eni).run = (detach eni name).run := by
  unfold deleteENI
  rw [named, vpcNamed]
  rfl

end Deleting

/-- The markers identify the interfaces that `Run` creates: they are read
back exactly, `DeleteENI` accepts the link of the interface itself and
refuses the link of another one, and every derived hardware address is valid
and canonical. -/
theorem markers_identify_interfaces (eni : ENI) (issued : IssuedByRun eni)
    (inode : Nat) (nonzero : inode ≠ 0) (fits : inode < 2 ^ 64) :
    parseENIAlias (eniAlias eni inode) = .ok
        { id := eni.id, ip := eni.privateIP, mac := eni.macAddress
          namespaceInode := inode } ∧
      (∀ (keepsAlias : Bool) (network : Network) (vpc : VPC)
          (vpcName name : String) (link : Kernel.Link) (row : ENI),
        netnsName vpc.shortIndex = .ok vpcName →
        eniLinkName row.shortIndex = .ok name →
        network.router.links.find name = some link →
        link.kind = "veth" → link.marker = eniAlias eni inode →
        (row.id = eni.id → row.privateIP = eni.privateIP →
          row.macAddress = eni.macAddress →
          ∃ event ∈ ((machine keepsAlias).run (fun _ _ => false) 0
              (deleteENI vpc row).run network).events,
            event.op = .linkDel link) ∧
        (IssuedByRun row → row.id ≠ eni.id →
          ∀ refused : Nat → Kernel.Op → Bool,
            ((machine keepsAlias).run refused 0
              (deleteENI vpc row).run network).final = network ∧
            ∃ text, ((machine keepsAlias).run refused 0
              (deleteENI vpc row).run network).value = .error text)) ∧
      ∀ eniID : ID, ∃ bytes, validENIMAC (deriveMAC eniID) = .ok bytes ∧
        hardwareAddrText bytes = deriveMAC eniID := by
  have parsed := parseENIAlias_eniAlias issued nonzero fits
  refine ⟨parsed, ?_, fun eniID => ?_⟩
  · intro keepsAlias network vpc vpcName name link row vpcNamed named found
      veth marked
    rw [← marked] at parsed
    rw [deleteENI_eq vpcNamed named]
    refine ⟨fun id ip mac => ?_, fun _ different refused => ?_⟩
    · have safe := detach_accepts keepsAlias found veth parsed id.symm
        ip.symm mac.symm
      exact Machine.run_exactly safe
    · have safe := detach_refuses keepsAlias refused found parsed
        different.symm
      exact Machine.run_exactly safe
  · obtain ⟨bytes, valid, -, -, -, text⟩ := deriveMAC_valid eniID
    exact ⟨bytes, valid, text⟩

/-- The interface of the first instance of a new installation. -/
theorem firstENI_marked : ∃ eni ∈ firstStore.enis,
    parseENIAlias (eniAlias eni 4026532000) = .ok
      { id := eni.id, ip := eni.privateIP, mac := eni.macAddress
        namespaceInode := 4026532000 } := by
  have one : firstStore.enis.length = 1 := by decide +kernel
  obtain ⟨eni, only⟩ := List.length_eq_one_iff.mp one
  have member : eni ∈ firstStore.enis := by
    rw [only]
    exact List.mem_singleton.mpr rfl
  have issued : IssuedByRun eni := by
    refine ⟨{ name := "web", subnetID := "subnet-02020202020202020" }, "",
      List.replicate 9 3, List.replicate 9 4, 0,
      (firstRequests.take 2).foldl Write.apply .empty, eni, ?_, ?_, rfl, rfl,
      rfl⟩
    · have none : ((firstRequests.take 2).foldl Write.apply .empty).enis =
          [] := by
        decide +kernel
      rw [none]
      exact List.not_mem_nil
    · have last (start : Store) : firstRequests.foldl Write.apply start =
          (run { name := "web", subnetID := "subnet-02020202020202020" } ""
            (List.replicate 9 3) (List.replicate 9 4) 0
            ((firstRequests.take 2).foldl Write.apply start)).store := rfl
      unfold firstStore at member
      rw [last] at member
      exact member
  exact ⟨eni, member, (markers_identify_interfaces eni issued 4026532000
    (by decide) (by decide)).1⟩

end Nephos
