import Nephos.Library.Transaction
import Nephos.Network.Router

/-!
# Convergence of a router

When `reconcileGateways` and `ensurePolicyRules` succeed, the router link has
the gateways and nothing else, and the two priorities hold one rule each.  A
further run finds that nothing is left to do.  Whatever fails, addresses
without the label of the gateways and policy rules stay as they were.

`listKernelPolicyRules` reads neither the flags nor the type of service of a
rule, so the one rule may be another than the wanted one: a rule that is
inverted, or that only some packets meet.
-/

namespace Nephos

open Effects Kernel Transaction

/-- No other address has the text of an IPv4 address. -/
theorem Addr.eq_of_text {left right : Addr} (isV4 : right.is4 = true)
    (same : left.text = right.text) : left = right := by
  obtain ⟨ip, rfl⟩ := Addr.is4_iff.mp isV4
  have read := congrArg (fun text => Netip.parseAddr text.toList) same
  simp only [parseAddr_text] at read
  have unread : Netip.parseAddr "invalid IP".toList = none := by
    decide +kernel
  cases left with
  | v4 other =>
      rw [parseAddr_text] at read
      exact Option.some.inj read
  | zero => exact absurd (unread.symm.trans read) nofun
  | v6 other zone => exact absurd (unread.symm.trans read) nofun

theorem addrFromSlice_asSlice {addr : Addr} (isV4 : addr.is4 = true) :
    addrFromSlice addr.asSlice = some addr := by
  obtain ⟨ip, rfl⟩ := Addr.is4_iff.mp isV4
  have number : BitVec.ofNat 32 (byteNumber (Addr.v4 ip).asSlice) = ip := by
    apply BitVec.eq_of_toNat_eq
    have bound := ip.isLt
    simp only [byteNumber, Addr.asSlice, List.map_cons, List.map_nil,
      List.foldl_cons, List.foldl_nil, BitVec.toNat_ofNat, UInt8.toNat_ofNat',
      BitVec.toNat_ushiftRight, Nat.shiftRight_eq_div_pow]
    omega
  rw [addrFromSlice, number]
  rfl

theorem Addr.unmap_of_is4 {addr : Addr} (isV4 : addr.is4 = true) :
    addr.unmap = addr := by
  obtain ⟨ip, rfl⟩ := Addr.is4_iff.mp isV4
  rfl

namespace Kernel.Address

/-- The address is a gateway of the engine's own. -/
def IsGateway (address : Address) (addr : Addr) : Prop :=
  ∃ ipNet, address.ipNet = some ipNet ∧
    (addrFromSlice ipNet.ip).map Addr.unmap = some addr ∧
    ipNet.maskSize = (32, 32) ∧ address.label = gatewayLabel

/-- The text under which `reconcileGateways` looks an address up. -/
def key (address : Address) : Option String :=
  address.ipNet.bind fun ipNet =>
    (addrFromSlice ipNet.ip).map fun addr => addr.unmap.text

end Kernel.Address

/-- The addresses of the router link are the gateways. -/
def HoldsGateways (network : Network) (desired : List Addr) : Prop :=
  (∀ address ∈ network.router.addresses, address.ipNet ≠ none →
    ∃ addr ∈ desired, address.IsGateway addr) ∧
  ∀ addr ∈ desired, ∃ address ∈ network.router.addresses,
    address.IsGateway addr

/-- The rule has neither flags nor a type of service. -/
def Kernel.RuleMessage.Plain (message : RuleMessage) : Prop :=
  message.flags = 0 ∧ message.tos = 0

instance Kernel.RuleMessage.decidablePlain (message : RuleMessage) :
    Decidable message.Plain :=
  inferInstanceAs (Decidable (_ ∧ _))

/-- What no run may touch, and what it may add. -/
structure Conserves (start now : Network) : Prop where
  links : now.router.links = start.router.links
  addresses : (now.router.addresses.filter fun address =>
      address.label ≠ gatewayLabel) =
    start.router.addresses.filter fun address =>
      address.label ≠ gatewayLabel
  rules : start.router.rules <+: now.router.rules
  added : ∀ message ∈ now.router.rules,
    message ∈ start.router.rules ∨ message.Plain

theorem Conserves.refl (network : Network) : Conserves network network :=
  ⟨rfl, rfl, List.prefix_rfl, fun _ member => .inl member⟩

theorem gatewayAddress_isGateway {addr : Addr} (isV4 : addr.is4 = true) :
    (gatewayAddress addr).IsGateway addr := by
  refine ⟨_, rfl, ?_, rfl, rfl⟩
  rw [addrFromSlice_asSlice isV4, Option.map_some, Addr.unmap_of_is4 isV4]

/-- What `wanted` is after some addresses. -/
def marks (desired : List Addr) (seen : List Address) : Wanted :=
  desired.map fun addr =>
    (addr.text, decide (some addr.text ∈ seen.map Address.key))

theorem marks_lookup (desired : List Addr) (seen : List Address)
    (key : String) :
    (marks desired seen).lookup key =
      if key ∈ desired.map Addr.text then
        some (decide (some key ∈ seen.map Address.key))
      else none := by
  induction desired with
  | nil => rfl
  | cons addr desired induction =>
      rw [marks, List.map_cons, List.lookup_cons]
      by_cases first : key = addr.text
      · subst first
        simp
      · rw [beq_false_of_ne first]
        have rest : key ∈ (addr :: desired).map Addr.text ↔
            key ∈ desired.map Addr.text := by
          rw [List.map_cons, List.mem_cons]
          exact or_iff_right first
        simp only [rest]
        exact induction

theorem marks_mark (desired : List Addr) (seen : List Address)
    {address : Address} {key : String} (same : address.key = some key) :
    (marks desired seen).mark key = marks desired (seen ++ [address]) := by
  rw [Wanted.mark, marks, marks, List.map_map]
  apply List.map_congr_left
  intro addr _
  simp only [Function.comp_apply, List.map_append, List.map_singleton, same,
    List.mem_append, List.mem_singleton, Option.some.injEq]
  split
  · rename_i found
    simp [found]
  · rename_i other
    simp [other]

theorem marks_skip (desired : List Addr) (seen : List Address)
    {address : Address}
    (unneeded : ∀ key, address.key = some key →
      key ∉ desired.map Addr.text) :
    marks desired (seen ++ [address]) = marks desired seen := by
  apply List.map_congr_left
  intro addr member
  have other : ¬ some addr.text = address.key := fun same =>
    unneeded addr.text same.symm (List.mem_map_of_mem member)
  simp only [List.map_append, List.map_singleton, List.mem_append,
    List.mem_singleton, other, or_false]

/-- An address that the first loop leaves alone. -/
def kept (desired : List Addr) (address : Address) : Bool :=
  match address.key with
  | some key => key ∈ desired.map Addr.text
  | none => true

/-- What the first loop has checked of an address. -/
def Checked (desired : List Addr) (address : Address) : Prop :=
  ∀ ipNet, address.ipNet = some ipNet →
    ∃ key, address.key = some key ∧ address.label = gatewayLabel ∧
      (key ∈ desired.map Addr.text → ipNet.maskSize = (32, 32))

section Loops

variable {keepsAlias : Bool} {refusable : Op → Prop} {start : Network}

theorem conserves_addrDel {network after : Network} {address : Address}
    (conserves : Conserves start network)
    (owned : address.label = gatewayLabel)
    (answer : network.answer keepsAlias (.addrDel address) = (.ok (), after)) :
    Conserves start after ∧ address ∈ network.router.addresses ∧
      after.router.addresses = network.router.addresses.erase address := by
  simp only [Network.answer] at answer
  split at answer
  · rename_i member
    obtain ⟨-, rfl⟩ := Prod.mk.inj answer
    refine ⟨⟨conserves.links, ?_, conserves.rules, conserves.added⟩, member,
      rfl⟩
    rw [← conserves.addresses]
    change ((network.router.addresses.erase address).filter _) = _
    rw [← List.erase_filter]
    exact List.erase_of_not_mem (by simp [owned])
  · cases (Prod.mk.inj answer).1

theorem conserves_addrAdd {network after : Network} {address : Address}
    (conserves : Conserves start network)
    (owned : address.label = gatewayLabel)
    (answer : network.answer keepsAlias (.addrAdd address) = (.ok (), after)) :
    Conserves start after ∧
      after.router.addresses = network.router.addresses ++ [address] := by
  simp only [Network.answer] at answer
  split at answer
  · cases (Prod.mk.inj answer).1
  · obtain ⟨-, rfl⟩ := Prod.mk.inj answer
    refine ⟨⟨conserves.links, ?_, conserves.rules, conserves.added⟩, rfl⟩
    rw [← conserves.addresses]
    simp [owned]

/-- What the first loop does about one address: it is left alone or
deleted. -/
def Reconciled (desired : List Addr) (seen : List Address)
    (address : Address) (network : Network) (wanted : Wanted)
    (now : Network) : Prop :=
  wanted = marks desired (seen ++ [address]) ∧ Checked desired address ∧
    if kept desired address then now = network
    else address ∈ network.router.addresses ∧
      now.router.addresses = network.router.addresses.erase address

theorem reconcileAddress_safe (desired : List Addr) (seen : List Address)
    (address : Address) {network : Network}
    (conserves : Conserves start network) :
    ((machine keepsAlias).contract refusable (Conserves start)).Safe
      (fun result now => ∀ wanted, result = .ok wanted →
        Reconciled desired seen address network wanted now)
      (reconcileAddress (marks desired seen) address).run network := by
  unfold reconcileAddress
  split
  · rename_i missing
    have keyless : address.key = none := by
      rw [Address.key, missing]
      rfl
    refine Task.safe_pure ?_
    rintro wanted ⟨rfl⟩
    refine ⟨(marks_skip desired seen (by simp [keyless])).symm, ?_, ?_⟩
    · intro ipNet present
      rw [missing] at present
      cases present
    · rw [kept, keyless]
      rfl
  · rename_i ipNet present
    split
    · exact Task.safe_throw nofun
    rename_i addr parsed
    have key : address.key = some addr.unmap.text := by
      rw [Address.key, present, Option.bind_some, parsed]
      rfl
    have needed : ((marks desired seen).lookup addr.unmap.text).isSome =
        kept desired address := by
      rw [marks_lookup, kept, key]
      split
      · rename_i inside
        exact (decide_eq_true inside).symm
      · rename_i outside
        exact (decide_eq_false outside).symm
    dsimp only
    rw [needed]
    split
    · exact Task.safe_throw nofun
    split
    · exact Task.safe_throw nofun
    rename_i owned
    have label : address.label = gatewayLabel := not_not.mp owned
    split
    · rename_i keeps
      split
      · exact Task.safe_throw nofun
      · rename_i size
        refine Task.safe_pure ?_
        rintro wanted ⟨rfl⟩
        refine ⟨marks_mark desired seen key, ?_, if_pos keeps ▸ rfl⟩
        intro other same
        cases present.symm.trans same
        exact ⟨_, key, label, fun _ => not_not.mp size⟩
    · rename_i stale
      have outside : addr.unmap.text ∉ desired.map Addr.text := by
        rw [kept, key] at stale
        simpa using stale
      have deleted : ((machine keepsAlias).contract refusable
          (Conserves start)).Safe (fun result now => result = .ok () →
            address ∈ network.router.addresses ∧
              now.router.addresses = network.router.addresses.erase address)
          (perform (.addrDel address) ("remove stale gateway " ++
            addr.unmap.text ++ ": ")).run network := by
        refine safe_perform (fun held answer => ?_) (fun _ _ => nofun)
        obtain ⟨after, change⟩ := conserves_addrDel held label answer
        exact ⟨after, fun _ => change⟩
      refine Task.safe_bind deleted conserves (fun _ _ => nofun) ?_
      rintro ⟨⟩ now - change
      refine Task.safe_pure ?_
      rintro wanted ⟨rfl⟩
      refine ⟨(marks_skip desired seen ?_).symm, ?_, ?_⟩
      · intro other same
        rw [key] at same
        cases same
        exact outside
      · intro other same
        cases present.symm.trans same
        exact ⟨_, key, label, fun inside => absurd inside outside⟩
      · rw [if_neg stale]
        exact change rfl

/-- The first loop leaves what it keeps of the addresses. -/
theorem reconcileAddresses_safe (desired : List Addr)
    (rest seen : List Address) {network : Network}
    (conserves : Conserves start network)
    (there : network.router.addresses.Perm
      (seen.filter (kept desired) ++ rest))
    (checked : ∀ address ∈ seen, Checked desired address) :
    ((machine keepsAlias).contract refusable (Conserves start)).Safe
      (fun result now => ∀ wanted, result = .ok wanted →
        wanted = marks desired (seen ++ rest) ∧
        (∀ address ∈ seen ++ rest, Checked desired address) ∧
        now.router.addresses.Perm ((seen ++ rest).filter (kept desired)))
      (rest.foldlM reconcileAddress (marks desired seen)).run network := by
  induction rest generalizing seen network with
  | nil =>
      refine Task.safe_pure ?_
      rintro wanted ⟨rfl⟩
      rw [List.append_nil]
      rw [List.append_nil] at there
      exact ⟨rfl, checked, there⟩
  | cons address rest induction =>
      rw [List.foldlM_cons]
      refine Task.safe_bind (reconcileAddress_safe desired seen address
        conserves) conserves (fun _ _ => nofun) ?_
      intro wanted now held reconciled
      obtain ⟨rfl, fine, change⟩ := reconciled wanted rfl
      rw [List.append_cons seen address rest]
      refine induction (seen ++ [address]) held ?_ ?_
      · rw [List.filter_append]
        split at change
        · rename_i keeps
          subst change
          rw [List.filter_singleton, keeps]
          simpa using there
        · rename_i stale
          rw [List.filter_singleton, Bool.eq_false_iff.mpr stale, change.2]
          have front : (seen.filter (kept desired) ++ address :: rest).Perm
              (address :: (seen.filter (kept desired) ++ rest)) :=
            List.perm_middle
          have erased := (there.trans front).erase address
          simpa using erased
      · intro other member
        rcases List.mem_append.mp member with earlier | last
        · exact checked other earlier
        · rw [List.mem_singleton.mp last]
          exact fine

theorem addGateways_safe (wanted : Wanted) (desired : List Addr)
    {network : Network} (conserves : Conserves start network) :
    ((machine keepsAlias).contract refusable (Conserves start)).Safe
      (fun result now => result = .ok () →
        now.router.addresses = network.router.addresses ++
          (desired.filter fun addr =>
            wanted.lookup addr.text ≠ some true).map gatewayAddress)
      (addGateways wanted desired).run network := by
  induction desired generalizing network with
  | nil => exact Task.safe_pure fun _ => (List.append_nil _).symm
  | cons addr desired induction =>
      rw [addGateways]
      by_cases missing : wanted.lookup addr.text ≠ some true
      · simp only [if_pos missing]
        have added : ((machine keepsAlias).contract refusable
            (Conserves start)).Safe (fun result now => result = .ok () →
              now.router.addresses =
                network.router.addresses ++ [gatewayAddress addr])
            (perform (.addrAdd (gatewayAddress addr)) ("add gateway " ++
              addr.text ++ ": ")).run network := by
          refine safe_perform (fun held answer => ?_) (fun _ _ => nofun)
          obtain ⟨after, change⟩ := conserves_addrAdd held rfl answer
          exact ⟨after, fun _ => change⟩
        refine Task.safe_bind added conserves (fun _ _ => nofun) ?_
        rintro ⟨⟩ now held change
        have chosen : ((addr :: desired).filter fun addr =>
            wanted.lookup addr.text ≠ some true) = addr :: desired.filter
              fun addr => wanted.lookup addr.text ≠ some true :=
          List.filter_cons_of_pos (by simpa using missing)
        have rest := induction held
        rw [change rfl, List.append_assoc] at rest
        rw [chosen, List.map_cons]
        exact rest
      · simp only [if_neg missing]
        rw [List.filter_cons_of_neg (by simpa using missing)]
        exact induction conserves

/-- A checked address that was kept is a gateway. -/
theorem isGateway_of_kept {desired : List Addr}
    (isV4 : ∀ addr ∈ desired, addr.is4 = true) {address : Address}
    (checked : Checked desired address) (keeps : kept desired address = true)
    {ipNet : IPNet} (present : address.ipNet = some ipNet) :
    ∃ addr ∈ desired, address.IsGateway addr ∧
      address.key = some addr.text := by
  obtain ⟨key, found, label, size⟩ := checked ipNet present
  rw [kept, found] at keeps
  have inside : key ∈ desired.map Addr.text := by simpa using keeps
  obtain ⟨addr, member, rfl⟩ := List.mem_map.mp inside
  have parsed := found
  rw [Address.key, present, Option.bind_some, Option.map_eq_some_iff] at parsed
  obtain ⟨raw, slice, same⟩ := parsed
  have identical := Addr.eq_of_text (isV4 addr member) same
  refine ⟨addr, member, ⟨ipNet, present, ?_, size inside, label⟩, found⟩
  rw [slice, Option.map_some, identical]

theorem holdsGateways_of_loops {desired : List Addr}
    (isV4 : ∀ addr ∈ desired, addr.is4 = true) {existing base : List Address}
    (checked : ∀ address ∈ existing, Checked desired address)
    (keeps : base.Perm (existing.filter (kept desired))) {now : Network}
    (added : now.router.addresses = base ++ (desired.filter fun addr =>
      (marks desired existing).lookup addr.text ≠ some true).map
        gatewayAddress) : HoldsGateways now desired := by
  have ofBase : ∀ address ∈ base, address ∈ existing ∧
      kept desired address = true := fun address member =>
    List.mem_filter.mp (keeps.mem_iff.mp member)
  constructor
  · intro address member present
    rw [added, List.mem_append] at member
    rcases member with old | new
    · obtain ⟨inside, keep⟩ := ofBase address old
      obtain ⟨ipNet, some⟩ := Option.ne_none_iff_exists'.mp present
      obtain ⟨addr, desires, gateway, -⟩ :=
        isGateway_of_kept isV4 (checked address inside) keep some
      exact ⟨addr, desires, gateway⟩
    · obtain ⟨addr, chosen, rfl⟩ := List.mem_map.mp new
      have desires := (List.mem_filter.mp chosen).1
      exact ⟨addr, desires, gatewayAddress_isGateway (isV4 addr desires)⟩
  · intro addr desires
    by_cases marked : (marks desired existing).lookup addr.text = some true
    · rw [marks_lookup, if_pos (List.mem_map_of_mem desires),
        Option.some.injEq, decide_eq_true_iff, List.mem_map] at marked
      obtain ⟨address, inside, key⟩ := marked
      have keep : kept desired address = true := by
        rw [kept, key]
        exact decide_eq_true (List.mem_map_of_mem desires)
      cases present : address.ipNet with
      | none =>
          rw [Address.key, present] at key
          cases key
      | some ipNet =>
          obtain ⟨other, otherDesires, gateway, otherKey⟩ :=
            isGateway_of_kept isV4 (checked address inside) keep present
          have texts : other.text = addr.text :=
            Option.some.inj (otherKey.symm.trans key)
          have same := Addr.eq_of_text (isV4 addr desires) texts
          subst same
          refine ⟨address, ?_, gateway⟩
          rw [added, List.mem_append]
          exact .inl (keeps.mem_iff.mpr (List.mem_filter.mpr ⟨inside, keep⟩))
    · refine ⟨gatewayAddress addr, ?_,
        gatewayAddress_isGateway (isV4 addr desires)⟩
      rw [added, List.mem_append]
      exact .inr (List.mem_map_of_mem (List.mem_filter.mpr
        ⟨desires, decide_eq_true marked⟩))

theorem reconcileGateways_safe {desired : List Addr}
    (isV4 : ∀ addr ∈ desired, addr.is4 = true) {network : Network}
    (conserves : Conserves start network) :
    ((machine keepsAlias).contract refusable (Conserves start)).Safe
      (fun result now => result = .ok () → HoldsGateways now desired ∧
        now.router.links.find routerLinkName ≠ none)
      (reconcileGateways desired).run network := by
  unfold reconcileGateways
  refine Task.safe_bind safe_linkByName conserves (fun _ _ => nofun) ?_
  rintro link now held ⟨rfl, found, -⟩
  have there := found link rfl
  refine Task.safe_bind (safe_read rfl) held (fun _ _ => nofun) ?_
  rintro existing later laterHeld ⟨rfl, listed, -⟩
  obtain rfl := listed existing rfl
  have initial : (desired.map fun addr => (addr.text, false)) =
      marks desired [] := rfl
  rw [initial]
  refine Task.safe_bind (reconcileAddresses_safe desired
    later.router.addresses [] held (List.Perm.refl _) (by simp)) held
    (fun _ _ => nofun) ?_
  intro wanted middle middleHeld loop
  obtain ⟨rfl, checked, keeps⟩ := loop wanted rfl
  rw [List.nil_append] at checked keeps
  refine (addGateways_safe _ desired middleHeld).mono middleHeld ?_
  intro result final finalHeld ends success
  refine ⟨holdsGateways_of_loops isV4 checked keeps (ends success), ?_⟩
  have links : final.router.links = later.router.links :=
    finalHeld.links.trans held.links.symm
  rw [links]
  exact fun missing => absurd (there.symm.trans missing) nofun

end Loops

/-- A destination as the kernel reports it. -/
def Reported (dst : IPNet) : Prop :=
  dst.ip.length = 4 ∧ ∃ ones, dst.maskSize = cidrMask ones

theorem readAttribute_reported {message : RuleMessage}
    {rule next : KernelPolicyRule} {attr : Nat × List UInt8}
    (before : ∀ dst ∈ rule.dst, Reported dst)
    (read : readAttribute message rule attr = .ok next) :
    ∀ dst ∈ next.dst, Reported dst := by
  unfold readAttribute at read
  dsimp only at read
  split at read
  -- Only the third kind of attribute sets the destination.
  case h_3 =>
    split at read
    · cases read
    · rename_i four
      cases read
      rintro dst ⟨rfl⟩
      exact ⟨not_not.mp four, _, rfl⟩
  case h_6 =>
    cases read
    exact before
  all_goals
    split at read
    · cases read <;> exact before
    · cases read
      exact before

theorem decodeRule_reported {message : RuleMessage} {rule : KernelPolicyRule}
    (decoded : decodeRule message = .ok rule) :
    ∀ dst ∈ rule.dst, Reported dst := by
  have attributes : ∀ (attrs : List (Nat × List UInt8))
      (first : KernelPolicyRule), (∀ dst ∈ first.dst, Reported dst) →
      attrs.foldlM (readAttribute message) first = .ok rule →
      ∀ dst ∈ rule.dst, Reported dst := by
    intro attrs
    induction attrs with
    | nil =>
        rintro first before ⟨rfl⟩
        exact before
    | cons attr attrs induction =>
        intro first before folded
        rw [List.foldlM_cons] at folded
        cases read : readAttribute message first attr with
        | error text =>
            rw [read] at folded
            cases folded
        | ok next =>
            rw [read] at folded
            exact induction next (readAttribute_reported before read) folded
  unfold decodeRule at decoded
  split at decoded
  · cases decoded
  · split at decoded
    · cases decoded
    · exact attributes _ _ (by simp) decoded

theorem byteNumber_injective {left right : List UInt8}
    (leftFour : left.length = 4) (rightFour : right.length = 4)
    (same : BitVec.ofNat 32 (byteNumber left) =
      BitVec.ofNat 32 (byteNumber right)) : left = right := by
  obtain ⟨a, b, c, d, rfl⟩ := List.length_eq_four.mp leftFour
  obtain ⟨w, x, y, z, rfl⟩ := List.length_eq_four.mp rightFour
  have numbers := congrArg BitVec.toNat same
  simp only [byteNumber, List.foldl_cons, List.foldl_nil,
    BitVec.toNat_ofNat] at numbers
  have bounds := fun byte : UInt8 => byte.toNat_lt
  have first := bounds a
  have second := bounds b
  have third := bounds c
  have fourth := bounds d
  have fifth := bounds w
  have sixth := bounds x
  have seventh := bounds y
  have eighth := bounds z
  have equal : a.toNat = w.toNat ∧ b.toNat = x.toNat ∧
      c.toNat = y.toNat ∧ d.toNat = z.toNat := by
    omega
  rw [UInt8.toNat_inj.mp equal.1, UInt8.toNat_inj.mp equal.2.1,
    UInt8.toNat_inj.mp equal.2.2.1, UInt8.toNat_inj.mp equal.2.2.2]

theorem destination_injective {left right : IPNet} (reported : Reported left)
    (four : right.ip.length = 4) {ones : Nat}
    (size : right.maskSize = (ones, 32)) (same : left.text = right.text) :
    left = right := by
  obtain ⟨leftFour, other, leftSize⟩ := reported
  obtain ⟨leftIP, leftMask⟩ := left
  obtain ⟨rightIP, rightMask⟩ := right
  dsimp only at leftFour four leftSize size
  subst leftSize size
  have slices : ∀ {bytes : List UInt8}, bytes.length = 4 →
      addrFromSlice bytes =
        some (.v4 (BitVec.ofNat 32 (byteNumber bytes))) :=
    fun length => if_pos length
  have slash : ∀ ip, '/' ∉ (Addr.text (.v4 ip)).toList := by
    intro ip
    obtain ⟨a, b, c, d, -, text⟩ := Addr.text_toList ip
    have apart : ∀ number, '/' ∉ (Text.decimal number).toList :=
      decimal_apart (by decide)
    simp [text, apart]
  have chars := congrArg String.toList same
  rw [cidrMask] at chars ⊢
  split at chars
  · rename_i inside
    simp only [IPNet.text, slices leftFour, slices four,
      String.toList_append, List.append_assoc] at chars
    obtain ⟨address, length⟩ := Text.split_unique (slash _) (slash _) chars
    have sameIP := Addr.eq_of_text rfl (String.toList_injective address)
    rw [Addr.v4.injEq] at sameIP
    rw [if_pos inside, byteNumber_injective leftFour four sameIP,
      Text.decimal_injective length]
  · have nil : IPNet.text { ip := leftIP, maskSize := (0, 0) } = "<nil>" := by
      rw [IPNet.text, slices leftFour]
      rfl
    have member : '/' ∈ (IPNet.text
        { ip := rightIP, maskSize := (ones, 32) }).toList := by
      simp [IPNet.text, slices four]
    rw [nil] at chars
    rw [← chars] at member
    exact absurd member (by decide)

/-- A policy rule as the kernel holds it. -/
@[ext]
structure FibRule where
  priority : Nat
  table : Nat
  action : UInt8
  flags : UInt32
  tos : UInt8
  /-- The address of the destination and the length of its prefix. -/
  dst : Option (List UInt8 × Nat)
  /-- The other attributes that select packets. -/
  others : List (Nat × List UInt8)
deriving DecidableEq

/-- The attributes that say which routes are suppressed, if none are, and who
has made the rule. -/
def defaults : List (Nat × List UInt8) :=
  [(14, [255, 255, 255, 255]), (21, [0]), (21, [3])]

/-- The rule that the kernel reports. -/
def Kernel.RuleMessage.rule (message : RuleMessage) : FibRule :=
  let attributes := message.attributes.getD []
  { priority := ((attributes.lookup 6).map nativeUint32).getD 0
    table := ((attributes.lookup 15).map nativeUint32).getD
      message.table.toNat
    action := message.action
    flags := message.flags
    tos := message.tos
    dst := (attributes.lookup 1).map fun ip => (ip, message.dstLen.toNat)
    others := attributes.filter fun attr =>
      attr.1 ∉ [1, 6, 15] ∧ attr ∉ defaults }

/-- A destination as the engine reads it. -/
def readDestination (dst : List UInt8 × Nat) : IPNet :=
  { ip := dst.1, maskSize := cidrMask dst.2 }

theorem suppresses_none_iff {value : List UInt8} :
    ¬ (value.length ≠ 4 ∨ nativeUint32 value ≠ 2 ^ 32 - 1) ↔
      value = [255, 255, 255, 255] := by
  rw [not_or, not_not, not_not]
  constructor
  · rintro ⟨four, unset⟩
    have reversed : value.reverse = [255, 255, 255, 255] :=
      byteNumber_injective (by rw [List.length_reverse, four]) rfl
        (congrArg (BitVec.ofNat 32) (unset.trans (by decide +kernel)))
    rw [← List.reverse_reverse value, reversed]
    rfl
  · rintro rfl
    decide +kernel

/-- What an attribute changes. -/
theorem readAttribute_ok {message : RuleMessage}
    {rule next : KernelPolicyRule} {kind : Nat} {value : List UInt8}
    (read : readAttribute message rule (kind, value) = .ok next) :
    next =
      { priority := if kind = 6 then nativeUint32 value else rule.priority
        table := if kind = 15 then nativeUint32 value else rule.table
        action := rule.action
        dst := if kind = 1 then
          some (readDestination (value, message.dstLen.toNat)) else rule.dst
        extra := rule.extra ++
          if kind ∉ [1, 6, 15] ∧ (kind, value) ∉ defaults then
            [extraText kind value] else [] } := by
  unfold readAttribute at read
  dsimp only at read
  split at read
  · split at read <;> cases read
    simp
  · split at read <;> cases read
    simp
  · split at read <;> cases read
    simp [readDestination]
  · split at read
    · rename_i set
      have other := mt suppresses_none_iff.mpr (not_not.mpr set)
      cases read
      simp [defaults, other]
    · rename_i unset
      rw [suppresses_none_iff] at unset
      cases read
      simp [defaults, unset]
  · split at read
    · rename_i set
      cases read
      simp [defaults, set]
    · rename_i made
      cases read
      have known : value = [0] ∨ value = [3] := by
        by_contra neither
        exact made (not_or.mp neither)
      simp [defaults, known]
  · rename_i priority table destination suppressed protocol
    replace priority : kind ≠ 6 := priority
    replace table : kind ≠ 15 := table
    replace destination : kind ≠ 1 := destination
    replace suppressed : kind ≠ 14 := suppressed
    replace protocol : kind ≠ 21 := protocol
    cases read
    simp [defaults, priority, table, destination, suppressed, protocol]

/-- What the engine reads of a rule. -/
theorem decodeRule_ok {message : RuleMessage} {rule : KernelPolicyRule}
    (decoded : decodeRule message = .ok rule) :
    rule =
      { priority := message.rule.priority, table := message.rule.table
        action := message.action
        dst := message.rule.dst.map readDestination
        extra := message.rule.others.map fun attr =>
          extraText attr.1 attr.2 } := by
  -- An attribute overwrites what is read of those before it, so the first
  -- of a kind counts only since no kind comes twice.
  have fold : ∀ (attrs : List (Nat × List UInt8)) (first : KernelPolicyRule),
      (attrs.map Prod.fst).Nodup →
      attrs.foldlM (readAttribute message) first = .ok rule →
      rule =
        { priority := ((attrs.lookup 6).map nativeUint32).getD first.priority
          table := ((attrs.lookup 15).map nativeUint32).getD first.table
          action := first.action
          dst := ((attrs.lookup 1).map fun ip =>
            readDestination (ip, message.dstLen.toNat)).or first.dst
          extra := first.extra ++ (attrs.filter fun attr =>
            attr.1 ∉ [1, 6, 15] ∧ attr ∉ defaults).map fun attr =>
              extraText attr.1 attr.2 } := by
    intro attrs
    induction attrs with
    | nil =>
        rintro first - ⟨rfl⟩
        simp
    | cons attr attrs induction =>
        obtain ⟨kind, value⟩ := attr
        intro first nodup folded
        rw [List.map_cons, List.nodup_cons] at nodup
        rw [List.foldlM_cons] at folded
        obtain ⟨next, read, rest⟩ := except_bind_ok_iff.mp folded
        have unique : attrs.lookup kind = none := by
          rw [List.lookup_eq_none_iff]
          intro other member
          rw [bne_iff_ne]
          rintro rfl
          exact nodup.1 (List.mem_map.mpr ⟨other, member, rfl⟩)
        have skip : ∀ {wanted : Nat}, kind ≠ wanted →
            ((kind, value) :: attrs).lookup wanted = attrs.lookup wanted :=
          fun different => by
            rw [List.lookup_cons, beq_false_of_ne (Ne.symm different)]
        rw [induction next nodup.2 rest, readAttribute_ok read]
        by_cases priority : kind = 6
        · subst priority
          simp [List.lookup_cons, unique]
        by_cases table : kind = 15
        · subst table
          simp [List.lookup_cons, unique]
        by_cases destination : kind = 1
        · subst destination
          simp [List.lookup_cons, unique]
        rw [skip priority, skip table, skip destination]
        by_cases known : (kind, value) ∈ defaults
        · simp [known, priority, table, destination]
        · simp [known, priority, table, destination]
  unfold decodeRule at decoded
  split at decoded
  · cases decoded
  · split at decoded
    · cases decoded
    · rename_i attributes present
      have nodup := message.once
      rw [present] at nodup
      have read := fold attributes _ nodup decoded
      rw [read]
      simp only [Kernel.RuleMessage.rule, present, Option.getD_some,
        Option.map_map, Function.comp_def, Option.or_none, List.nil_append]

/-- The rules at the priority of a rule. -/
def atPriority (want : KernelPolicyRule) (rules : List KernelPolicyRule) :
    List KernelPolicyRule :=
  rules.filter fun rule => rule.priority = want.priority

/-- A rule that `ensureRule` takes for the wanted one. -/
structure PassesFor (want rule : KernelPolicyRule) : Prop where
  priority : rule.priority = want.priority
  table : rule.table = want.table
  action : rule.action = want.action
  extra : rule.extra = []
  dst : sameDestination rule.dst want.dst = true

theorem checkRules_cases {want : KernelPolicyRule} {found result : Bool}
    {rules : List KernelPolicyRule}
    (checked : checkRules want found rules = .ok result) :
    (atPriority want rules = [] ∧ result = found) ∨
      (found = false ∧ result = true ∧
        ∃ rule, atPriority want rules = [rule] ∧ PassesFor want rule) := by
  induction rules generalizing found with
  | nil =>
      cases checked
      exact .inl ⟨rfl, rfl⟩
  | cons rule rules induction =>
      rw [checkRules] at checked
      split at checked
      · rename_i other
        have skipped : atPriority want (rule :: rules) =
            atPriority want rules :=
          List.filter_cons_of_neg (by simpa using other)
        rw [skipped]
        exact induction checked
      · rename_i same
        split at checked
        · cases checked
        · rename_i fine
          simp only [not_or, ne_eq, not_not] at fine
          obtain ⟨first, table, action, extra, dst⟩ := fine
          have chosen : atPriority want (rule :: rules) =
              rule :: atPriority want rules :=
            List.filter_cons_of_pos (by simpa using same)
          rcases induction checked with ⟨none, rfl⟩ | ⟨found, -, -⟩
          · refine .inr ⟨Bool.eq_false_iff.mpr first, rfl, rule,
              by rw [chosen, none], ?_⟩
            exact ⟨not_not.mp same, table, action, extra, dst⟩
          · cases found

theorem sameDestination_self (dst : Option IPNet) :
    sameDestination dst dst = true := by
  cases dst with
  | none => rfl
  | some dst => exact decide_eq_true rfl

/-- The wanted rule is found where it is the only one. -/
theorem checkRules_found {want : KernelPolicyRule}
    (plain : want.extra = []) {found : Bool} {rules : List KernelPolicyRule}
    (holds : atPriority want rules = if found then [] else [want]) :
    checkRules want found rules = .ok true := by
  induction rules generalizing found with
  | nil =>
      cases found
      · cases holds
      · rfl
  | cons rule rules induction =>
      rw [checkRules]
      by_cases same : rule.priority = want.priority
      · have chosen : atPriority want (rule :: rules) =
            rule :: atPriority want rules :=
          List.filter_cons_of_pos (by simpa using same)
        rw [chosen] at holds
        cases found
        · obtain ⟨rfl, rest⟩ := List.cons.inj holds
          rw [if_neg (not_not.mpr rfl), if_neg (by
            simp [plain, sameDestination_self])]
          exact induction rest
        · cases holds
      · have skipped : atPriority want (rule :: rules) =
            atPriority want rules :=
          List.filter_cons_of_neg (by simpa using same)
        rw [skipped] at holds
        rw [if_pos same]
        exact induction holds

/-- A rule that the engine may want: an IPv4 destination or none. -/
structure Wantable (want : KernelPolicyRule) : Prop where
  plain : want.extra = []
  dst : ∀ dst ∈ want.dst, dst.ip.length = 4 ∧
    ∃ ones ≤ 32, dst.maskSize = (ones, 32)
  /-- What was added is read back unchanged. -/
  readBack : decodeRule want.message = .ok want

theorem Wantable.eq_of_passes {want rule : KernelPolicyRule}
    (wantable : Wantable want) (reported : ∀ dst ∈ rule.dst, Reported dst)
    (passes : PassesFor want rule) : rule = want := by
  have destination : rule.dst = want.dst := by
    have same := passes.dst
    cases ruleDst : rule.dst with
    | none =>
        cases wantDst : want.dst with
        | none => rfl
        | some dst =>
            rw [ruleDst, wantDst] at same
            cases same
    | some dst =>
        cases wantDst : want.dst with
        | none =>
            rw [ruleDst, wantDst] at same
            cases same
        | some other =>
            rw [ruleDst, wantDst] at same
            obtain ⟨four, ones, -, size⟩ := wantable.dst other wantDst
            rw [destination_injective (reported dst ruleDst) four size
              (of_decide_eq_true same)]
  obtain ⟨priority, table, action, extra, -⟩ := passes
  have plain := wantable.plain
  cases rule
  cases want
  simp_all

/-- The priority of the rule holds the rule and no other. -/
def HoldsRule (network : Network) (want : KernelPolicyRule) : Prop :=
  (network.router.rules.map RuleMessage.rule).filter
      (fun rule => rule.priority = want.priority) = [want.message.rule]

instance (network : Network) (want : KernelPolicyRule) :
    Decidable (HoldsRule network want) :=
  inferInstanceAs (Decidable (_ = _))

/-- The rules at the priority have neither flags nor a type of service. -/
def PlainAt (network : Network) (priority : Nat) : Prop :=
  ∀ message ∈ network.router.rules, message.rule.priority = priority →
    message.Plain

/-- The engine reads the rule, and no other at its priority. -/
def ReadsRule (network : Network) (want : KernelPolicyRule) : Prop :=
  ∃ rules, network.router.rules.mapM decodeRule = .ok rules ∧
    atPriority want rules = [want]

theorem Conserves.plainAt_iff {start now : Network}
    (conserves : Conserves start now) {priority : Nat} :
    PlainAt now priority ↔ PlainAt start priority := by
  constructor
  · intro plain message member
    exact plain message (conserves.rules.subset member)
  · intro plain message member same
    rcases conserves.added message member with before | added
    · exact plain message before same
    · exact added

theorem readDestination_injective {left right : List UInt8 × Nat}
    (same : readDestination left = readDestination right) {ones : Nat}
    (size : (readDestination right).maskSize = (ones, 32)) :
    left = right := by
  obtain ⟨leftIP, leftLength⟩ := left
  obtain ⟨rightIP, rightLength⟩ := right
  obtain ⟨address, mask⟩ := IPNet.mk.inj same
  have length : ∀ {length : Nat}, cidrMask length = (ones, 32) →
      length = ones := by
    intro length found
    unfold cidrMask at found
    split at found
    · exact (Prod.mk.inj found).1
    · cases (Prod.mk.inj found).2
  exact Prod.ext address ((length (mask.trans size)).trans
    (length size).symm)

/-- A rule that is read as the wanted one is the wanted one exactly if it has
neither flags nor a type of service. -/
theorem Wantable.rule_eq_iff {want : KernelPolicyRule}
    (wantable : Wantable want) {message : RuleMessage}
    (decoded : decodeRule message = .ok want) :
    message.rule = want.message.rule ↔ message.Plain := by
  constructor
  · intro same
    exact ⟨congrArg FibRule.flags same, congrArg FibRule.tos same⟩
  · rintro ⟨flags, tos⟩
    have found := decodeRule_ok decoded
    have back := decodeRule_ok wantable.readBack
    have empty : ∀ {others : List (Nat × List UInt8)},
        want.extra = (others.map fun attr => extraText attr.1 attr.2) →
        others = [] := by
      intro others extra
      rw [wantable.plain] at extra
      exact List.map_eq_nil_iff.mp extra.symm
    refine FibRule.ext ?_ ?_ ?_ flags tos ?_ ?_
    · exact (congrArg KernelPolicyRule.priority found).symm.trans
        (congrArg KernelPolicyRule.priority back)
    · exact (congrArg KernelPolicyRule.table found).symm.trans
        (congrArg KernelPolicyRule.table back)
    · exact (congrArg KernelPolicyRule.action found).symm
    · have dst := congrArg KernelPolicyRule.dst found
      have backDst := congrArg KernelPolicyRule.dst back
      dsimp only at dst backDst
      have same := dst.symm.trans backDst
      cases rightDst : want.message.rule.dst with
      | none =>
          rw [rightDst] at same
          exact Option.map_eq_none_iff.mp same
      | some right =>
          rw [rightDst] at same backDst
          obtain ⟨left, leftDst, read⟩ := Option.map_eq_some_iff.mp same
          obtain ⟨-, ones, -, size⟩ := wantable.dst _ backDst
          rw [leftDst, readDestination_injective read size]
    · rw [empty (congrArg KernelPolicyRule.extra found),
        empty (congrArg KernelPolicyRule.extra back)]

theorem mapM_decodeRule_filter (priority : Nat) {messages : List RuleMessage}
    {rules : List KernelPolicyRule}
    (decoded : messages.mapM decodeRule = .ok rules) :
    (messages.filter fun message =>
        message.rule.priority = priority).mapM decodeRule =
      .ok (rules.filter fun rule => rule.priority = priority) := by
  induction messages generalizing rules with
  | nil =>
      cases decoded
      rfl
  | cons message messages induction =>
      rw [List.mapM_cons] at decoded
      obtain ⟨rule, first, rest⟩ := except_bind_ok_iff.mp decoded
      obtain ⟨others, later, whole⟩ := except_bind_ok_iff.mp rest
      cases whole
      have same : rule.priority = message.rule.priority :=
        congrArg KernelPolicyRule.priority (decodeRule_ok first)
      rw [List.filter_cons, List.filter_cons, same]
      split
      · rw [List.mapM_cons, first, induction later]
        rfl
      · exact induction later

theorem mapM_decodeRule_singleton {messages : List RuleMessage}
    {rule : KernelPolicyRule}
    (decoded : messages.mapM decodeRule = .ok [rule]) :
    ∃ message, messages = [message] ∧ decodeRule message = .ok rule := by
  cases messages with
  | nil => cases decoded
  | cons message messages =>
      rw [List.mapM_cons] at decoded
      obtain ⟨found, first, rest⟩ := except_bind_ok_iff.mp decoded
      obtain ⟨others, later, whole⟩ := except_bind_ok_iff.mp rest
      cases whole
      cases messages with
      | nil => exact ⟨message, rfl, first⟩
      | cons second messages =>
          rw [List.mapM_cons] at later
          obtain ⟨_, -, later⟩ := except_bind_ok_iff.mp later
          obtain ⟨_, -, later⟩ := except_bind_ok_iff.mp later
          cases later

/-- What is read is held exactly if it is plain. -/
theorem ReadsRule.holds_iff {network : Network} {want : KernelPolicyRule}
    (reads : ReadsRule network want) (wantable : Wantable want) :
    HoldsRule network want ↔ PlainAt network want.priority := by
  obtain ⟨rules, decoded, one⟩ := reads
  have chosen := mapM_decodeRule_filter want.priority decoded
  rw [← atPriority, one] at chosen
  obtain ⟨message, found, read⟩ := mapM_decodeRule_singleton chosen
  have holds : HoldsRule network want ↔
      message.rule = want.message.rule := by
    unfold HoldsRule
    rw [List.filter_map, Function.comp_def, found]
    simp
  have plain : PlainAt network want.priority ↔ message.Plain := by
    constructor
    · intro plain
      obtain ⟨member, same⟩ := List.mem_filter.mp
        (found ▸ List.mem_singleton_self message)
      exact plain message member (of_decide_eq_true same)
    · intro plain other member same
      have inside : other ∈ network.router.rules.filter fun message =>
          message.rule.priority = want.priority :=
        List.mem_filter.mpr ⟨member, decide_eq_true same⟩
      rw [found, List.mem_singleton] at inside
      exact inside ▸ plain
  exact holds.trans ((wantable.rule_eq_iff read).trans plain.symm)

section Rules

variable {keepsAlias : Bool} {refusable : Op → Prop} {start : Network}

theorem listKernelPolicyRules_safe {holds : Network → Prop}
    {network : Network} (held : holds network) :
    ((machine keepsAlias).contract refusable holds).Safe
      (fun result now => now = network ∧
        (∀ rules, result = .ok rules →
          network.router.rules.mapM decodeRule = .ok rules) ∧
        ∀ text, result = .error text → refusable .ruleList ∨
          ∃ error, network.router.rules.mapM decodeRule = .error error)
      listKernelPolicyRules.run network := by
  unfold listKernelPolicyRules
  refine Task.safe_bind (safe_read rfl) held ?_ ?_
  · rintro error later - ⟨rfl, -, refusal⟩
    exact ⟨rfl, nofun, fun _ _ => .inl (refusal error rfl)⟩
  · rintro messages later - ⟨rfl, listed, -⟩
    obtain rfl := listed messages rfl
    split
    · rename_i rules decoded
      refine Task.safe_pure ⟨rfl, ?_, nofun⟩
      rintro other ⟨rfl⟩
      exact decoded
    · rename_i error decoded
      exact Task.safe_throw ⟨rfl, nofun, fun _ _ => .inr ⟨error, decoded⟩⟩

theorem mapM_decodeRule_reported {messages : List RuleMessage}
    {rules : List KernelPolicyRule}
    (decoded : messages.mapM decodeRule = .ok rules) :
    ∀ rule ∈ rules, ∀ dst ∈ rule.dst, Reported dst := by
  induction messages generalizing rules with
  | nil =>
      cases decoded
      exact nofun
  | cons message messages induction =>
      rw [List.mapM_cons] at decoded
      cases first : decodeRule message with
      | error text =>
          rw [first] at decoded
          cases decoded
      | ok rule =>
          cases rest : messages.mapM decodeRule with
          | error text =>
              rw [first, rest] at decoded
              cases decoded
          | ok others =>
              rw [first, rest] at decoded
              cases decoded
              exact List.forall_mem_cons.mpr
                ⟨decodeRule_reported first, induction rest⟩

/-- After a rule was added it is the last one that is read. -/
theorem mapM_decodeRule_snoc {messages : List RuleMessage}
    {rules : List KernelPolicyRule} {want : KernelPolicyRule}
    (decoded : messages.mapM decodeRule = .ok rules)
    (readBack : decodeRule want.message = .ok want) :
    (messages ++ [want.message]).mapM decodeRule = .ok (rules ++ [want]) := by
  rw [List.mapM_append, decoded, List.mapM_cons, readBack]
  rfl

theorem ensureRule_safe {want : KernelPolicyRule} (wantable : Wantable want)
    {network : Network} (conserves : Conserves start network) :
    ((machine keepsAlias).contract refusable (Conserves start)).Safe
      (fun result now => result = .ok () →
        now.router.addresses = network.router.addresses ∧
        ReadsRule now want ∧
        ∀ other, other.priority ≠ want.priority →
          ReadsRule network other → ReadsRule now other)
      (ensureRule want).run network := by
  unfold ensureRule
  refine Task.safe_bind (listKernelPolicyRules_safe conserves) conserves
    (fun _ _ => nofun) ?_
  rintro rules now held ⟨rfl, listed, -⟩
  have decoded := listed rules rfl
  split
  · exact Task.safe_throw nofun
  · rename_i checked
    rcases checkRules_cases checked with ⟨-, true⟩ | ⟨-, -, rule, one, passes⟩
    · cases true
    · have member : rule ∈ rules := by
        have inside : rule ∈ atPriority want rules := by rw [one]; simp
        exact (List.mem_filter.mp inside).1
      have same := wantable.eq_of_passes
        (mapM_decodeRule_reported decoded rule member) passes
      subst same
      exact Task.safe_pure fun _ => ⟨rfl, ⟨rules, decoded, one⟩,
        fun _ _ holds => holds⟩
  · rename_i checked
    have none : atPriority want rules = [] := by
      rcases checkRules_cases checked with ⟨none, -⟩ | ⟨-, wrong, -⟩
      · exact none
      · cases wrong
    refine safe_perform (fun kept answer => ?_) (fun _ _ => nofun)
    simp only [Network.answer] at answer
    split at answer
    · cases (Prod.mk.inj answer).1
    obtain ⟨-, rfl⟩ := Prod.mk.inj answer
    refine ⟨⟨kept.links, kept.addresses,
      kept.rules.trans (List.prefix_append _ _),
      List.forall_mem_append.mpr ⟨kept.added,
        List.forall_mem_singleton.mpr (.inr ⟨rfl, rfl⟩)⟩⟩,
      fun _ => ⟨rfl, ?_, ?_⟩⟩
    · refine ⟨_, mapM_decodeRule_snoc decoded wantable.readBack, ?_⟩
      rw [atPriority, List.filter_append, ← atPriority, none]
      simp
    · rintro other different ⟨others, otherDecoded, one⟩
      cases decoded.symm.trans otherDecoded
      refine ⟨_, mapM_decodeRule_snoc decoded wantable.readBack, ?_⟩
      rw [atPriority, List.filter_append, ← atPriority, one]
      simp [Ne.symm different]

theorem localRule_wantable {destination : IPNet}
    (four : destination.ip.length = 4) {ones : Nat} (small : ones ≤ 32)
    (size : destination.maskSize = (ones, 32)) :
    Wantable (localRule destination) := by
  refine ⟨rfl, ?_, ?_⟩
  · rintro dst ⟨rfl⟩
    exact ⟨four, ones, small, size⟩
  · have length : (UInt8.ofNat ones).toNat = ones := by
      rw [UInt8.toNat_ofNat']
      omega
    have mask : cidrMask ones = destination.maskSize := by
      rw [cidrMask, if_pos small, size]
    have priority : nativeUint32 (nativeBytes localPriority) =
        localPriority := by
      decide +kernel
    have table : nativeUint32 (nativeBytes mainRouteTable) =
        mainRouteTable := by
      decide +kernel
    have unset : nativeUint32 [255, 255, 255, 255] = 2 ^ 32 - 1 := by
      decide +kernel
    have bytes : ∀ number, (nativeBytes number).length = 4 := fun _ => rfl
    obtain ⟨ip, maskSize⟩ := destination
    dsimp only at four size mask
    subst size
    simp [decodeRule, KernelPolicyRule.message, localRule, readAttribute,
      four, length, mask, priority, table, unset, bytes]
    rfl

theorem dropRule_wantable : Wantable dropRule :=
  ⟨rfl, nofun, by decide +kernel⟩

theorem destinationOf_wantable {cidr : Prefix} (isV4 : cidr.addr.is4 = true)
    {destination : IPNet} (found : destinationOf cidr = some destination) :
    Wantable (localRule destination) := by
  obtain ⟨ip, addr⟩ := Addr.is4_iff.mp isV4
  unfold destinationOf at found
  split at found
  · rename_i valid
    cases found
    have masked := (Prefix.masked_valid addr valid).1
    have small := Prefix.length_le_of_v4 addr valid
    refine localRule_wantable ?_ small ?_
    · rw [masked]
      rfl
    · rw [addr]
      rfl
  · cases found

theorem ensurePolicyRules_safe {cidr : Prefix}
    (isV4 : cidr.addr.is4 = true) {network : Network}
    (conserves : Conserves start network) :
    ((machine keepsAlias).contract refusable (Conserves start)).Safe
      (fun result now => result = .ok () →
        now.router.addresses = network.router.addresses ∧
        ReadsRule now dropRule ∧ ∃ destination,
          destinationOf cidr = some destination ∧
            ReadsRule now (localRule destination))
      (ensurePolicyRules cidr).run network := by
  unfold ensurePolicyRules
  split
  · exact Task.safe_throw nofun
  · rename_i destination found
    have wantable := destinationOf_wantable isV4 found
    refine Task.safe_bind (Task.safe_mapError_success
      (ensureRule_safe wantable conserves) conserves) conserves
      (fun _ _ => nofun) ?_
    rintro ⟨⟩ middle middleHeld first
    obtain ⟨sameAddresses, holdsLocal, -⟩ := first rfl
    refine (Task.safe_mapError_success (ensureRule_safe dropRule_wantable
      middleHeld) middleHeld).mono middleHeld ?_
    intro result final _ second success
    obtain ⟨same, holdsDrop, others⟩ := second success
    exact ⟨same.trans sameAddresses, holdsDrop, destination, found,
      others _ (show localPriority ≠ dropPriority by decide) holdsLocal⟩

/-- What a successful run reads at its end. -/
structure Satisfied (network : Network) (gateways : List Addr)
    (cidr : Prefix) : Prop where
  link : network.router.links.find routerLinkName ≠ none
  gateways : HoldsGateways network gateways
  drop : ReadsRule network dropRule
  localRule : ∃ destination, destinationOf cidr = some destination ∧
    ReadsRule network (localRule destination)

/-- What a successful run should leave. -/
structure Converged (network : Network) (gateways : List Addr)
    (cidr : Prefix) : Prop where
  gateways : HoldsGateways network gateways
  drop : HoldsRule network dropRule
  localRule : ∃ destination, destinationOf cidr = some destination ∧
    HoldsRule network (localRule destination)

theorem Satisfied.converged_iff {network : Network} {gateways : List Addr}
    {cidr : Prefix} (satisfied : Satisfied network gateways cidr)
    (isV4 : cidr.addr.is4 = true) :
    Converged network gateways cidr ↔
      PlainAt network localPriority ∧ PlainAt network dropPriority := by
  obtain ⟨-, holds, drop, destination, found, reads⟩ := satisfied
  have atDrop := drop.holds_iff dropRule_wantable
  have atLocal := reads.holds_iff (destinationOf_wantable isV4 found)
  constructor
  · rintro ⟨-, holdsDrop, other, same, holdsLocal⟩
    cases found.symm.trans same
    exact ⟨atLocal.mp holdsLocal, atDrop.mp holdsDrop⟩
  · rintro ⟨plainLocal, plainDrop⟩
    exact ⟨holds, atDrop.mpr plainDrop, destination, found,
      atLocal.mpr plainLocal⟩

theorem convergeRouter_safe (vpc : VPC) {gateways : List Addr}
    (isV4 : ∀ addr ∈ gateways, addr.is4 = true)
    (cidrV4 : vpc.cidrBlock.addr.is4 = true) {network : Network}
    (conserves : Conserves start network) :
    ((machine keepsAlias).contract refusable (Conserves start)).Safe
      (fun result now => result = .ok () →
        Satisfied now gateways vpc.cidrBlock)
      (convergeRouter vpc gateways).run network := by
  unfold convergeRouter
  refine Task.safe_bind (Task.safe_mapError_success
    (reconcileGateways_safe isV4 conserves) conserves) conserves
    (fun _ _ => nofun) ?_
  rintro ⟨⟩ middle middleHeld first
  obtain ⟨holds, found⟩ := first rfl
  refine (Task.safe_mapError_success (ensurePolicyRules_safe cidrV4
    middleHeld) middleHeld).mono middleHeld ?_
  intro result final finalHeld second success
  obtain ⟨same, drop, destination⟩ := second success
  refine ⟨?_, ?_, drop, destination⟩
  · rw [finalHeld.links, ← middleHeld.links]
    exact found
  · unfold HoldsGateways
    rw [same]
    exact holds

end Rules

theorem reconcileAddress_settled {desired : List Addr}
    (seen : List Address) {address : Address}
    (gateway : address.ipNet ≠ none →
      ∃ addr ∈ desired, address.IsGateway addr) :
    reconcileAddress (marks desired seen) address =
      pure (marks desired (seen ++ [address])) := by
  unfold reconcileAddress
  split
  · rename_i missing
    have keyless : address.key = none := by
      rw [Address.key, missing]
      rfl
    rw [marks_skip desired seen (by simp [keyless])]
  · rename_i ipNet present
    obtain ⟨addr, member, other, same, slice, size, label⟩ :=
      gateway (by rw [present]; exact nofun)
    cases present.symm.trans same
    obtain ⟨raw, parsed, rfl⟩ := Option.map_eq_some_iff.mp slice
    have key : address.key = some raw.unmap.text := by
      rw [Address.key, present, Option.bind_some, parsed]
      rfl
    have needed : ((marks desired seen).lookup raw.unmap.text).isSome =
        true := by
      rw [marks_lookup, if_pos (List.mem_map_of_mem member)]
      rfl
    rw [parsed]
    simp only [needed, label, size, ne_eq, not_true_eq_false, and_false,
      if_false, if_true]
    rw [marks_mark desired seen key]

theorem reconcileAddresses_settled {desired : List Addr}
    (rest seen : List Address)
    (gateways : ∀ address ∈ rest, address.ipNet ≠ none →
      ∃ addr ∈ desired, address.IsGateway addr) :
    rest.foldlM reconcileAddress (marks desired seen) =
      (pure (marks desired (seen ++ rest)) : Kernel.Task Wanted) := by
  induction rest generalizing seen with
  | nil =>
      rw [List.append_nil]
      rfl
  | cons address rest induction =>
      rw [List.forall_mem_cons] at gateways
      rw [List.foldlM_cons, reconcileAddress_settled seen gateways.1,
        List.append_cons seen address rest]
      exact induction (seen ++ [address]) gateways.2

theorem addGateways_settled {wanted : Wanted} {desired : List Addr}
    (there : ∀ addr ∈ desired, wanted.lookup addr.text = some true) :
    addGateways wanted desired = pure () := by
  induction desired with
  | nil => rfl
  | cons addr desired induction =>
      rw [List.forall_mem_cons] at there
      rw [addGateways]
      simp only [there.1, ne_eq, not_true_eq_false, if_false]
      exact induction there.2

section Settled

variable {keepsAlias : Bool} {refusable : Op → Prop} {network : Network}

/-- A result that only a refusal makes an error. -/
def FailsOnlyRefused {α : Type} (refusable : Op → Prop)
    (result : Except String α) : Prop :=
  ∀ text, result = .error text → ∃ op, refusable op

theorem reconcileGateways_settled {desired : List Addr}
    (holds : HoldsGateways network desired)
    (link : network.router.links.find routerLinkName ≠ none) :
    ((machine keepsAlias).contract refusable (· = network)).Safe
      (fun result _ => FailsOnlyRefused refusable result)
      (reconcileGateways desired).run network := by
  unfold reconcileGateways
  refine Task.safe_bind safe_linkByName rfl ?_ ?_
  · rintro error later - ⟨-, -, missing⟩ text -
    rcases missing error rfl with refusal | missing
    · exact ⟨_, refusal⟩
    · exact absurd missing link
  rintro link now rfl -
  refine Task.safe_bind (safe_read rfl) rfl ?_ ?_
  · rintro error later - ⟨-, -, refusal⟩ text -
    exact ⟨_, refusal error rfl⟩
  rintro existing later rfl ⟨-, listed, -⟩
  obtain rfl := listed existing rfl
  have initial : (desired.map fun addr => (addr.text, false)) =
      marks desired [] := rfl
  have marked : ∀ addr ∈ desired,
      (marks desired later.router.addresses).lookup addr.text =
        some true := by
    intro addr member
    obtain ⟨address, inside, ipNet, present, slice, -⟩ := holds.2 addr member
    obtain ⟨raw, parsed, rfl⟩ := Option.map_eq_some_iff.mp slice
    rw [marks_lookup, if_pos (List.mem_map_of_mem member), Option.some.injEq,
      decide_eq_true_iff, List.mem_map]
    refine ⟨address, inside, ?_⟩
    rw [Address.key, present, Option.bind_some, parsed]
    rfl
  rw [initial, reconcileAddresses_settled _ _ holds.1, List.nil_append]
  change ((machine keepsAlias).contract refusable (· = later)).Safe _
    (addGateways (marks desired later.router.addresses) desired).run later
  rw [addGateways_settled marked]
  exact Task.safe_pure nofun

theorem ensureRule_settled {want : KernelPolicyRule}
    (plain : want.extra = []) (reads : ReadsRule network want) :
    ((machine keepsAlias).contract refusable (· = network)).Safe
      (fun result _ => FailsOnlyRefused refusable result)
      (ensureRule want).run network := by
  obtain ⟨rules, decoded, one⟩ := reads
  unfold ensureRule
  refine Task.safe_bind (listKernelPolicyRules_safe rfl) rfl ?_ ?_
  · rintro error later - ⟨-, -, refusal⟩ text -
    rcases refusal error rfl with refusal | ⟨failure, undecoded⟩
    · exact ⟨_, refusal⟩
    · cases decoded.symm.trans undecoded
  rintro listed later rfl ⟨-, same, -⟩
  cases decoded.symm.trans (same listed rfl)
  rw [checkRules_found plain one]
  exact Task.safe_pure nofun

theorem safe_mapError_settled {holds : Network → Prop} {α : Type}
    {change : String → String} {task : Kernel.Task α}
    (first : ((machine keepsAlias).contract refusable holds).Safe
      (fun result _ => FailsOnlyRefused refusable result) task.run network)
    (held : holds network) :
    ((machine keepsAlias).contract refusable holds).Safe
      (fun result _ => FailsOnlyRefused refusable result)
      (task.mapError change).run network := by
  refine Task.safe_mapError (first.mono held ?_) held
  intro result later _ settled text failed
  cases result with
  | ok value => cases failed
  | error error => exact settled error rfl

/-- A further run changes nothing, and fails only if a call is refused. -/
theorem convergeRouter_settled {vpc : VPC} {gateways : List Addr}
    (satisfied : Satisfied network gateways vpc.cidrBlock) :
    ((machine keepsAlias).contract refusable (· = network)).Safe
      (fun result _ => FailsOnlyRefused refusable result)
      (convergeRouter vpc gateways).run network := by
  obtain ⟨link, holds, drop, destination, found, readsLocal⟩ := satisfied
  unfold convergeRouter
  refine Task.safe_bind (safe_mapError_settled
    (reconcileGateways_settled holds link) rfl) rfl
    (fun _ failed text _ => failed _ rfl) ?_
  rintro ⟨⟩ now rfl -
  refine safe_mapError_settled ?_ rfl
  unfold ensurePolicyRules
  rw [found]
  refine Task.safe_bind (safe_mapError_settled
    (ensureRule_settled rfl readsLocal) rfl) rfl
    (fun _ failed text _ => failed _ rfl) ?_
  rintro ⟨⟩ later rfl -
  exact safe_mapError_settled (ensureRule_settled rfl drop) rfl

end Settled

/-- The effect of `EnsureVPC` on the addresses and rules of a namespace.  A
run that succeeds leaves the gateways, and a further run does nothing; it
leaves the two rules exactly if no rule at their priorities had flags or a
type of service before.  No run, whatever calls of it are refused, touches an
address without the label of the gateways or a rule that was there. -/
theorem router_converges_iff (keepsAlias : Bool) (network : Network)
    (vpc : VPC) (cidrV4 : vpc.cidrBlock.addr.is4 = true)
    (gateways : List Addr) (isV4 : ∀ addr ∈ gateways, addr.is4 = true)
    (refused : Nat → Op → Bool) :
    let run := (machine keepsAlias).run refused 0
      (convergeRouter vpc gateways).run network
    (∀ event ∈ run.events, Conserves network event.after) ∧
      Conserves network run.final ∧
      (run.value = .ok () →
        HoldsGateways run.final gateways ∧
        (Converged run.final gateways vpc.cidrBlock ↔
          PlainAt network localPriority ∧ PlainAt network dropPriority) ∧
        ∀ refusedAgain : Nat → Op → Bool,
          let again := (machine keepsAlias).run refusedAgain 0
            (convergeRouter vpc gateways).run run.final
          (∀ event ∈ again.events, event.after = run.final) ∧
            again.final = run.final ∧
            ((∀ call op, refusedAgain call op = false) →
              again.value = .ok ())) := by
  intro run
  obtain ⟨moments, final, ends⟩ := Machine.run_keeps
    (fun _ _ _ => trivial : ∀ call op, refused call op = true →
      (fun _ => True) op)
    (convergeRouter_safe vpc isV4 cidrV4 (Conserves.refl network))
    (Conserves.refl network) 0
  refine ⟨moments, final, fun success => ?_⟩
  have satisfied := ends success
  refine ⟨satisfied.gateways, ?_, ?_⟩
  · rw [satisfied.converged_iff cidrV4, final.plainAt_iff, final.plainAt_iff]
  intro refusedAgain again
  obtain ⟨same, last, -⟩ := Machine.run_keeps
    (fun _ _ _ => trivial : ∀ call op, refusedAgain call op = true →
      (fun _ => True) op)
    (convergeRouter_settled satisfied) rfl 0
  refine ⟨same, last, fun answers => ?_⟩
  obtain ⟨-, -, settled⟩ := Machine.run_keeps
    (fun call op refusal => absurd refusal (by simp [answers]) :
      ∀ call op, refusedAgain call op = true → (fun _ => False) op)
    (convergeRouter_settled satisfied) rfl 0
  cases value : again.value with
  | ok done => rfl
  | error text => exact absurd (settled text value) nofun

/-- A rule at a priority that blocks the packets that its flags and its type
of service choose. -/
def blackhole (priority : Nat) (flags : UInt32) (tos : UInt8) : RuleMessage :=
  { dropRule.message with
    flags := flags, tos := tos
    attributes := some [(6, nativeBytes priority), (14, [255, 255, 255, 255]),
      (15, nativeBytes mainRouteTable), (21, [3])]
    once := by simp }

/-- A router with one gateway of a subnet that is gone. -/
def staleNetwork (rules : List RuleMessage) : Network :=
  { router :=
      { links :=
          { links := [{ index := 1, name := "nxr0", kind := "dummy"
                        marker := "", up := true, parentIndex := 0
                        netNsID := -1 }]
            indexes := by decide
            names := by decide }
        addresses := [gatewayAddress (.v4 0x0a000901#32)]
        rules := rules, table := none }
    known := []
    instances := fun _ => { links := [], indexes := by simp, names := by simp } }

def plainVPC : VPC :=
  { id := "vpc-1", workspaceID := "ws-1", name := "plain"
    cidrBlock := Prefix.ofAddr (.v4 0x0a000000#32) 16, shortIndex := 1
    state := .pending, stateReason := "", deletionRequested := false
    generation := 1, observedGeneration := 0 }

/-- The rule of an earlier run is kept, and so is a rule with flags at a
priority of its own. -/
theorem staleNetwork_converges :
    let network := staleNetwork
      [blackhole 500 2 8, blackhole dropPriority 0 0]
    let run := (machine false).run (fun _ _ => false) 0
      (convergeRouter plainVPC [.v4 0x0a000001#32]).run network
    run.value = .ok () ∧ run.final.router.rules.length = 3 ∧
      Converged run.final [.v4 0x0a000001#32] plainVPC.cidrBlock := by
  intro network run
  have success : run.value = .ok () := by decide +kernel
  have plain : PlainAt network localPriority ∧
      PlainAt network dropPriority := by
    constructor <;> unfold PlainAt <;> decide +kernel
  exact ⟨success, by decide +kernel,
    ((router_converges_iff false network plainVPC (by decide)
      [.v4 0x0a000001#32] (by decide) fun _ _ => false).2.2 success).2.1.mpr
      plain⟩

/-- With the flag that inverts it, a rule without a selector matches no
packet. -/
theorem invertedRule_taken :
    let network := staleNetwork [blackhole dropPriority 2 0]
    let run := (machine false).run (fun _ _ => false) 0
      (convergeRouter plainVPC [.v4 0x0a000001#32]).run network
    run.value = .ok () ∧ ¬ HoldsRule run.final dropRule ∧
      ∀ message ∈ run.final.router.rules,
        message.rule.priority = dropPriority → message.flags = 2 := by
  decide +kernel

end Nephos
