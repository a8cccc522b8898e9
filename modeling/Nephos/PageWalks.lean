import Nephos.KeyedCreates
import Nephos.Library.Keyset
import Nephos.Reads
import Nephos.Reconcile.Spec
import Nephos.Service.Pages

/-!
# Walks through the lists

A client follows the tokens of a list from the empty one until it gets none,
and the resources change between its requests.  It sees the identities in
order and none of them twice, and it misses no resource that is there all the
time.
-/

namespace Nephos

open Transaction

theorem Text.utf8_append (left right : String) :
    Text.utf8 (left ++ right) = Text.utf8 left ++ Text.utf8 right := by
  simp [Text.utf8]

/-- An identity with a marker and seventeen digits. -/
def Minted (marker id : String) : Prop :=
  ∃ digits : List Char, id = marker ++ String.ofList digits ∧
    digits.length = 17 ∧
    ∀ char ∈ digits, ∃ nibble < 16, char = Text.hexDigit nibble

theorem Minted.positive {marker id : String} (minted : Minted marker id) :
    "" < id := by
  obtain ⟨digits, rfl, length, -⟩ := minted
  by_contra small
  have short := congrArg String.length (Text.eq_empty_of_le (not_lt.mp small))
  simp [length] at short

theorem newID_minted {marker id : String} {random : List UInt8}
    (drawn : newID marker random = .ok id) : Minted marker id := by
  obtain ⟨enough, rfl⟩ := newID_ok drawn
  refine ⟨_, rfl, ?_, fun char member => ?_⟩
  · have length : (Text.hexEncode (random.take 9)).toList.length = 18 := by
      simp [Text.hexEncode, Text.hexByte, enough]
    rw [List.length_take, length]
    rfl
  · have inside := List.mem_of_mem_take member
    rw [Text.hexEncode, String.toList_ofList, List.mem_flatMap] at inside
    obtain ⟨byte, -, isDigit⟩ := inside
    have bound := byte.toNat_lt
    rw [Text.hexByte, List.mem_pair] at isDigit
    rcases isDigit with rfl | rfl
    · exact ⟨_, by omega, rfl⟩
    · exact ⟨_, by omega, rfl⟩

theorem hexDigit_ascii : ∀ nibble < 16,
    String.utf8EncodeChar (Text.hexDigit nibble) =
        [UInt8.ofNat (Text.hexDigit nibble).toNat] ∧
      isLowerHex (UInt8.ofNat (Text.hexDigit nibble).toNat) = true ∧
      Char.ofNat (UInt8.ofNat (Text.hexDigit nibble).toNat).toNat =
        Text.hexDigit nibble := by
  decide

/-- The bytes of the digits are the digits. -/
theorem utf8_digits {digits : List Char}
    (hex : ∀ char ∈ digits, ∃ nibble < 16, char = Text.hexDigit nibble) :
    (Text.utf8 (String.ofList digits)).length = digits.length ∧
      (Text.utf8 (String.ofList digits)).all isLowerHex = true ∧
      (Text.utf8 (String.ofList digits)).map
        (fun byte => Char.ofNat byte.toNat) = digits := by
  rw [Text.utf8, String.toList_ofList]
  induction digits with
  | nil => exact ⟨rfl, rfl, rfl⟩
  | cons char digits induction =>
      rw [List.forall_mem_cons] at hex
      obtain ⟨⟨nibble, small, rfl⟩, rest⟩ := hex
      obtain ⟨encoded, lower, decoded⟩ := hexDigit_ascii nibble small
      obtain ⟨length, all, chars⟩ := induction rest
      rw [List.flatMap_cons, encoded, List.singleton_append]
      refine ⟨?_, ?_, ?_⟩
      · rw [List.length_cons, List.length_cons, length]
      · rw [List.all_cons, lower, all]
        rfl
      · rw [List.map_cons, decoded, chars]

/-- The marker of the identities of a list is plain text. -/
def PlainKind (kind : String) : Prop :=
  (Text.utf8 (pageIDPrefix kind)).map (fun byte => Char.ofNat byte.toNat) =
    (pageIDPrefix kind).toList

theorem utf8_colon_ne_nil (kind : String) : Text.utf8 (kind ++ ":") ≠ [] := by
  have colon : Text.utf8 ":" = [58] := by decide
  rw [Text.utf8_append, colon]
  exact List.append_ne_nil_of_right_ne_nil _ nofun

theorem encodePageToken_ne_empty (kind lastID : String) :
    encodePageToken kind lastID ≠ "" := by
  intro empty
  have bytes := congrArg (Base64.decode ∘ String.toList) empty
  rw [Function.comp_apply, encodePageToken, String.toList_ofList,
    Base64.decode_encode, Text.utf8_append] at bytes
  have nothing : Text.utf8 (kind ++ ":") ++ Text.utf8 lastID = [] :=
    Option.some.inj bytes
  exact utf8_colon_ne_nil kind (List.append_eq_nil_iff.mp nothing).1

/-- A token leads the same list back to the identity. -/
theorem decodePageToken_encode {kind id : String} (plain : PlainKind kind)
    (minted : Minted (pageIDPrefix kind) id) :
    decodePageToken kind (encodePageToken kind id) = .ok id := by
  obtain ⟨digits, rfl, count, hex⟩ := minted
  obtain ⟨length, all, chars⟩ := utf8_digits hex
  have valid : validPageID kind (Text.utf8 (pageIDPrefix kind ++
      String.ofList digits)) = true := by
    rw [validPageID, Text.utf8_append, List.drop_left, all,
      List.isPrefixOf_iff_prefix.mpr (List.prefix_append _ _),
      List.length_append, length, count]
    simp
  rw [decodePageToken, if_neg (encodePageToken_ne_empty _ _),
    encodePageToken, String.toList_ofList, Base64.decode_encode]
  dsimp only
  rw [Text.utf8_append _ (pageIDPrefix kind ++ _), List.drop_left,
    if_neg (not_not.mpr (List.isPrefixOf_iff_prefix.mpr
      (List.prefix_append _ _))), if_neg (not_not.mpr valid),
    Text.utf8_append, List.map_append, plain, chars]
  simp

/-- A token is refused by a list of another kind. -/
theorem decodePageToken_other {kind other id : String}
    (different : (Text.utf8 (other ++ ":")).head? ≠
      (Text.utf8 (kind ++ ":")).head?) :
    decodePageToken other (encodePageToken kind id) =
      .error (invalidParameter
        "page_token belongs to a different resource type") := by
  rw [decodePageToken, if_neg (encodePageToken_ne_empty _ _),
    encodePageToken, String.toList_ofList, Base64.decode_encode]
  dsimp only
  rw [Text.utf8_append _ id, if_pos]
  intro begins
  obtain ⟨rest, split⟩ := List.isPrefixOf_iff_prefix.mp begins
  have heads := congrArg List.head? split
  rw [List.head?_append_of_ne_nil _ (utf8_colon_ne_nil other),
    List.head?_append_of_ne_nil _ (utf8_colon_ne_nil kind)] at heads
  exact different heads

/-- The marker of the identities of a kind. -/
def ResourceKind.marker : ResourceKind → String
  | .vpc => "vpc-"
  | .subnet => "subnet-"
  | .inst => "i-"
  | .eni => "eni-"

/-- Every identity that was ever given is a minted one. -/
def Store.Minted (store : Store) : Prop :=
  ∀ index ∈ store.kernelIndexes,
    Nephos.Minted index.kind.marker index.resourceID

section Minting

variable {store : Store}

/-- The edits that give an identity. -/
def Edit.Mints : Edit → Prop
  | .createVPC _ _ | .createSubnet _ _ | .createInstance _ _ _ => True
  | _ => False

theorem edits_run_kernelIndexes {labels : List Edit} {final : Store}
    (run : edits.Run store labels final)
    (quiet : ∀ edit ∈ labels, ¬ edit.Mints) :
    final.kernelIndexes = store.kernelIndexes := by
  induction run with
  | nil => rfl
  | @cons store middle final edit labels step _ induction =>
      rw [List.forall_mem_cons] at quiet
      rw [induction quiet.2, step.2]
      cases edit with
      | createVPC | createSubnet | createInstance =>
          exact absurd trivial quiet.1
      | _ => rfl

theorem Store.remember_kernelIndexes (record : Idempotency) :
    (store.remember record).kernelIndexes = store.kernelIndexes := by
  unfold Store.remember
  split <;> rfl

/-- What a request leaves behind, by what its transaction leaves. -/
theorem Outcome.ofTx_store {α : Type} {body : Tx (α × Bool)} {hint : α → ID}
    {holds : Store → Prop} (kept : holds store)
    (committed : ∀ {result final}, body store = .ok (result, final) →
      holds final) : holds (Outcome.ofTx body hint store).store := by
  rcases Outcome.ofTx_cases body hint store with
    ⟨failure, shape⟩ | ⟨value, changed, final, run, shape⟩
  · rw [shape]
    exact kept
  · rw [shape]
    exact committed run

theorem createVPC_minted (minted : store.Minted) (input : CreateVPCInput)
    (key : String) (random : List UInt8) (now : Time) :
    (createVPC input key random now store).store.Minted := by
  unfold createVPC
  split
  · exact minted
  · rename_i request checked
    simp only [checkVPCRequest, except_bind_ok_iff] at checked
    obtain ⟨_, -, _, -, _, -, id, drawn, shape⟩ := checked
    cases shape
    refine Outcome.ofTx_store minted fun {result final} run => ?_
    rcases createVPCTx_ok run with
      ⟨_, _, -, -, -, -, rfl⟩ | ⟨-, -, same, rfl⟩
    · exact minted
    · cases same
      rw [Store.Minted, Store.remember_kernelIndexes]
      exact forall_append minted (newID_minted drawn)

theorem createSubnet_minted (minted : store.Minted)
    (input : CreateSubnetInput) (key : String) (random : List UInt8)
    (now : Time) :
    (createSubnet input key random now store).store.Minted := by
  unfold createSubnet
  split
  · exact minted
  · rename_i request checked
    simp only [checkSubnetRequest, except_bind_ok_iff] at checked
    obtain ⟨_, -, _, -, rest⟩ := checked
    split at rest
    · cases rest
    · simp only [except_bind_ok_iff] at rest
      obtain ⟨_, -, id, drawn, shape⟩ := rest
      cases shape
      refine Outcome.ofTx_store minted fun {result final} run => ?_
      rcases createSubnetTx_ok run with
        ⟨_, _, -, -, -, -, rfl⟩ | ⟨-, -, ⟨vpc, -, -, same⟩, rfl⟩
      · exact minted
      · cases same
        rw [Store.Minted, Store.remember_kernelIndexes]
        exact forall_append minted (newID_minted drawn)

theorem run_minted (minted : store.Minted) (input : RunInstanceInput)
    (key : String) (random eniRandom : List UInt8) (now : Time) :
    (run input key random eniRandom now store).store.Minted := by
  unfold run
  split
  · exact minted
  · rename_i request checked
    simp only [checkRunRequest, except_bind_ok_iff] at checked
    obtain ⟨_, -, _, -, id, drawn, eniID, eniDrawn, shape⟩ := checked
    cases shape
    refine Outcome.ofTx_store minted fun {result final} run => ?_
    rcases runTx_ok run with
      ⟨_, _, -, -, -, -, rfl⟩ | ⟨-, subnet, address, -, -, -, rfl⟩
    · exact minted
    · rw [Store.Minted, Store.remember_kernelIndexes]
      exact forall_append (forall_append minted (newID_minted drawn))
        (newID_minted eniDrawn)

/-- Only the creations give identities. -/
theorem Write.Makes.mintless {write : Write} {edit : Edit}
    (makes : write.Makes edit)
    (vpcless : ∀ input key random now, write ≠ .createVPC input key random now)
    (subnetless : ∀ input key random now,
      write ≠ .createSubnet input key random now)
    (runless : ∀ input key random eniRandom now,
      write ≠ .run input key random eniRandom now) : ¬ edit.Mints := by
  intro gives
  cases edit with
  | createVPC row time =>
      cases write <;> try exact makes
      exact vpcless _ _ _ _ rfl
  | createSubnet row time =>
      cases write <;> try exact makes
      exact subnetless _ _ _ _ rfl
  | createInstance row eni time =>
      cases write <;> try exact makes
      exact runless _ _ _ _ _ rfl
  | _ => exact gives

theorem Write.minted {write : Write} (keyed : store.Keyed)
    (minted : store.Minted) : (write.apply store).Minted := by
  have others (vpcless : ∀ input key random now,
        write ≠ .createVPC input key random now)
      (subnetless : ∀ input key random now,
        write ≠ .createSubnet input key random now)
      (runless : ∀ input key random eniRandom now,
        write ≠ .run input key random eniRandom now) :
      (write.apply store).Minted := by
    obtain ⟨labels, run, -, all⟩ := write.edited keyed
    rw [Store.Minted, edits_run_kernelIndexes run fun edit member =>
      (all edit member).mintless vpcless subnetless runless]
    exact minted
  cases write with
  | createVPC input key random now =>
      exact createVPC_minted minted input key random now
  | createSubnet input key random now =>
      exact createSubnet_minted minted input key random now
  | run input key random eniRandom now =>
      exact run_minted minted input key random eniRandom now
  | _ => exact others nofun nofun nofun

end Minting

theorem database_run_minted {store final : Store} {writes : List Write}
    (run : database.Run store writes final) (sound : store.Sound)
    (minted : store.Minted) : final.Sound ∧ final.Minted := by
  refine run.invariant (fun store => store.Sound ∧ store.Minted)
    (fun {state write next} held step => ?_) ⟨sound, minted⟩
  obtain rfl := step
  exact ⟨write.sound held.1, write.minted held.1.keyed held.2⟩

theorem database_reachable_minted {store : Store}
    (reachable : database.Reachable store) : store.Sound ∧ store.Minted := by
  obtain ⟨start, writes, rfl, run⟩ := reachable
  exact database_run_minted run ⟨.empty, .empty⟩
    fun index member => absurd member List.not_mem_nil

/-- A list of the service: its kind, the rows it reads and the page of them
that it fetches. -/
structure Listing (Item : Type) where
  kind : String
  identity : Item → ID
  rows : Store → List ID
  fetch : Store → ID → Nat → Except Failure (List Item)

namespace Listing

variable {Item : Type}

def list (listing : Listing Item) (store : Store) (limit : Int)
    (token : String) : Except Failure (List Item × String) :=
  listPage listing.kind listing.identity (listing.fetch store) limit token

/-- What a walk needs of a database. -/
structure Serves (listing : Listing Item) (store : Store) : Prop where
  distinct : (listing.rows store).Nodup
  minted : ∀ id ∈ listing.rows store, Minted (pageIDPrefix listing.kind) id
  fetches : ∀ afterID limit, ∃ items,
    listing.fetch store afterID limit = .ok items ∧
      items.map listing.identity =
        (Keyset.above afterID (listing.rows store)).take limit

def vpcs : Listing VPC :=
  ⟨"vpc", VPC.id, fun store => store.vpcs.map VPC.id,
    fun store => store.listVPCPage defaultWorkspace⟩

def subnets : Listing Subnet :=
  ⟨"subnet", Subnet.id, fun store => store.subnets.map Subnet.id,
    fun store => store.listSubnetPage defaultWorkspace⟩

def instances : Listing Instance :=
  ⟨"instance", Instance.id, fun store => store.instances.map InstanceRow.id,
    fun store => store.listInstancePage defaultWorkspace⟩

end Listing

/-- The identities of the rows behind the cursor. -/
theorem map_orderByID_filter {Row : Type} {column workspace : Row → ID}
    {rows : List Row}
    (defaults : ∀ row ∈ rows, workspace row = defaultWorkspace)
    (afterID : ID) :
    (orderByID column (rows.filter fun row =>
        workspace row = defaultWorkspace ∧ afterID < column row)).map column =
      Keyset.above afterID (rows.map column) := by
  have selected : (rows.filter fun row =>
      workspace row = defaultWorkspace ∧ afterID < column row) =
      rows.filter fun row => afterID < column row := by
    refine List.filter_congr fun row member => ?_
    simp [defaults row member]
  rw [selected, orderByID, Keyset.above, List.filter_map]
  exact List.map_insertionSort _ _ _ _ fun _ _ _ _ => Iff.rfl

namespace Store.Sound

variable {store : Store} (sound : store.Sound) (minted : store.Minted)

include sound

theorem listVPCPage_map (afterID : ID) (limit : Nat) : ∃ items,
    store.listVPCPage defaultWorkspace afterID limit = .ok items ∧
      items.map VPC.id =
        (Keyset.above afterID (store.vpcs.map VPC.id)).take limit := by
  obtain ⟨items, listed⟩ :=
    sound.listVPCPage_total defaultWorkspace afterID limit
  refine ⟨items, listed, ?_⟩
  rw [listVPCPage_ok listed, List.map_take,
    map_orderByID_filter sound.keyed.vpcs.workspace]

theorem listSubnetPage_map (afterID : ID) (limit : Nat) : ∃ items,
    store.listSubnetPage defaultWorkspace afterID limit = .ok items ∧
      items.map Subnet.id =
        (Keyset.above afterID (store.subnets.map Subnet.id)).take limit := by
  obtain ⟨items, listed⟩ :
      ∃ items, store.listSubnetPage defaultWorkspace afterID limit =
        .ok items := by
    refine mapM_total fun subnet member => ⟨subnet, sound.subnetFromRow ?_⟩
    have inside := List.mem_of_mem_take member
    rw [mem_orderByID] at inside
    exact (List.mem_filter.mp inside).1
  refine ⟨items, listed, ?_⟩
  rw [mapM_ok subnetFromRow_ok listed, List.map_id', List.map_take,
    map_orderByID_filter sound.keyed.subnets.workspace]

theorem listInstancePage_map (afterID : ID) (limit : Nat) : ∃ items,
    store.listInstancePage defaultWorkspace afterID limit = .ok items ∧
      items.map Instance.id =
        (Keyset.above afterID (store.instances.map InstanceRow.id)).take
          limit := by
  obtain ⟨items, listed⟩ :=
    sound.listInstancePage_total defaultWorkspace afterID limit
  have sameIDs : items.map Instance.id =
      ((orderByID InstanceRow.id (store.instances.filter fun row =>
        row.workspaceID = defaultWorkspace ∧ afterID < row.id)).take
          limit).map InstanceRow.id := by
    refine mapM_map (fun {row inst} decoded => ?_) listed
    obtain ⟨eni, -, -, -, rfl⟩ := instanceFromRow_ok decoded
    rfl
  refine ⟨items, listed, ?_⟩
  rw [sameIDs, List.map_take,
    map_orderByID_filter sound.keyed.instances.workspace]

include minted

theorem serves_vpcs : Listing.vpcs.Serves store where
  distinct := sound.keyed.vpcs.unique
  minted := by
    refine List.forall_mem_map.mpr fun vpc member => ?_
    exact minted _ (sound.keyed.vpcs.allocated vpc member)
  fetches := sound.listVPCPage_map

theorem serves_subnets : Listing.subnets.Serves store where
  distinct := sound.keyed.subnets.unique
  minted := by
    refine List.forall_mem_map.mpr fun subnet member => ?_
    exact minted _ (sound.keyed.subnets.allocated subnet member)
  fetches := sound.listSubnetPage_map

theorem serves_instances : Listing.instances.Serves store where
  distinct := sound.keyed.instances.unique
  minted := by
    refine List.forall_mem_map.mpr fun row member => ?_
    exact minted _ (sound.keyed.instances.allocated row member)
  fetches := sound.listInstancePage_map

end Store.Sound

/-- A client that follows the tokens: its requests so far, the token it has
got last and the pages.  The list is asked about a store of its own each
time. -/
inductive Follows {Item : Type}
    (list : Store → Int → String → Except Failure (List Item × String))
    (stores : Nat → Store) (limits : Nat → Int) :
    Nat → String → List (List Item) → Prop where
  | start : Follows list stores limits 0 "" []
  | next {requests : Nat} {token following : String}
      {pages : List (List Item)} {items : List Item} :
      Follows list stores limits requests token pages →
      (requests = 0 ∨ token ≠ "") →
      list (stores requests) (limits requests) token =
        .ok (items, following) →
      Follows list stores limits (requests + 1) following (pages ++ [items])

/-- What a client relies on when it walks through a list. -/
structure WalksWell {Item : Type} (kind : String) (identity : Item → ID)
    (rows : Store → List ID)
    (list : Store → Int → String → Except Failure (List Item × String))
    (stores : Nat → Store) (limits : Nat → Int) : Prop where
  accepted : ∀ {requests token pages},
    Follows list stores limits requests token pages →
      (requests = 0 ∨ token ≠ "") → ∃ items following,
        list (stores requests) (limits requests) token =
          .ok (items, following)
  tokens : ∀ {requests token pages},
    Follows list stores limits requests token pages → token ≠ "" →
      ∃ page last, pages.getLast? = some page ∧ page.getLast? = some last ∧
        decodePageToken kind token = .ok (identity last)
  bounded : ∀ {requests token pages},
    Follows list stores limits requests token pages →
      ∀ index page, pages[index]? = some page →
        ∃ size, pageSize (limits index) = .ok size ∧ page.length ≤ size
  increasing : ∀ {requests token pages},
    Follows list stores limits requests token pages →
      (pages.flatten.map identity).Pairwise (· < ·)
  complete : ∀ {requests pages},
    Follows list stores limits (requests + 1) "" pages →
      ∀ id, (∀ index ≤ requests, id ∈ rows (stores index)) →
        (pages.flatten.map identity).count id = 1
  ends : (∀ index, rows (stores index) ⊆ rows (stores 0)) →
    ∃ requests pages, Follows list stores limits (requests + 1) "" pages ∧
      requests ≤ (rows (stores 0)).length

theorem pageSize_ok {limit : Int} (valid : 0 ≤ limit ∧ limit ≤ 100) :
    ∃ size, pageSize limit = .ok size ∧ 0 < size := by
  unfold pageSize
  split
  · exact ⟨50, rfl, by decide⟩
  · rename_i nonzero
    rw [if_neg (by omega)]
    exact ⟨_, rfl, by omega⟩

namespace Listing

variable {Item : Type} {listing : Listing Item}

/-- One request with a token for a cursor. -/
theorem Serves.page {store : Store} (serves : listing.Serves store)
    (plain : PlainKind listing.kind) {limit : Int} {size : Nat}
    {token : String} {cursor : ID} (sized : pageSize limit = .ok size)
    (positive : 0 < size)
    (decoded : decodePageToken listing.kind token = .ok cursor) :
    ∃ items following, listing.list store limit token =
        .ok (items, following) ∧ items.length ≤ size ∧
      (following = "" ∧ items.map listing.identity =
          Keyset.above cursor (listing.rows store) ∨
        following ≠ "" ∧ items.map listing.identity <+:
          Keyset.above cursor (listing.rows store) ∧
        ∃ last, items.getLast? = some last ∧
          decodePageToken listing.kind following =
            .ok (listing.identity last)) := by
  obtain ⟨fetched, isOk, ids⟩ := serves.fetches cursor (size + 1)
  have length := congrArg List.length ids
  rw [List.length_map, List.length_take] at length
  by_cases short : fetched.length ≤ size
  · refine ⟨fetched, "", ?_, short, .inl ⟨rfl, ?_⟩⟩
    · rw [list, listPage, sized, decoded]
      simp only [isOk, bind, Except.bind, dif_pos short]
      rfl
    · rw [ids, List.take_of_length_le (by omega)]
  · have inside : size - 1 < fetched.length := by omega
    have taken : (fetched.take size).length = size := by
      rw [List.length_take]
      omega
    refine ⟨fetched.take size, encodePageToken listing.kind
      (listing.identity (fetched.get ⟨size - 1, inside⟩)), ?_, taken.le,
      .inr ⟨encodePageToken_ne_empty _ _, ?_, fetched.get ⟨size - 1, inside⟩,
        ?_, decodePageToken_encode plain ?_⟩⟩
    · rw [list, listPage, sized, decoded]
      simp only [isOk, bind, Except.bind, dif_neg short]
      rfl
    · rw [List.map_take, ids, List.take_take]
      exact List.take_prefix _ _
    · rw [List.getLast?_eq_getElem?, taken, List.getElem?_take_of_lt
        (by omega), List.getElem?_eq_getElem inside]
      rfl
    · have member : listing.identity (fetched.get ⟨size - 1, inside⟩) ∈
          fetched.map listing.identity :=
        List.mem_map_of_mem (List.get_mem _ _)
      rw [ids] at member
      exact serves.minted _ (Keyset.mem_above.mp
        (List.mem_of_mem_take member)).1

/-- The rows that the list saw at each request, with the pages. -/
def visits (listing : Listing Item) (stores : Nat → Store)
    (pages : List (List Item)) : List (Keyset.Visit ID) :=
  pages.mapIdx fun index page =>
    ⟨listing.rows (stores index), page.map listing.identity⟩

theorem visits_snoc (stores : Nat → Store) (pages : List (List Item))
    (page : List Item) :
    listing.visits stores (pages ++ [page]) =
      listing.visits stores pages ++ [⟨listing.rows (stores pages.length),
        page.map listing.identity⟩] := by
  rw [visits, List.mapIdx_append]
  simp [visits]

theorem read_visits (stores : Nat → Store) (pages : List (List Item)) :
    Keyset.read (listing.visits stores pages) =
      pages.flatten.map listing.identity := by
  induction pages using List.reverseRecOn with
  | nil => rfl
  | append_singleton pages page induction =>
      rw [visits_snoc, Keyset.read_snoc, induction, List.flatten_append,
        List.map_append]
      simp

theorem mem_visits {stores : Nat → Store} {pages : List (List Item)}
    {visit : Keyset.Visit ID}
    (member : visit ∈ listing.visits stores pages) :
    ∃ index < pages.length, visit.rows = listing.rows (stores index) := by
  obtain ⟨index, inside, rfl⟩ := List.mem_mapIdx.mp member
  exact ⟨index, inside, rfl⟩

theorem visits_distinct {stores : Nat → Store}
    (serves : ∀ index, listing.Serves (stores index))
    {pages : List (List Item)} :
    ∀ visit ∈ listing.visits stores pages, visit.rows.Nodup := by
  intro visit member
  obtain ⟨index, -, same⟩ := mem_visits member
  rw [same]
  exact (serves index).distinct

/-- Where a walk is: at a cursor that its token stands for, or at its end. -/
inductive Position (listing : Listing Item) (stores : Nat → Store)
    (requests : Nat) (token : String) (pages : List (List Item)) : Prop where
  | onTheWay (cursor : ID)
      (decoded : decodePageToken listing.kind token = .ok cursor)
      (continues : requests = 0 ∨ token ≠ "")
      (steps : Keyset.Steps "" (listing.visits stores pages) cursor)
  | ended (last : 0 < requests ∧ token = "")
      (complete : Keyset.Complete "" (listing.visits stores pages))

section Walks

variable {stores : Nat → Store} {limits : Nat → Int}
  (serves : ∀ index, listing.Serves (stores index))
  (plain : PlainKind listing.kind)
  (valid : ∀ index, 0 ≤ limits index ∧ limits index ≤ 100)

include serves plain valid

theorem Position.page {requests : Nat} {token : String}
    {pages : List (List Item)}
    (position : listing.Position stores requests token pages)
    (more : requests = 0 ∨ token ≠ "") :
    ∃ cursor, decodePageToken listing.kind token = .ok cursor ∧
      Keyset.Steps "" (listing.visits stores pages) cursor ∧
      ∃ size, pageSize (limits requests) = .ok size ∧
      ∃ items following, listing.list (stores requests) (limits requests)
          token = .ok (items, following) ∧ items.length ≤ size ∧
        (following = "" ∧ items.map listing.identity =
            Keyset.above cursor (listing.rows (stores requests)) ∨
          following ≠ "" ∧ items.map listing.identity <+:
            Keyset.above cursor (listing.rows (stores requests)) ∧
          ∃ last, items.getLast? = some last ∧
            decodePageToken listing.kind following =
              .ok (listing.identity last)) := by
  cases position with
  | ended last =>
      obtain ⟨positive, rfl⟩ := last
      rcases more with rfl | nonempty
      · exact absurd positive (Nat.lt_irrefl 0)
      · exact absurd rfl nonempty
  | onTheWay cursor decoded continues steps =>
      obtain ⟨size, sized, positive⟩ := pageSize_ok (valid requests)
      exact ⟨cursor, decoded, steps, size, sized,
        (serves requests).page plain sized positive decoded⟩

theorem Follows.position {requests : Nat} {token : String}
    {pages : List (List Item)}
    (follows : Follows listing.list stores limits requests token pages) :
    requests = pages.length ∧
      listing.Position stores requests token pages := by
  induction follows with
  | start => exact ⟨rfl, .onTheWay "" rfl (.inl rfl) .nil⟩
  | @next requests token following pages items follows more listed
      induction =>
      obtain ⟨rfl, position⟩ := induction
      refine ⟨by simp, ?_⟩
      obtain ⟨cursor, -, steps, -, -, _, _, isOk, -, outcome⟩ :=
        position.page serves plain valid more
      cases listed.symm.trans isOk
      rcases outcome with ⟨rfl, whole⟩ | ⟨nonempty, isPage, last, isLast, back⟩
      · refine .ended ⟨Nat.succ_pos _, rfl⟩ ?_
        rw [visits_snoc]
        exact ⟨_, cursor, _, rfl, steps, whole⟩
      · refine .onTheWay _ back (.inr nonempty) ?_
        rw [visits_snoc]
        refine .snoc steps isPage ?_
        rw [List.getLast?_map, isLast]
        rfl

/-- A walk gets further, or it has come to its end. -/
theorem Follows.extends (requests : Nat) :
    (∃ earlier < requests, ∃ pages,
      Follows listing.list stores limits (earlier + 1) "" pages) ∨
    ∃ token pages, Follows listing.list stores limits requests token pages ∧
      (requests = 0 ∨ token ≠ "") := by
  induction requests with
  | zero => exact .inr ⟨"", [], .start, .inl rfl⟩
  | succ requests induction =>
      rcases induction with ⟨earlier, before, ended⟩ |
        ⟨token, pages, follows, more⟩
      · exact .inl ⟨earlier, Nat.lt_succ_of_lt before, ended⟩
      · obtain ⟨-, position⟩ := Follows.position serves plain valid follows
        obtain ⟨_, -, -, _, -, items, following, isOk, -⟩ :=
          position.page serves plain valid more
        have onward := follows.next more isOk
        by_cases last : following = ""
        · subst last
          exact .inl ⟨requests, Nat.lt_succ_self _, _, onward⟩
        · exact .inr ⟨following, _, onward, .inr last⟩

variable (listing) in
theorem walksWell : WalksWell listing.kind listing.identity listing.rows
    listing.list stores limits where
  accepted := by
    intro requests token pages follows more
    obtain ⟨-, position⟩ := Follows.position serves plain valid follows
    obtain ⟨_, -, -, _, -, items, following, isOk, -⟩ :=
      position.page serves plain valid more
    exact ⟨items, following, isOk⟩
  tokens := by
    intro requests token pages follows nonempty
    cases follows with
    | start => exact absurd rfl nonempty
    | next follows more listed =>
        obtain ⟨-, position⟩ := Follows.position serves plain valid follows
        obtain ⟨_, -, -, _, -, _, _, isOk, -, outcome⟩ :=
          position.page serves plain valid more
        cases listed.symm.trans isOk
        rcases outcome with ⟨rfl, -⟩ | ⟨-, -, last, isLast, back⟩
        · exact absurd rfl nonempty
        · exact ⟨_, last, List.getLast?_concat, isLast, back⟩
  bounded := by
    intro requests token pages follows
    induction follows with
    | start =>
        intro index page found
        cases found
    | @next requests token following pages items follows more listed
        induction =>
        intro index page found
        obtain ⟨rfl, position⟩ :=
          Follows.position serves plain valid follows
        obtain ⟨_, -, -, size, sized, _, _, isOk, fits, -⟩ :=
          position.page serves plain valid more
        cases listed.symm.trans isOk
        rw [List.getElem?_append] at found
        split at found
        · exact induction index page found
        · rw [List.getElem?_singleton] at found
          split at found
          · cases found
            rw [show index = pages.length by omega]
            exact ⟨size, sized, fits⟩
          · cases found
  increasing := by
    intro requests token pages follows
    rw [← read_visits stores pages]
    obtain ⟨-, position⟩ := Follows.position serves plain valid follows
    cases position with
    | onTheWay cursor decoded continues steps =>
        exact (steps.seen (visits_distinct serves)).increasing
    | ended last complete =>
        exact (complete.seen (visits_distinct serves)).1
  complete := by
    intro requests pages follows id stays
    obtain ⟨count, position⟩ := Follows.position serves plain valid follows
    cases position with
    | onTheWay cursor decoded continues steps =>
        rcases continues with impossible | impossible
        · cases impossible
        · exact absurd rfl impossible
    | ended last complete =>
        obtain ⟨increasing, all⟩ :=
          complete.seen (visits_distinct serves)
        have member := all id ((serves 0).minted id
          (stays 0 (Nat.zero_le _))).positive fun visit member => by
            obtain ⟨index, inside, same⟩ := mem_visits member
            rw [same]
            exact stays index (by omega)
        rw [read_visits] at member increasing
        exact List.count_eq_one_of_mem (increasing.imp ne_of_lt) member
  ends := by
    intro removals
    rcases Follows.extends serves plain valid
      ((listing.rows (stores 0)).length + 1) with
      ⟨earlier, before, pages, ended⟩ | ⟨token, pages, follows, more⟩
    · exact ⟨earlier, pages, ended, by omega⟩
    · obtain ⟨count, position⟩ := Follows.position serves plain valid follows
      obtain ⟨cursor, -, steps, -⟩ := position.page serves plain valid more
      have short := steps.length_le (visits_distinct serves)
        fun visit member => by
          obtain ⟨index, -, same⟩ := mem_visits member
          rw [same]
          exact removals index
      rw [visits, List.length_mapIdx] at short
      omega

end Walks

end Listing

end Nephos
