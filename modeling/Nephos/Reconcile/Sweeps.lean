import Nephos.PageWalks
import Nephos.Reconcile.Isolation

/-!
# Walks of the sweeps

A sweep reads its table in pages of a hundred rows, while requests come and
go and, for the instances, while it works on each page before it reads the
next one.  What it reads is a walk like that of a client.
-/

namespace Nephos

open Effects Transaction

/-- The VPCs that a listing found, and those that it returned. -/
def PassEvent.vpcVisit (event : PassEvent) : Option (Keyset.Visit ID) :=
  match event with
  | ⟨before, .listVPCPage _, .ok page, _⟩ =>
      some ⟨before.store.vpcs.map VPC.id, page.map VPC.id⟩
  | _ => none

def PassEvent.instanceVisit (event : PassEvent) : Option (Keyset.Visit ID) :=
  match event with
  | ⟨before, .listInstancePage _, .ok page, _⟩ =>
      some ⟨before.store.instances.map InstanceRow.id, page.map Instance.id⟩
  | _ => none

/-- A visit to a table of identified rows, for a page of at most a
hundred. -/
structure FullPage (visit : Keyset.Visit ID) : Prop where
  distinct : visit.rows.Nodup
  identified : ∀ id ∈ visit.rows, "" < id
  size : visit.page.length ≤ 100

/-- The visits of a sweep so far. -/
structure Sweeping (visits : List (Keyset.Visit ID)) : Prop where
  pages : ∀ visit ∈ visits, FullPage visit
  walk : (∃ cursor, Keyset.Steps "" visits cursor) ∨
    Keyset.Complete "" visits

theorem Sweeping.increasing {visits : List (Keyset.Visit ID)}
    (sweeping : Sweeping visits) :
    (Keyset.read visits).Pairwise (· < ·) := by
  have distinct := fun visit member => (sweeping.pages visit member).distinct
  rcases sweeping.walk with ⟨cursor, steps⟩ | complete
  · exact (steps.seen distinct).increasing
  · exact (complete.seen distinct).1

theorem Sweeping.length_le {visits : List (Keyset.Visit ID)} {rows : List ID}
    (sweeping : Sweeping visits)
    (within : ∀ visit ∈ visits, visit.rows ⊆ rows) :
    visits.length ≤ rows.length + 1 := by
  have distinct := fun visit member => (sweeping.pages visit member).distinct
  rcases sweeping.walk with
    ⟨cursor, steps⟩ | ⟨front, cursor, last, rfl, steps, -⟩
  · exact (steps.length_le distinct within).trans (Nat.le_succ _)
  · rw [List.forall_mem_append] at distinct within
    rw [List.length_append]
    exact Nat.succ_le_succ (steps.length_le distinct.1 within.1)

theorem Sweeping.start : Sweeping [] :=
  ⟨fun _ member => absurd member List.not_mem_nil, .inl ⟨"", .nil⟩⟩

/-- The next page of a sweep, which ends it if it is empty. -/
theorem Sweeping.page {visits : List (Keyset.Visit ID)} {cursor : ID}
    {rows ids : List ID} (sweeping : Sweeping visits)
    (steps : Keyset.Steps "" visits cursor) (distinct : rows.Nodup)
    (identified : ∀ id ∈ rows, "" < id)
    (taken : ids = (Keyset.above cursor rows).take 100) :
    Sweeping (visits ++ [⟨rows, ids⟩]) ∧
      (ids = [] → Keyset.Complete "" (visits ++ [⟨rows, ids⟩])) ∧
      ∀ last, ids.getLast? = some last →
        Keyset.Steps "" (visits ++ [⟨rows, ids⟩]) last := by
  have isPage : ids <+: Keyset.above cursor rows := by
    rw [taken]
    exact List.take_prefix _ _
  have ended : ids = [] → Keyset.Complete "" (visits ++ [⟨rows, ids⟩]) := by
    intro empty
    refine ⟨visits, cursor, ⟨rows, ids⟩, rfl, steps, ?_⟩
    rcases List.take_eq_nil_iff.mp (taken.symm.trans empty) with
      impossible | none
    · cases impossible
    · exact empty.trans none.symm
  have onward : ∀ last, ids.getLast? = some last →
      Keyset.Steps "" (visits ++ [⟨rows, ids⟩]) last :=
    fun last isLast => .snoc steps isPage isLast
  refine ⟨⟨forall_append sweeping.pages ⟨distinct, identified, ?_⟩, ?_⟩, ended,
    onward⟩
  · rw [taken]
    exact List.length_take_le _ _
  · cases isLast : ids.getLast? with
    | none => exact .inr (ended (List.getLast?_eq_none_iff.mp isLast))
    | some last => exact .inl ⟨last, onward last isLast⟩

/-- A sweep that has come to its end has read what was there throughout. -/
theorem Sweeping.count {visits : List (Keyset.Visit ID)}
    (sweeping : Sweeping visits) (complete : Keyset.Complete "" visits)
    {id : ID} (stays : ∀ visit ∈ visits, id ∈ visit.rows) :
    (Keyset.read visits).count id = 1 := by
  obtain ⟨increasing, all⟩ := complete.seen
    fun visit member => (sweeping.pages visit member).distinct
  obtain ⟨front, cursor, last, rfl, -⟩ := complete
  have member : last ∈ front ++ [last] :=
    List.mem_append_right _ (List.mem_singleton.mpr rfl)
  exact List.count_eq_one_of_mem (increasing.imp ne_of_lt)
    (all id ((sweeping.pages last member).identified id (stays last member))
      stays)

theorem filterMap_snoc_none {Item Out : Type} {choose : Item → Option Out}
    {item : Item} (items : List Item) (none : choose item = none) :
    (items ++ [item]).filterMap choose = items.filterMap choose := by
  rw [List.filterMap_append, List.filterMap_cons_none none,
    List.filterMap_nil, List.append_nil]

theorem filterMap_snoc_some {Item Out : Type} {choose : Item → Option Out}
    {item : Item} {out : Out} (items : List Item)
    (some : choose item = some out) :
    (items ++ [item]).filterMap choose = items.filterMap choose ++ [out] := by
  rw [List.filterMap_append, List.filterMap_cons_some some,
    List.filterMap_nil]

section Rules

variable (visit : PassEvent → Option (Keyset.Visit ID))

/-- An operation that is not a visit. -/
def Silent (op : Op) : Prop :=
  ∀ before result after, visit ⟨before, op, result, after⟩ = none

/-- The program sweeps, among the writes of the others. -/
def SweepSafe {α : Type} (post : α → World → List (Keyset.Visit ID) → Prop)
    (program : Call α) (world : World) (history : List PassEvent) : Prop :=
  (accompanied.contract fun history =>
    Sweeping (history.filterMap visit)).Safe
      (fun result traced =>
        post result traced.state (traced.history.filterMap visit))
      program ⟨world, history⟩

/-- A sweep that succeeds has come to the end of its table. -/
def Ends (result : Except Failure Unit) (_ : World)
    (visits : List (Keyset.Visit ID)) : Prop :=
  result = .ok () → Keyset.Complete "" visits

/-- What the writes of the others cannot break. -/
structure World.Listable (world : World) : Prop where
  sound : world.store.Sound
  minted : world.store.Minted

variable {visit} {world : World} {history : List PassEvent}

theorem World.Listable.meanwhile {later : World} (listable : world.Listable)
    (others : world.Meanwhile later) : later.Listable := by
  obtain ⟨writes, run⟩ := others
  obtain ⟨sound, minted⟩ :=
    database_run_minted run listable.sound listable.minted
  exact ⟨sound, minted⟩

theorem World.Listable.behaves {op : Op} {result : op.Result} {after : World}
    (listable : world.Listable) (behaves : world.Behaves op result after) :
    after.Listable := by
  rcases behaves.store_within with same | ⟨write, -, same⟩
  · exact ⟨same ▸ listable.sound, same ▸ listable.minted⟩
  · exact ⟨same ▸ write.sound listable.sound,
      same ▸ write.minted listable.sound.keyed listable.minted⟩

/-- What a sweep does between its visits. -/
theorem silent_sweepSafe {α : Type} {program : Call α}
    {post : α → World → List (Keyset.Visit ID) → Prop}
    {visits : List (Keyset.Visit ID)}
    (silent : program.Uses (Silent visit)) (listable : world.Listable)
    (same : history.filterMap visit = visits)
    (finished : ∀ result final, World.Listable final →
      post result final visits) :
    SweepSafe visit post program world history := by
  induction program generalizing world history with
  | done value =>
      rw [← same] at finished
      exact finished value world listable
  | call op next induction =>
      refine .traced fun {before result after} sweeping others behaves => ?_
      have kept := filterMap_snoc_none history (silent.1 before result after)
      rw [kept]
      exact ⟨sweeping, induction result (silent.2 result)
        ((listable.meanwhile others).behaves behaves) (kept.trans same)⟩

end Rules

theorem Op.OfVPCPass.silent {op : Op} (pass : op.OfVPCPass) :
    Silent PassEvent.vpcVisit op := by
  intro before result after
  cases op <;> first | rfl | exact pass.elim

namespace VPCController

theorem readPages_sweeps (pages : Nat) (afterID : ID) (wanted : List String)
    (vpcs : List VPC) {world : World} {history : List PassEvent}
    (listable : world.Listable)
    (steps : Keyset.Steps "" (history.filterMap PassEvent.vpcVisit)
      afterID) :
    SweepSafe PassEvent.vpcVisit (fun result final visits =>
        final.Listable ∧ ((∃ read, result = .ok read) →
          Keyset.Complete "" visits))
      (readPages pages afterID wanted vpcs) world history := by
  induction pages generalizing afterID wanted vpcs world history with
  | zero => exact ⟨listable, fun ⟨_, impossible⟩ => by cases impossible⟩
  | succ pages induction =>
      refine traced_invoke (.listVPCPage afterID)
        fun {before result after} sweeping others behaves => ?_
      have listable := listable.meanwhile others
      have serves := listable.sound.serves_vpcs listable.minted
      obtain ⟨read, rfl⟩ := behaves.listVPCPage
      obtain ⟨page, listed, ids⟩ := serves.fetches afterID 100
      obtain rfl := read.trans listed
      have visited : (history ++ [(⟨after, .listVPCPage afterID,
          .ok page, after⟩ : PassEvent)]).filterMap PassEvent.vpcVisit =
          history.filterMap PassEvent.vpcVisit ++
            [⟨after.store.vpcs.map VPC.id, page.map VPC.id⟩] :=
        filterMap_snoc_some history rfl
      obtain ⟨sweeping, ended, onward⟩ := sweeping.page steps serves.distinct
        (fun id member => (serves.minted id member).positive) ids
      refine ⟨visited ▸ sweeping, ?_⟩
      cases page with
      | nil => exact ⟨listable, fun _ => visited ▸ ended rfl⟩
      | cons first rest =>
          dsimp only
          split
          · exact ⟨listable, fun ⟨_, impossible⟩ => by cases impossible⟩
          · refine induction _ _ _ listable ?_
            rw [visited]
            refine onward _ ?_
            rw [List.getLast?_map, List.getLast?_eq_getLast_of_ne_nil]
            rfl

theorem sweep_sweeps (pages : Nat) {world : World}
    (listable : world.Listable) :
    SweepSafe PassEvent.vpcVisit Ends (sweep pages) world [] := by
  refine (readPages_sweeps pages "" [] [] listable .nil).bind .start
    fun {result traced} sweeping read => ?_
  obtain ⟨later, history⟩ := traced
  obtain ⟨listable, ended⟩ := read
  cases result with
  | error failure => exact fun impossible => by cases impossible
  | ok read =>
      change SweepSafe PassEvent.vpcVisit Ends _ later history
      refine silent_sweepSafe ?_ listable rfl
        fun _ _ _ _ => ended ⟨read, rfl⟩
      refine uses_external (Op.OfVPCPass.silent trivial)
        (Op.OfVPCPass.silent trivial) fun names => ?_
      split
      · trivial
      · refine ((removeOrphans_uses _ _).mono fun _ =>
          Op.OfVPCPass.silent).bind fun removed => ?_
        split
        · trivial
        · exact (reconcileAll_uses _).mono fun _ => Op.OfVPCPass.silent

end VPCController

theorem Op.OfInstancePass.silent {op : Op} (pass : op.OfInstancePass) :
    Silent PassEvent.instanceVisit op := by
  intro before result after
  cases op <;> first | rfl | exact pass.elim

namespace InstanceController

theorem sweep_sweeps (pages : Nat) (afterID : ID) {world : World}
    {history : List PassEvent} (listable : world.Listable)
    (steps : Keyset.Steps "" (history.filterMap PassEvent.instanceVisit)
      afterID) :
    SweepSafe PassEvent.instanceVisit Ends (sweep pages afterID) world
      history := by
  induction pages generalizing afterID world history with
  | zero => exact fun impossible => by cases impossible
  | succ pages induction =>
      refine traced_invoke (.listInstancePage afterID)
        fun {before result after} sweeping others behaves => ?_
      have listable := listable.meanwhile others
      have serves := listable.sound.serves_instances listable.minted
      obtain ⟨read, rfl⟩ := behaves.listInstancePage
      obtain ⟨page, listed, ids⟩ := serves.fetches afterID 100
      obtain rfl := read.trans listed
      have visited : (history ++ [(⟨after, .listInstancePage afterID,
          .ok page, after⟩ : PassEvent)]).filterMap PassEvent.instanceVisit =
          history.filterMap PassEvent.instanceVisit ++
            [⟨after.store.instances.map InstanceRow.id,
              page.map Instance.id⟩] :=
        filterMap_snoc_some history rfl
      obtain ⟨sweeping, ended, onward⟩ := sweeping.page steps serves.distinct
        (fun id member => (serves.minted id member).positive) ids
      have kept := visited ▸ sweeping
      refine ⟨kept, ?_⟩
      cases page with
      | nil => exact fun _ => visited ▸ ended rfl
      | cons first rest =>
          have pass : SweepSafe PassEvent.instanceVisit
              (fun _ final visits => final.Listable ∧ visits = _)
              (reconcilePage (first :: rest)) after _ :=
            silent_sweepSafe ((reconcilePage_uses (first :: rest)).mono
              fun _ => Op.OfInstancePass.silent) listable visited
              fun _ _ listable => ⟨listable, rfl⟩
          refine pass.bind kept fun {result traced} _ passed => ?_
          obtain ⟨later, history⟩ := traced
          obtain ⟨listable, same⟩ := passed
          cases result with
          | error failure => exact fun impossible => by cases impossible
          | ok _ =>
              refine induction _ listable ?_
              rw [same]
              refine onward _ ?_
              rw [List.getLast?_map, List.getLast?_eq_getLast_of_ne_nil]
              rfl

end InstanceController

/-- What a controller relies on when it walks through a table. -/
structure SweepsWell (visit : PassEvent → Option (Keyset.Visit ID))
    (world : World) (sweep : Pass) : Prop where
  bounded : ∀ {events rest}, accompanied.Executes sweep world events rest →
    ∀ page ∈ events.filterMap visit, page.page.length ≤ 100
  increasing : ∀ {events rest},
    accompanied.Executes sweep world events rest →
      (Keyset.read (events.filterMap visit)).Pairwise (· < ·)
  complete : ∀ {events}, accompanied.Executes sweep world events
      (.done (.ok ())) →
    ∀ id, (∀ page ∈ events.filterMap visit, id ∈ page.rows) →
      (Keyset.read (events.filterMap visit)).count id = 1
  ends : ∀ {events rest}, accompanied.Executes sweep world events rest →
    ∀ rows, (∀ page ∈ events.filterMap visit, page.rows ⊆ rows) →
      (events.filterMap visit).length ≤ rows.length + 1

theorem SweepSafe.sweepsWell {visit : PassEvent → Option (Keyset.Visit ID)}
    {world : World} {sweep : Pass}
    (safe : SweepSafe visit Ends sweep world []) :
    SweepsWell visit world sweep where
  bounded executes page member :=
    ((executes.safe safe .start).1.pages page member).size
  increasing executes := (executes.safe safe .start).1.increasing
  complete executes id stays := by
    obtain ⟨sweeping, done⟩ := executes.safe safe .start
    obtain ⟨final, ended⟩ := done _ rfl
    exact sweeping.count (ended rfl) stays
  ends executes rows within :=
    (executes.safe safe .start).1.length_le within

/-- The kinds of the three lists. -/
def listKinds : List String := ["vpc", "subnet", "instance"]

theorem listKinds_plain : ∀ kind ∈ listKinds, PlainKind kind := by
  unfold PlainKind
  decide

theorem listKinds_differ : ∀ kind ∈ listKinds, ∀ other ∈ listKinds,
    other ≠ kind → (Text.utf8 (other ++ ":")).head? ≠
      (Text.utf8 (kind ++ ":")).head? := by
  decide

/-- Page walks neither lose nor repeat a resource, whatever happens between
their requests. -/
theorem page_walks {stores : Nat → Store} {limits : Nat → Int}
    (reachable : ∀ index, database.Reachable (stores index))
    (valid : ∀ index, 0 ≤ limits index ∧ limits index ≤ 100) :
    WalksWell "vpc" VPC.id (fun store => store.vpcs.map VPC.id) listVPCs
        stores limits ∧
      WalksWell "subnet" Subnet.id (fun store => store.subnets.map Subnet.id)
        listSubnets stores limits ∧
      WalksWell "instance" Instance.id
        (fun store => store.instances.map InstanceRow.id) listInstances
        stores limits ∧
      (∀ kind ∈ listKinds, ∀ random id,
        newID (pageIDPrefix kind) random = .ok id →
          decodePageToken kind (encodePageToken kind id) = .ok id ∧
          ∀ other ∈ listKinds, other ≠ kind → ∃ failure,
            decodePageToken other (encodePageToken kind id) =
              .error failure) ∧
      ∀ world : World, database.Reachable world.store → ∀ pages,
        SweepsWell PassEvent.vpcVisit world (VPCController.sweep pages) ∧
        SweepsWell PassEvent.instanceVisit world
          (InstanceController.sweep pages "") := by
  have healthy (index : Nat) := database_reachable_minted (reachable index)
  refine ⟨Listing.vpcs.walksWell
      (fun index => (healthy index).1.serves_vpcs (healthy index).2)
      (listKinds_plain _ (by decide)) valid,
    Listing.subnets.walksWell
      (fun index => (healthy index).1.serves_subnets (healthy index).2)
      (listKinds_plain _ (by decide)) valid,
    Listing.instances.walksWell
      (fun index => (healthy index).1.serves_instances (healthy index).2)
      (listKinds_plain _ (by decide)) valid, ?_, ?_⟩
  · intro kind isKind random id drawn
    refine ⟨decodePageToken_encode (listKinds_plain kind isKind)
      (newID_minted drawn), fun other isOther different => ⟨_,
        decodePageToken_other (listKinds_differ kind isKind other isOther
          different)⟩⟩
  · intro world committed pages
    obtain ⟨sound, minted⟩ := database_reachable_minted committed
    exact ⟨(VPCController.sweep_sweeps pages ⟨sound, minted⟩).sweepsWell,
      (InstanceController.sweep_sweeps pages "" ⟨sound, minted⟩
        .nil).sweepsWell⟩

/-- Three VPCs are listed one by one, and another is created after the second
page. -/
theorem grownStore_walk :
    let id (digits : String) := "vpc-" ++ digits ++ "0010101010101010"
    let create (name : String) (byte : UInt8) : Write :=
      .createVPC { name, cidrBlock := "10.0.0.0/16" } ""
        (byte :: List.replicate 8 1) 0
    let early := [create "a" 0x10, create "b" 0x30, create "c" 0x50].foldl
      Write.apply .empty
    let late := Write.apply early (create "d" 0x40)
    ∃ pages, Follows listVPCs (fun index => if index < 2 then early else late)
        (fun _ => 1) 4 "" pages ∧
      pages.map (·.map VPC.id) = [[id "1"], [id "3"], [id "4"], [id "5"]] ∧
      (pages.flatten.map VPC.id).Pairwise (· < ·) ∧
      ∀ old ∈ early.vpcs.map VPC.id,
        (pages.flatten.map VPC.id).count old = 1 := by
  intro id create early late
  let token (digits : String) := encodePageToken "vpc" (id digits)
  let lists (store : Store) (cursor : String) :=
    (listVPCs store 1 cursor).toOption.map fun page =>
      (page.1.map VPC.id, page.2)
  have page {store : Store} {ids : List ID} {cursor following : String}
      (listed : lists store cursor = some (ids, following)) :
      ∃ items, items.map VPC.id = ids ∧
        listVPCs store 1 cursor = .ok (items, following) := by
    cases result : listVPCs store 1 cursor with
    | error failure =>
        rw [show lists store cursor = none by simp only [lists, result]; rfl]
          at listed
        cases listed
    | ok page =>
        simp only [lists, result] at listed
        cases listed
        exact ⟨page.1, rfl, rfl⟩
  have listed : lists early "" = some ([id "1"], token "1") ∧
      lists early (token "1") = some ([id "3"], token "3") ∧
      lists late (token "3") = some ([id "4"], token "4") ∧
      lists late (token "4") = some ([id "5"], "") ∧
      early.vpcs.map VPC.id ⊆ late.vpcs.map VPC.id := by
    decide +kernel
  obtain ⟨one, two, three, four, grows⟩ := listed
  obtain ⟨first, firstIDs, one⟩ := page one
  obtain ⟨second, secondIDs, two⟩ := page two
  obtain ⟨third, thirdIDs, three⟩ := page three
  obtain ⟨fourth, fourthIDs, four⟩ := page four
  have more (digits : String) : ∀ {requests : Nat},
      requests = 0 ∨ token digits ≠ "" := .inr (encodePageToken_ne_empty _ _)
  have reaches : database.Reachable early :=
    ⟨.empty, _, rfl, database_run _ _⟩
  have later : database.Reachable late := reaches.step rfl
  clear_value token early late
  have follows : Follows listVPCs
      (fun index => if index < 2 then early else late) (fun _ => 1) 4 ""
      [first, second, third, fourth] :=
    (((Follows.start.next (.inl rfl) one).next (more "1") two).next (more "3")
      three).next (more "4") four
  have reachable (index : Nat) :
      database.Reachable (if index < 2 then early else late) := by
    split
    · exact reaches
    · exact later
  have walks := (page_walks reachable
    (fun _ => show 0 ≤ (1 : Int) ∧ (1 : Int) ≤ 100 by decide)).1
  have increasing := walks.increasing follows
  have complete := walks.complete follows
  refine ⟨_, follows, ?_, increasing, fun old member =>
    complete old fun index _ => ?_⟩
  · simp only [List.map, firstIDs, secondIDs, thirdIDs, fourthIDs]
  · split
    · exact member
    · exact grows member

end Nephos
