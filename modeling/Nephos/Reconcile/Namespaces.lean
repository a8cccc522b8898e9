import Nephos.Reconcile.Moves
import Nephos.Consistency
import Nephos.TextSpec

/-!
# Namespaces

The namespace of a VPC is named after the VPC's index.  An index is given
once, so a name says for ever whose namespace it is, and only the VPC
controller makes and removes namespaces.  A sweep reads the VPCs page by page
while others are created; what it misses has an index that no namespace was
named after when the sweep began.
-/

namespace Nephos

open Effects Transaction

theorem netnsName_ok {index : Int} {name : String}
    (named : netnsName index = .ok name) :
    1 ≤ index ∧ name = "nx-vpc-" ++ toString index := by
  unfold netnsName at named
  split at named
  · cases named
  · cases named
    exact ⟨by omega, rfl⟩

theorem netnsName_injective {left right : Int} {name : String}
    (first : netnsName left = .ok name)
    (second : netnsName right = .ok name) : left = right := by
  obtain ⟨leftPositive, rfl⟩ := netnsName_ok first
  obtain ⟨rightPositive, same⟩ := netnsName_ok second
  obtain ⟨leftNumber, rfl⟩ := Int.eq_ofNat_of_zero_le (by omega : 0 ≤ left)
  obtain ⟨rightNumber, rfl⟩ := Int.eq_ofNat_of_zero_le (by omega : 0 ≤ right)
  have chars := congrArg String.toList same
  rw [String.toList_append, String.toList_append,
    List.append_cancel_left_eq] at chars
  rw [Text.decimal_injective chars]

theorem ownedIndex_some {name : String} {index : Int}
    (owned : ownedIndex name = some index) : netnsName index = .ok name := by
  unfold ownedIndex at owned
  dsimp only at owned
  split at owned
  · split at owned
    · cases owned
    · rename_i parsed number
      split at owned
      · rename_i canonical named
        split at owned
        · rename_i same
          cases owned
          rw [named, same]
        · cases owned
      · cases owned
  · cases owned

/-- The index was given to some resource. -/
def Store.Given (store : Store) (index : Int) : Prop :=
  ∃ entry ∈ store.kernelIndexes, entry.id = index

namespace Store

variable {store later : Store} {index : Int}

theorem Given.kept (given : store.Given index)
    (evolves : store.Evolves later) : later.Given index := by
  obtain ⟨entry, member, same⟩ := given
  exact ⟨entry, evolves.indexes member, same⟩

theorem Keyed.given (keyed : store.Keyed) {vpc : VPC}
    (member : vpc ∈ store.vpcs) : store.Given vpc.shortIndex :=
  ⟨_, keyed.vpcs.allocated vpc member, rfl⟩

/-- A VPC whose index was given before is not new. -/
theorem Given.source (given : store.Given index) (keyed : later.Keyed)
    (evolves : store.Evolves later) {row : VPC} (member : row ∈ later.vpcs)
    (same : row.shortIndex = index) :
    ∃ old ∈ store.vpcs, old.Evolves row := by
  rcases evolves.vpcs row member with unused | old
  · obtain ⟨entry, before, sameIndex⟩ := given
    have identical := keyed.numbered.eq_of_mem (evolves.indexes before)
      (keyed.vpcs.allocated row member) (sameIndex.trans same.symm)
    exact absurd (congrArg KernelIndex.resourceID identical)
      (unused entry before)
  · exact old

/-- The index was given, and no VPC has it. -/
structure Free (store : Store) (index : Int) : Prop where
  given : store.Given index
  unheld : ∀ vpc ∈ store.vpcs, vpc.shortIndex ≠ index

theorem Free.kept (free : store.Free index) (keyed : later.Keyed)
    (evolves : store.Evolves later) : later.Free index where
  given := free.given.kept evolves
  unheld vpc member same := by
    obtain ⟨old, oldMember, evolved⟩ :=
      free.given.source keyed evolves member same
    exact free.unheld old oldMember (evolved.shortIndex.symm.trans same)

/-- The VPC is still in the database. -/
def Holds (store : Store) (vpc : VPC) : Prop :=
  ∃ row ∈ store.vpcs, vpc.Evolves row

theorem Holds.kept {vpc : VPC} (holds : store.Holds vpc)
    (sound : store.Sound) (kept : VPCsKept store later) :
    later.Holds vpc := by
  obtain ⟨row, member, evolves⟩ := holds
  obtain ⟨onward, inside, sameID⟩ := kept.present row member
  exact ⟨onward, inside, evolves.trans
    (kept.evolves.vpc sound member inside sameID)⟩

/-- The namespace with the index may go: a VPC with the index has a deletion
request.  The call names the VPC, or the namespace itself. -/
structure Vacant (store : Store) (id : ID) (index : Int) : Prop where
  requested : ∀ vpc ∈ store.vpcs, vpc.shortIndex = index →
    vpc.deletionRequested = true
  named : netnsName index = .ok id ∨
    ∃ vpc ∈ store.vpcs, vpc.id = id ∧ vpc.shortIndex = index

theorem Free.vacant {name : String} (free : store.Free index)
    (named : netnsName index = .ok name) : store.Vacant name index where
  requested vpc member same := absurd same (free.unheld vpc member)
  named := .inl named

theorem Holds.vacant {vpc : VPC} (holds : store.Holds vpc)
    (keyed : store.Keyed) (requested : vpc.deletionRequested = true) :
    store.Vacant vpc.id vpc.shortIndex := by
  obtain ⟨row, member, evolves⟩ := holds
  refine ⟨fun other otherMember same => ?_,
    .inr ⟨row, member, evolves.sameID, evolves.shortIndex⟩⟩
  rw [keyed.eq_of_index keyed.vpcs otherMember member
    (same.trans evolves.shortIndex.symm)]
  exact evolves.requested requested

/-- Nothing hangs on a VPC with a deletion request. -/
theorem Vacant.childless {id : ID} (vacant : store.Vacant id index)
    (sound : store.Sound) {subnet : Subnet} (member : subnet ∈ store.subnets)
    {vpc : VPC} (vpcMember : vpc ∈ store.vpcs) (owner : vpc.id = subnet.vpcID) :
    vpc.shortIndex ≠ index := by
  intro same
  obtain ⟨parent, parentMember, parentID, live, -⟩ :=
    sound.topology.subnetParent subnet member
  obtain rfl := sound.keyed.vpcs.unique.eq_of_mem parentMember vpcMember
    (parentID.trans owner.symm)
  rw [vacant.requested parent parentMember same] at live
  cases live

/-- The subnets were read from this database or an earlier one. -/
structure Recalls (store : Store) (subnets : List Subnet) : Prop where
  used : ∀ applied ∈ subnets, ¬ store.Unused applied.id
  blocks : ∀ row ∈ store.subnets, ∀ applied ∈ subnets,
    row.id = applied.id → row.cidrBlock = applied.cidrBlock

theorem Recalls.read {subnets : List Subnet} (keyed : store.Keyed)
    (members : ∀ subnet ∈ subnets, subnet ∈ store.subnets) :
    store.Recalls subnets where
  used applied member unused :=
    unused _ (keyed.subnets.allocated applied (members applied member)) rfl
  blocks row rowMember applied member same := by
    rw [keyed.subnets.unique.eq_of_mem rowMember (members applied member)
      same]

theorem Recalls.kept {subnets : List Subnet} (recalls : store.Recalls subnets)
    (evolves : store.Evolves later) : later.Recalls subnets where
  used applied member unused := recalls.used applied member
    fun entry inside => unused entry (evolves.indexes inside)
  blocks row rowMember applied member same := by
    rcases evolves.subnets row rowMember with unused | ⟨old, before, evolved⟩
    · rw [same] at unused
      exact absurd unused (recalls.used applied member)
    · rw [evolved.cidrBlock]
      exact recalls.blocks old before applied member
        (evolved.sameID.symm.trans same)

end Store

namespace World

/-- Every namespace with the name of an index belongs to a resource that was
given the index. -/
structure Plane (world : World) : Prop where
  sound : world.store.Sound
  given : ∀ name ∈ world.namespaces, ∀ index,
    netnsName index = .ok name → world.store.Given index

/-- What the others leave to the VPC controller. -/
structure VPCsSpared (world later : World) : Prop where
  store : VPCsKept world.store later.store
  namespaces : later.namespaces = world.namespaces
  gateways : later.gateways = world.gateways

/-- The kernel is as the snapshot wants it. -/
structure Reflects (world : World) (vpc : VPC) (subnets : List Subnet) :
    Prop where
  recalls : world.store.Recalls subnets
  gateways : vpc.deletionRequested = false → ∀ address,
    address ∈ world.gateways vpc.shortIndex ↔
      address ∈ (subnets.filter fun subnet =>
        !subnet.deletionRequested).map Subnet.gateway
  removed : vpc.deletionRequested = true →
    ∀ name, netnsName vpc.shortIndex = .ok name → name ∉ world.namespaces

/-- The names of the VPCs that a sweep has reached are wanted, unless no
namespace has them. -/
def Covers (world : World) (wanted : List String) (reached : ID → Prop) :
    Prop :=
  ∀ vpc ∈ world.store.vpcs, reached vpc.id →
    ∀ name ∈ world.namespaces, netnsName vpc.shortIndex = .ok name →
      name ∈ wanted

/-- What has to hold while the VPC controller waits for an operation. -/
def Permits (world : World) : Op → Prop
  | .act (.deleteVPC id index) | .answer (.deleteVPC id index) =>
      world.store.Vacant id index
  | .recordTopology vpc subnets none => world.Reflects vpc subnets
  | _ => True

variable {world later after : World}

theorem Plane.kept (plane : world.Plane) (sound : later.store.Sound)
    (evolves : world.store.Evolves later.store)
    (namespaces : ∀ name ∈ later.namespaces, name ∈ world.namespaces ∨
      ∃ index, netnsName index = .ok name ∧ world.store.Given index) :
    later.Plane where
  sound
  given name member index named := by
    refine Store.Given.kept ?_ evolves
    rcases namespaces name member with old | ⟨owner, ownName, given⟩
    · exact plane.given name old index named
    · rwa [netnsName_injective named ownName]

theorem SparesVPCs.spared (spares : world.SparesVPCs later)
    (sound : world.store.Sound) : world.VPCsSpared later :=
  ⟨spares.store.vpcsKept sound, spares.namespaces, spares.gateways⟩

theorem VPCsSpared.plane (spared : world.VPCsSpared later)
    (plane : world.Plane) (sound : later.store.Sound) : later.Plane :=
  plane.kept sound spared.store.evolves fun _ member =>
    .inl (spared.namespaces ▸ member)

theorem Reflects.kept {vpc : VPC} {subnets : List Subnet}
    (reflects : world.Reflects vpc subnets)
    (spared : world.VPCsSpared later) : later.Reflects vpc subnets where
  recalls := reflects.recalls.kept spared.store.evolves
  gateways := spared.gateways ▸ reflects.gateways
  removed := spared.namespaces ▸ reflects.removed

/-- A VPC that is created meanwhile has an index without a namespace. -/
theorem Covers.kept {wanted : List String} {reached : ID → Prop}
    (covers : world.Covers wanted reached) (plane : world.Plane)
    (laterPlane : later.Plane) (spared : world.VPCsSpared later) :
    later.Covers wanted reached := by
  intro vpc member hit name exists_ named
  rw [spared.namespaces] at exists_
  obtain ⟨old, oldMember, evolved⟩ :=
    (plane.given name exists_ _ named).source laterPlane.sound.keyed
      spared.store.evolves member rfl
  exact covers old oldMember (evolved.sameID ▸ hit) name exists_
    (evolved.shortIndex ▸ named)

theorem Plane.behaves {op : Op} {result : op.Result} (plane : world.Plane)
    (behaves : world.Behaves op result after) (ofVPC : op.OfVPC)
    (given : ∀ vpc subnets, op = .act (.ensureVPC vpc subnets) →
      world.store.Given vpc.shortIndex) : after.Plane := by
  have within := behaves.store_within
  refine plane.kept (within.sound plane.sound) (within.evolves plane.sound)
    ?_
  rcases behaves.store_or_surroundings.2 with ⟨call, rfl⟩ | same
  · cases call with
    | ensureVPC vpc subnets =>
        rcases behaves.ensureVPC with
          rfl | ⟨name, namespaces, addresses, named, added, rfl⟩
        · exact fun _ member => .inl member
        · intro other member
          refine (added other member).imp_right ?_
          rintro rfl
          exact ⟨_, named, given vpc subnets rfl⟩
    | deleteVPC =>
        obtain ⟨_, _, _, fewer, -, rfl⟩ := behaves.deleteVPC
        exact fun name member => .inl (fewer name member)
    | listVPCNames =>
        rw [behaves.idle trivial]
        exact fun _ member => .inl member
    | _ => exact ofVPC.elim
  · rw [same.namespaces]
    exact fun _ member => .inl member

end World

def planeContract : Contract Op Op.Result World where
  invariant := World.Plane
  change _ := World.VPCsSpared
  behaviour := World.Behaves
  outstanding op world := world.Permits op
  refl _ world := ⟨.refl world.store, rfl, rfl⟩
  trans first second :=
    ⟨first.store.trans second.store,
      second.namespaces.trans first.namespaces,
      second.gateways.trans first.gateways⟩

/-- The operations that the VPC controller can make at any time. -/
def Op.Plain : Op → Prop
  | .getVPC _ _ | .listSubnetsByVPC _ | .listVPCPage _ | .contextErr
  | .enqueue .vpc _ | .retry .vpc _ | .clearRetry .vpc _
  | .act .listVPCNames | .answer .listVPCNames => True
  | _ => False

theorem Op.Plain.harmless {op : Op} (plain : op.Plain) :
    planeContract.Harmless op := by
  intro world plane
  refine ⟨?_, fun result after behaves => plane.behaves behaves ?_ ?_⟩
  · cases op with
    | act call | answer call => cases call <;> trivial
    | _ => trivial
  · cases op with
    | act call | answer call => cases call <;> trivial
    | enqueue controller | retry controller | clearRetry controller =>
        cases controller <;> trivial
    | _ => trivial
  · rintro vpc subnets rfl
    exact plain.elim

theorem plain_planeSafe {α : Type} {program : Call α} {world : World}
    (uses : program.Uses Op.Plain) :
    planeContract.Keeps program world :=
  .uses (uses.mono fun _ => Op.Plain.harmless)

namespace VPCController

variable {world : World}

theorem record_planeSafe {vpc : VPC} {subnets : List Subnet}
    {effectErr : Option String}
    (reflects : effectErr = none → world.Reflects vpc subnets) :
    planeContract.Keeps (record vpc subnets effectErr) world := by
  refine safe_invoke fun {later} plane spared =>
    ⟨trivial, fun {result after} behaves => ?_⟩
  obtain rfl := behaves.contextErr
  refine ⟨plane, ?_⟩
  cases result with
  | true => trivial
  | false =>
      refine safe_invoke fun {recording} recordingPlane more =>
        ⟨?_, fun {result after} behaves => ?_⟩
      · cases effectErr with
        | none => exact ((reflects rfl).kept spared).kept more
        | some cause => trivial
      · refine ⟨recordingPlane.behaves behaves trivial nofun, ?_⟩
        apply plain_planeSafe
        split
        · exact uses_invoke trivial fun _ => trivial
        · trivial
        · split <;> exact uses_invoke trivial fun _ => trivial

/-- The deletion of the namespace of a VPC with a deletion request. -/
theorem deleteVPC_planeSafe {vpc : VPC} (holds : world.store.Holds vpc)
    (plane : world.Plane) (requested : vpc.deletionRequested = true) :
    planeContract.Keeps
      (external (.deleteVPC vpc.id vpc.shortIndex) >>= fun result =>
        record vpc [] (effectError result)) world := by
  rw [external_bind]
  refine .wait fun {acting} actingPlane spared => ?_
  have still := holds.kept plane.sound spared.store
  refine ⟨still.vacant actingPlane.sound.keyed requested,
    fun {result after} behaves =>
      ⟨actingPlane.behaves behaves trivial nofun, ?_⟩⟩
  have sameStore := behaves.act_store
  refine .wait fun {answering} answeringPlane more => ?_
  have last := still.kept actingPlane.sound (sameStore ▸ more.store)
  refine ⟨last.vacant answeringPlane.sound.keyed requested,
    fun {result after} behaves => ?_⟩
  obtain ⟨rfl, -⟩ := behaves.answer
  refine ⟨answeringPlane, record_planeSafe fun succeeded => ?_⟩
  cases result with
  | error cause => cases succeeded
  | ok value =>
      exact
        { recalls := .read answeringPlane.sound.keyed
            fun _ member => by cases member
          gateways := fun live => by rw [requested] at live; cases live
          removed := fun _ => behaves.deletedVPC }

/-- The setup of the namespace of a live VPC. -/
theorem ensureVPC_planeSafe {vpc : VPC} {subnets : List Subnet}
    (given : world.store.Given vpc.shortIndex)
    (recalls : world.store.Recalls subnets)
    (live : vpc.deletionRequested = false) :
    planeContract.Keeps
      (external (.ensureVPC vpc (subnets.filter fun subnet =>
          !subnet.deletionRequested)) >>= fun result =>
        record vpc subnets (effectError result)) world := by
  rw [external_bind]
  refine .wait fun {acting} actingPlane spared => ⟨trivial,
    fun {result after} behaves => ⟨actingPlane.behaves behaves trivial ?_,
      ?_⟩⟩
  · rintro _ _ ⟨⟩
    exact given.kept spared.store.evolves
  have recalled := recalls.kept spared.store.evolves
  rw [← behaves.act_store] at recalled
  refine .wait fun {answering} answeringPlane more =>
    ⟨trivial, fun {result after} behaves => ?_⟩
  obtain ⟨rfl, -⟩ := behaves.answer
  refine ⟨answeringPlane, record_planeSafe fun succeeded => ?_⟩
  cases result with
  | error cause => cases succeeded
  | ok value =>
      exact
        { recalls := recalled.kept more.store.evolves
          gateways := fun _ => behaves.ensuredVPC
          removed := fun requested => by rw [live] at requested; cases requested }

theorem reconcileLocked_planeSafe (id : ID) (world : World) :
    planeContract.Keeps (reconcileLocked id) world := by
  refine safe_invoke fun {reading} readingPlane _ =>
    ⟨trivial, fun {result after} behaves => ?_⟩
  obtain ⟨rfl, rfl⟩ := behaves.getVPC
  refine ⟨readingPlane, ?_⟩
  split
  · exact plain_planeSafe (uses_invoke trivial fun _ => trivial)
  · trivial
  · rename_i vpc found
    obtain ⟨member, -, -⟩ := Store.getVPC_ok found
    have holds : after.store.Holds vpc := ⟨vpc, member, .refl vpc⟩
    refine safe_invoke fun {listing} listingPlane spared =>
      ⟨trivial, fun {result last} behaves => ?_⟩
    obtain ⟨rfl, rfl⟩ := behaves.listSubnetsByVPC
    refine ⟨listingPlane, ?_⟩
    split
    · trivial
    · rename_i subnets listed
      split
      · rename_i requested
        split
        · trivial
        · rename_i childless
          rw [not_not] at childless
          subst childless
          exact deleteVPC_planeSafe
            (holds.kept readingPlane.sound spared.store) listingPlane requested
      · rename_i live
        exact ensureVPC_planeSafe
          ((readingPlane.sound.keyed.given member).kept spared.store.evolves)
          (.read listingPlane.sound.keyed fun subnet inside =>
            ((Store.mem_listSubnetsByVPC listed).mp inside).1)
          (Bool.eq_false_iff.mpr live)

theorem reconcileAll_planeSafe (vpcs : List VPC) {world : World}
    (plane : world.Plane) :
    planeContract.Keeps (reconcileAll vpcs) world := by
  induction vpcs generalizing world with
  | nil => trivial
  | cons vpc vpcs induction =>
      refine (reconcileLocked_planeSafe vpc.id world).bind plane
        fun {result later} plane _ => ?_
      split
      · trivial
      · exact induction plane

theorem removeOrphans_planeSafe (wanted names : List String) {world : World}
    (plane : world.Plane)
    (orphans : ∀ name ∈ names, name ∉ wanted → ∀ index,
      netnsName index = .ok name → world.store.Free index) :
    planeContract.Keeps (removeOrphans wanted names) world := by
  induction names generalizing world with
  | nil => trivial
  | cons name names induction =>
      rw [List.forall_mem_cons] at orphans
      rw [removeOrphans]
      split
      · exact induction plane orphans.2
      · rename_i unwanted
        split
        · exact induction plane orphans.2
        · rename_i index owned
          have named := ownedIndex_some owned
          have free := orphans.1 unwanted index named
          rw [external_bind]
          refine .wait fun {acting} actingPlane spared => ?_
          have still := free.kept actingPlane.sound.keyed spared.store.evolves
          refine ⟨still.vacant named, fun {result after} behaves =>
            ⟨actingPlane.behaves behaves trivial ?_, ?_⟩⟩
          · intro vpc subnets same
            cases same
          have sameStore := behaves.act_store
          refine .wait fun {answering} answeringPlane more => ?_
          have onward := spared.store.evolves.trans
            (sameStore ▸ more.store.evolves)
          refine ⟨(free.kept answeringPlane.sound.keyed onward).vacant named,
            fun {result after} behaves => ?_⟩
          obtain ⟨rfl, -⟩ := behaves.answer
          refine ⟨answeringPlane, ?_⟩
          split
          · trivial
          · exact induction answeringPlane fun other inside unwanted index
              named => (orphans.2 other inside unwanted index named).kept
                answeringPlane.sound.keyed onward

theorem sweepName_ok_iff {vpc : VPC} {name : String} :
    sweepName vpc = .ok name ↔ netnsName vpc.shortIndex = .ok name := by
  unfold sweepName
  cases netnsName vpc.shortIndex <;> simp [Except.mapError]

theorem mem_netnsNames {vpcs : List VPC} {names : List String}
    (named : vpcs.mapM sweepName = .ok names)
    {vpc : VPC} (member : vpc ∈ vpcs) {name : String}
    (own : netnsName vpc.shortIndex = .ok name) : name ∈ names := by
  induction vpcs generalizing names with
  | nil => cases member
  | cons first vpcs induction =>
      simp only [List.mapM_cons, except_bind_ok_iff] at named
      obtain ⟨head, headNamed, rest, restNamed, shape⟩ := named
      cases shape
      rcases List.mem_cons.mp member with rfl | inside
      · rw [sweepName_ok_iff.mpr own] at headNamed
        cases headNamed
        exact List.mem_cons_self
      · exact List.mem_cons_of_mem _ (induction restNamed inside)

/-- A page more is covered. -/
theorem covers_page {world : World} {afterID : ID} {wanted names : List String}
    {first : VPC} {rest : List VPC} (plane : world.Plane)
    (covers : world.Covers wanted (· ≤ afterID))
    (listed : world.store.listVPCPage defaultWorkspace afterID 100 =
      .ok (first :: rest))
    (named : (first :: rest).mapM sweepName = .ok names) :
    world.Covers (wanted ++ names)
      (· ≤ ((first :: rest).getLast (by simp)).id) := by
  intro vpc member reached name present own
  by_cases before : vpc.id ≤ afterID
  · exact List.mem_append_left _ (covers vpc member before name present own)
  · obtain ⟨last, isLast, onPage | beyond⟩ :=
      Store.listVPCPage_reaches plane.sound.keyed (by decide) listed member
        (not_le.mp before)
    · exact List.mem_append_right _ (mem_netnsNames named onPage own)
    · rw [List.getLast?_eq_some_getLast (by simp), Option.some.injEq] at isLast
      exact absurd (isLast ▸ reached) (not_le.mpr beyond)

/-- A sweep reads on until it has seen every VPC with a namespace. -/
theorem readPages_planeSafe (pages : Nat) (afterID : ID)
    (wanted : List String) (vpcs : List VPC) {world : World}
    (plane : world.Plane) (covers : world.Covers wanted (· ≤ afterID)) :
    planeContract.Safe (fun result world => ∀ wanted vpcs,
        result = .ok (wanted, vpcs) → world.Covers wanted fun _ => True)
      (readPages pages afterID wanted vpcs) world := by
  induction pages generalizing afterID wanted vpcs world with
  | zero =>
      rintro _ _ ⟨⟩
  | succ pages induction =>
      refine safe_invoke fun {reading} readingPlane spared =>
        ⟨trivial, fun {result after} behaves => ?_⟩
      obtain ⟨listed, rfl⟩ := behaves.listVPCPage
      have covered := covers.kept plane readingPlane spared
      refine ⟨readingPlane, ?_⟩
      split
      · rintro _ _ ⟨⟩
      · rintro _ _ ⟨⟩
        intro vpc member _ name present own
        apply covered vpc member _ name present own
        by_contra beyond
        obtain ⟨last, isLast, -⟩ := Store.listVPCPage_reaches
          readingPlane.sound.keyed (by decide) listed.symm member
          (not_le.mp beyond)
        cases isLast
      · split
        · rintro _ _ ⟨⟩
        · rename_i names named
          exact induction _ _ _ readingPlane
            (covers_page readingPlane covered listed.symm named)

theorem sweep_planeSafe (pages : Nat) {world : World} (plane : world.Plane) :
    planeContract.Keeps (sweep pages) world := by
  have start : world.Covers [] (· ≤ "") := by
    intro vpc member reached
    exact absurd (Text.eq_empty_of_le reached)
      (plane.sound.topology.vpcIdentified vpc member)
  refine (readPages_planeSafe pages "" [] [] plane start).bind plane
    fun {result read} readPlane covers => ?_
  split
  · trivial
  · rename_i wanted vpcs
    have covered := covers wanted vpcs rfl
    rw [external_bind]
    refine .wait fun {acting} actingPlane spared =>
      ⟨trivial, fun {result after} behaves => ?_⟩
    obtain rfl := behaves.idle trivial
    have actingCovered := covered.kept readPlane actingPlane spared
    refine ⟨actingPlane, .wait fun {answering} answeringPlane more =>
      ⟨trivial, fun {result final} behaves => ?_⟩⟩
    have answeringCovered :=
      actingCovered.kept actingPlane answeringPlane more
    obtain ⟨rfl, -⟩ := behaves.answer
    refine ⟨answeringPlane, ?_⟩
    split
    · trivial
    · rename_i names
      have listed := behaves.listed
      refine (removeOrphans_planeSafe wanted names answeringPlane ?_).bind
        answeringPlane fun {result later} plane _ => ?_
      · intro name inside unwanted index named
        have present := listed name inside
        refine ⟨answeringPlane.given name present index named, ?_⟩
        rintro vpc member rfl
        exact unwanted
          (answeringCovered vpc member trivial name present named)
      · split
        · trivial
        · exact reconcileAll_planeSafe vpcs plane

end VPCController

theorem VPCPass.planeSafe {pass : Pass} (isPass : VPCPass pass)
    {world : World} (plane : world.Plane) :
    planeContract.Keeps pass world := by
  cases isPass with
  | reconcile id => exact VPCController.reconcileLocked_planeSafe id world
  | sweep pages => exact VPCController.sweep_planeSafe pages plane

structure Daemon.PlaneSafe (daemon : Daemon) : Prop where
  plane : daemon.world.Plane
  vpcWork : ∀ thread ∈ daemon.vpcWork,
    planeContract.Keeps thread daemon.world

namespace Daemon.PlaneSafe

variable {daemon next : Daemon} {after : World}

theorem initial {namespaces : List String}
    (foreign : ∀ name ∈ namespaces, ∀ index, netnsName index ≠ .ok name) :
    (Daemon.initial namespaces).PlaneSafe where
  plane := ⟨(Formed.initial namespaces).sound,
    fun name member index named => absurd named (foreign name member index)⟩
  vpcWork _ working := by cases working

/-- A move of a party other than the VPC controller. -/
theorem aside (safe : daemon.PlaneSafe)
    (spares : daemon.world.SparesVPCs after) :
    Daemon.PlaneSafe { daemon with world := after } := by
  have spared := spares.spared safe.plane.sound
  exact
    { plane := spared.plane safe.plane (spares.store.sound safe.plane.sound)
      vpcWork := fun thread working =>
        (safe.vpcWork thread working).persist fun _ _ => spared }

theorem step {label : Label} (safe : daemon.PlaneSafe)
    (formed : daemon.Formed) (moves : daemon.Moves label next) :
    next.PlaneSafe := by
  cases moves with
  | environment changes => exact safe.aside changes.sparesVPCs
  | beginInstance change idle isPass =>
      exact { safe.aside (.onQueue daemon.world .inst change) with }
  | beginVPC change idle isPass =>
      have aside := safe.aside (.onQueue daemon.world .vpc change)
      refine { aside with vpcWork := ?_ }
      rintro _ ⟨⟩
      exact isPass.planeSafe aside.plane
  | plumb working starting => exact { safe with }
  | instanceDone working => exact { safe with }
  | @instanceCall choice op next result after working hooked runs =>
      have behaves : World.Behaves _ op result after := ⟨choice, runs⟩
      exact { safe.aside
        (behaves.sparesVPCs (formed.instanceWork _ working).1) with }
  | vpcDone working =>
      refine { safe with vpcWork := ?_ }
      rintro _ ⟨⟩
  | @vpcCall choice op next result after working runs =>
      have behaves : World.Behaves _ op result after := ⟨choice, runs⟩
      obtain ⟨plane, thread⟩ :=
        (safe.vpcWork _ working).complete safe.plane behaves
      refine ⟨plane, ?_⟩
      rintro _ ⟨⟩
      exact thread
  | plumbDone working => exact { safe with }
  | @plumbCall index choice front back op next result after working runs =>
      have behaves : World.Behaves _ op result after := ⟨choice, runs⟩
      have uses := formed.plumbing (.call op next) (by simp [working])
      obtain ⟨links, rfl, -⟩ := behaves.plumbs uses.1
      have spares : daemon.world.SparesVPCs { daemon.world with links } :=
        ⟨.inl rfl, rfl, rfl⟩
      exact { safe.aside spares with }
  | crash =>
      exact ⟨⟨safe.plane.sound, safe.plane.given⟩,
        fun _ working => by cases working⟩

theorem of_reachable (reachable : system.Reachable daemon) :
    daemon.Formed ∧ daemon.PlaneSafe := by
  apply reachable.invariant (fun daemon => daemon.Formed ∧ daemon.PlaneSafe)
  · rintro daemon ⟨namespaces, foreign, rfl⟩
    exact ⟨.initial namespaces, .initial foreign⟩
  · rintro daemon label next ⟨formed, safe⟩ stepped
    have moves := Moves.of_step stepped
    exact ⟨formed.step moves, safe.step formed moves⟩

theorem permits (safe : daemon.PlaneSafe) {thread : Pass} {op : Op}
    (working : thread ∈ daemon.vpcWork)
    (waits : thread.outstanding = some op) : daemon.world.Permits op := by
  have thread := safe.vpcWork _ working
  cases ‹Pass› with
  | done value => cases waits
  | call other next =>
      cases waits
      exact thread.ready safe.plane

end Daemon.PlaneSafe

/-- The subnet belongs to a VPC with the index. -/
def Store.InVPC (store : Store) (subnetID : ID) (index : Int) : Prop :=
  ∃ subnet ∈ store.subnets, subnet.id = subnetID ∧
    ∃ vpc ∈ store.vpcs, vpc.id = subnet.vpcID ∧ vpc.shortIndex = index

/-- While the engine is asked to delete the namespace of an index, no live
VPC and nothing below a VPC has the index; and a namespace that is deleted for
want of a VPC has a canonical name. -/
theorem system_namespaces_unused {daemon : Daemon} {id : ID} {index : Int}
    (reachable : system.Reachable daemon)
    (awaits : daemon.Awaits (.act (.deleteVPC id index)) ∨
      daemon.Awaits (.answer (.deleteVPC id index))) :
    (∀ vpc ∈ daemon.world.store.vpcs, vpc.shortIndex = index →
      vpc.deletionRequested = true) ∧
    (∀ subnet ∈ daemon.world.store.subnets,
      ¬ daemon.world.store.InVPC subnet.id index) ∧
    (∀ row ∈ daemon.world.store.instances,
      ¬ daemon.world.store.InVPC row.subnetID index) ∧
    (∀ eni ∈ daemon.world.store.enis,
      ¬ daemon.world.store.InVPC eni.subnetID index) ∧
    (netnsName index = .ok id ∨
      ∃ vpc ∈ daemon.world.store.vpcs, vpc.id = id ∧
        vpc.shortIndex = index) := by
  obtain ⟨formed, safe⟩ := Daemon.PlaneSafe.of_reachable reachable
  have vacant : daemon.world.store.Vacant id index := by
    rcases awaits with acts | answers
    · obtain ⟨thread, working, waits⟩ := formed.awaits_vpc acts
        (fun inside => inside.elim) fun inside => inside.elim
      exact safe.permits working waits
    · obtain ⟨thread, working, waits⟩ := formed.awaits_vpc answers
        (fun inside => inside.elim) fun inside => inside.elim
      exact safe.permits working waits
  have nothing (subnetID : ID) :
      ¬ daemon.world.store.InVPC subnetID index := by
    rintro ⟨subnet, member, -, vpc, vpcMember, owner, same⟩
    exact vacant.childless safe.plane.sound member vpcMember owner same
  exact ⟨vacant.requested, fun _ _ => nothing _, fun _ _ => nothing _,
    fun _ _ => nothing _, vacant.named⟩

/-- A VPC without subnets is set up.  A sweep reads its page; then the VPC is
asked to be deleted, and another is created whose identity comes before the
page.  The orphan pass finds the namespace wanted, and the sweep goes on to
the VPC. -/
def firstSweep : List Label :=
  (firstRequests.take 1).map .serve ++
    [ .reconcileVPC "vpc-01010101010101010", .vpcStep .plain,
      .vpcStep .plain, .vpcStep (.gateways []), .vpcStep .succeeds,
      .vpcStep .plain, .vpcStep (.clock 1), .vpcStep .plain,
      .vpcStep .plain, .sweepVPCs 2, .vpcStep .plain,
      .serve (.deleteVPC "vpc-01010101010101010" 2),
      .serve (.createVPC { name := "next", cidrBlock := "10.0.0.0/16" } ""
        (List.replicate 9 0) 2),
      .vpcStep .plain, .vpcStep .plain, .vpcStep (.names ["nx-vpc-1"]),
      .vpcStep .plain, .vpcStep .plain ]

/-- The operation deletes the namespace of the VPC. -/
def Op.deletes (id : ID) (index : Int) : Op → Bool
  | .act (.deleteVPC other given) => decide (other = id ∧ given = index)
  | _ => false

theorem Op.eq_of_deletes {id : ID} {index : Int} {op : Op}
    (deletes : op.deletes id index = true) :
    op = .act (.deleteVPC id index) := by
  unfold Op.deletes at deletes
  split at deletes
  · obtain ⟨rfl, rfl⟩ := of_decide_eq_true deletes
    rfl
  · cases deletes

theorem firstSweep_namespaces_unused :
    ∃ daemon, (Daemon.initial []).run firstSweep = some daemon ∧
      daemon.Awaits (.act (.deleteVPC "vpc-01010101010101010" 1)) ∧
      daemon.world.namespaces = ["nx-vpc-1"] ∧
      (daemon.world.store.vpcs.map fun vpc => (vpc.shortIndex,
        vpc.deletionRequested)) = [(1, true), (2, false)] ∧
      ∀ vpc ∈ daemon.world.store.vpcs, vpc.shortIndex = 1 →
        vpc.deletionRequested = true := by
  have runs : ((Daemon.initial []).run firstSweep).any (fun daemon =>
      (daemon.vpcWork.any fun thread => thread.outstanding.any
        (Op.deletes "vpc-01010101010101010" 1)) &&
      decide (daemon.world.namespaces = ["nx-vpc-1"] ∧
        (daemon.world.store.vpcs.map fun vpc => (vpc.shortIndex,
          vpc.deletionRequested)) = [(1, true), (2, false)])) = true := by
    decide +kernel
  obtain ⟨daemon, ran, checked⟩ := (Option.any_eq_true _ _).mp runs
  rw [Bool.and_eq_true, decide_eq_true_iff] at checked
  obtain ⟨works, namespaces, vpcs⟩ := checked
  obtain ⟨thread, working, checked⟩ := (Option.any_eq_true _ _).mp works
  have awaits : daemon.Awaits
      (.act (.deleteVPC "vpc-01010101010101010" 1)) := by
    obtain ⟨op, waits, deletes⟩ := (Option.any_eq_true _ _).mp checked
    rw [Op.eq_of_deletes deletes] at waits
    exact .inr (.inl ⟨thread, working, waits⟩)
  exact ⟨daemon, ran, awaits, namespaces, vpcs,
    (system_namespaces_unused (Daemon.run_reachable ran) (.inl awaits)).1⟩

end Nephos
