import Nephos.Writes

/-!
# How rows evolve

A row keeps its identity, its place and its addresses for its whole life; a
deletion request is never taken back, and a runtime identity is never
replaced.  Since identities are not reused, two rows with one identity at
different times are the same resource.
-/

namespace Nephos

open Transaction Transition.System

structure VPC.Evolves (row later : VPC) : Prop where
  sameID : later.id = row.id
  cidrBlock : later.cidrBlock = row.cidrBlock
  shortIndex : later.shortIndex = row.shortIndex
  requested : row.deletionRequested = true → later.deletionRequested = true
  generation : later.deletionRequested = row.deletionRequested →
    later.generation = row.generation

structure Subnet.Evolves (row later : Subnet) : Prop where
  sameID : later.id = row.id
  vpcID : later.vpcID = row.vpcID
  cidrBlock : later.cidrBlock = row.cidrBlock
  shortIndex : later.shortIndex = row.shortIndex
  requested : row.deletionRequested = true → later.deletionRequested = true
  generation : later.deletionRequested = row.deletionRequested →
    later.generation = row.generation

structure InstanceRow.Evolves (row later : InstanceRow) : Prop where
  sameID : later.id = row.id
  subnetID : later.subnetID = row.subnetID
  shortIndex : later.shortIndex = row.shortIndex
  requested : row.deletionRequested = true → later.deletionRequested = true
  generation : later.deletionRequested = row.deletionRequested →
    later.generation = row.generation
  runtimeID : ∀ runtimeID, row.runtimeID = some runtimeID →
    later.runtimeID = some runtimeID

structure ENI.Evolves (row later : ENI) : Prop where
  sameID : later.id = row.id
  instanceID : later.instanceID = row.instanceID
  subnetID : later.subnetID = row.subnetID
  shortIndex : later.shortIndex = row.shortIndex
  privateIP : later.privateIP = row.privateIP
  macAddress : later.macAddress = row.macAddress

theorem VPC.Evolves.refl (row : VPC) : row.Evolves row :=
  ⟨rfl, rfl, rfl, fun held => held, fun _ => rfl⟩

theorem Subnet.Evolves.refl (row : Subnet) : row.Evolves row :=
  ⟨rfl, rfl, rfl, rfl, fun held => held, fun _ => rfl⟩

theorem InstanceRow.Evolves.refl (row : InstanceRow) : row.Evolves row :=
  ⟨rfl, rfl, rfl, fun held => held, fun _ => rfl, fun _ held => held⟩

theorem ENI.Evolves.refl (row : ENI) : row.Evolves row :=
  ⟨rfl, rfl, rfl, rfl, rfl, rfl⟩

/-- A flag that is never taken back is the same in between when it is the
same at both ends. -/
theorem flag_between {first middle last : Bool}
    (forward : first = true → middle = true)
    (onward : middle = true → last = true) (same : last = first) :
    last = middle ∧ middle = first := by
  cases first <;> cases middle <;> cases last <;> simp_all

theorem VPC.Evolves.trans {row middle later : VPC}
    (first : row.Evolves middle) (second : middle.Evolves later) :
    row.Evolves later where
  sameID := second.sameID.trans first.sameID
  cidrBlock := second.cidrBlock.trans first.cidrBlock
  shortIndex := second.shortIndex.trans first.shortIndex
  requested := second.requested ∘ first.requested
  generation same :=
    have between := flag_between first.requested second.requested same
    (second.generation between.1).trans (first.generation between.2)

theorem Subnet.Evolves.trans {row middle later : Subnet}
    (first : row.Evolves middle) (second : middle.Evolves later) :
    row.Evolves later where
  sameID := second.sameID.trans first.sameID
  vpcID := second.vpcID.trans first.vpcID
  cidrBlock := second.cidrBlock.trans first.cidrBlock
  shortIndex := second.shortIndex.trans first.shortIndex
  requested := second.requested ∘ first.requested
  generation same :=
    have between := flag_between first.requested second.requested same
    (second.generation between.1).trans (first.generation between.2)

theorem InstanceRow.Evolves.trans {row middle later : InstanceRow}
    (first : row.Evolves middle) (second : middle.Evolves later) :
    row.Evolves later where
  sameID := second.sameID.trans first.sameID
  subnetID := second.subnetID.trans first.subnetID
  shortIndex := second.shortIndex.trans first.shortIndex
  requested := second.requested ∘ first.requested
  generation same :=
    have between := flag_between first.requested second.requested same
    (second.generation between.1).trans (first.generation between.2)
  runtimeID runtimeID stored :=
    second.runtimeID runtimeID (first.runtimeID runtimeID stored)

theorem ENI.Evolves.trans {row middle later : ENI}
    (first : row.Evolves middle) (second : middle.Evolves later) :
    row.Evolves later where
  sameID := second.sameID.trans first.sameID
  instanceID := second.instanceID.trans first.instanceID
  subnetID := second.subnetID.trans first.subnetID
  shortIndex := second.shortIndex.trans first.shortIndex
  privateIP := second.privateIP.trans first.privateIP
  macAddress := second.macAddress.trans first.macAddress

/-- Every row of the new table has its identity from after the store, or
descends from a row of the old table. -/
def Descends {Row : Type} (store : Store) (identity : Row → ID)
    (related : Row → Row → Prop) (old new : List Row) : Prop :=
  ∀ later ∈ new, store.Unused (identity later) ∨
    ∃ row ∈ old, related row later

section Tables

variable {Row : Type} {store middle : Store} {identity : Row → ID}
  {related : Row → Row → Prop} {old between new : List Row}
  {row replacement : Row}

theorem Descends.same (refl : ∀ row, related row row) :
    Descends store identity related old old :=
  fun later member => .inr ⟨later, member, refl later⟩

theorem Descends.append (refl : ∀ row, related row row)
    (unused : store.Unused (identity row)) :
    Descends store identity related old (old ++ [row]) := by
  intro later member
  rcases List.mem_append.mp member with kept | added
  · exact .inr ⟨later, kept, refl later⟩
  · rw [List.mem_singleton.mp added]
    exact .inl unused

theorem Descends.replace (refl : ∀ row, related row row)
    (member : row ∈ old) (evolves : related row replacement)
    (same : identity replacement = identity row) :
    Descends store identity related old
      (replace identity replacement old) := by
  intro later inside
  rcases (mem_replace_iff member same).mp inside with rfl | ⟨kept, -⟩
  · exact .inr ⟨row, member, evolves⟩
  · exact .inr ⟨later, kept, refl later⟩

theorem Descends.remove (refl : ∀ row, related row row) {key : ID} :
    Descends store identity related old (remove identity key old) :=
  fun later member => .inr ⟨later, (mem_remove_iff.mp member).1, refl later⟩

theorem Descends.trans
    (trans : ∀ {first second third}, related first second →
      related second third → related first third)
    (sameID : ∀ {row later}, related row later →
      identity later = identity row)
    (grow : store.kernelIndexes ⊆ middle.kernelIndexes)
    (first : Descends store identity related old between)
    (second : Descends middle identity related between new) :
    Descends store identity related old new := by
  intro later member
  rcases second later member with unused | ⟨inner, innerMember, onward⟩
  · exact .inl fun index inside => unused index (grow inside)
  · rcases first inner innerMember with unused | ⟨row, rowMember, forward⟩
    · rw [← sameID onward] at unused
      exact .inl unused
    · exact .inr ⟨row, rowMember, trans forward onward⟩

end Tables

/-- The second database is a later one. -/
structure Store.Evolves (store final : Store) : Prop where
  indexes : store.kernelIndexes ⊆ final.kernelIndexes
  vpcs : Descends store VPC.id VPC.Evolves store.vpcs final.vpcs
  subnets : Descends store Subnet.id Subnet.Evolves store.subnets
    final.subnets
  instances : Descends store InstanceRow.id InstanceRow.Evolves
    store.instances final.instances
  enis : Descends store ENI.id ENI.Evolves store.enis final.enis

namespace Store.Evolves

variable {store middle final : Store}

theorem refl (store : Store) : store.Evolves store where
  indexes := fun _ => id
  vpcs := .same .refl
  subnets := .same .refl
  instances := .same .refl
  enis := .same .refl

theorem trans (first : store.Evolves middle) (second : middle.Evolves final) :
    store.Evolves final where
  indexes := fun _ member => second.indexes (first.indexes member)
  vpcs := first.vpcs.trans .trans (·.sameID) first.indexes second.vpcs
  subnets := first.subnets.trans .trans (·.sameID) first.indexes second.subnets
  instances :=
    first.instances.trans .trans (·.sameID) first.indexes second.instances
  enis := first.enis.trans .trans (·.sameID) first.indexes second.enis

/-- Rows with one identity are the same resource. -/
theorem descends_from {Row : Type} {kind : ResourceKind}
    {identity workspace : Row → ID} {index : Row → Int}
    {related : Row → Row → Prop} {old new : List Row}
    (table : Indexed kind identity workspace index old store.kernelIndexes)
    (descends : Descends store identity related old new)
    (sameID : ∀ {row later}, related row later →
      identity later = identity row)
    {row later : Row} (member : row ∈ old) (laterMember : later ∈ new)
    (same : identity later = identity row) : related row later := by
  rcases descends later laterMember with unused | ⟨source, inside, evolved⟩
  · rw [same] at unused
    exact absurd rfl (table.fresh unused row member)
  · have identical := table.unique.eq_of_mem inside member
      ((sameID evolved).symm.trans same)
    exact identical ▸ evolved

theorem vpc (evolves : store.Evolves final) (sound : store.Sound)
    {row later : VPC} (member : row ∈ store.vpcs)
    (laterMember : later ∈ final.vpcs) (same : later.id = row.id) :
    row.Evolves later :=
  descends_from sound.keyed.vpcs evolves.vpcs (·.sameID) member laterMember
    same

theorem subnet (evolves : store.Evolves final) (sound : store.Sound)
    {row later : Subnet} (member : row ∈ store.subnets)
    (laterMember : later ∈ final.subnets) (same : later.id = row.id) :
    row.Evolves later :=
  descends_from sound.keyed.subnets evolves.subnets (·.sameID) member
    laterMember same

theorem inst (evolves : store.Evolves final) (sound : store.Sound)
    {row later : InstanceRow} (member : row ∈ store.instances)
    (laterMember : later ∈ final.instances) (same : later.id = row.id) :
    row.Evolves later :=
  descends_from sound.keyed.instances evolves.instances (·.sameID) member
    laterMember same

theorem eni (evolves : store.Evolves final) (sound : store.Sound)
    {row later : ENI} (member : row ∈ store.enis)
    (laterMember : later ∈ final.enis) (same : later.id = row.id) :
    row.Evolves later :=
  descends_from sound.keyed.enis evolves.enis (·.sameID) member laterMember
    same

end Store.Evolves

theorem VPC.evolves_marked (row : VPC) (live : row.deletionRequested = false) :
    row.Evolves row.marked :=
  ⟨rfl, rfl, rfl, fun _ => rfl,
    fun same => absurd (live.symm.trans same.symm) Bool.false_ne_true⟩

theorem Subnet.evolves_marked (row : Subnet)
    (live : row.deletionRequested = false) : row.Evolves row.marked :=
  ⟨rfl, rfl, rfl, rfl, fun _ => rfl,
    fun same => absurd (live.symm.trans same.symm) Bool.false_ne_true⟩

theorem InstanceRow.evolves_marked (row : InstanceRow)
    (live : row.deletionRequested = false) : row.Evolves row.marked :=
  ⟨rfl, rfl, rfl, fun _ => rfl,
    fun same => absurd (live.symm.trans same.symm) Bool.false_ne_true,
    fun _ held => held⟩

theorem ENI.evolves_withStatus (row : ENI) (terminating : Bool)
    (reason : String) (observed : Bool) :
    row.Evolves (row.withStatus terminating reason observed) := by
  constructor <;> simp

/-- Every edit leads to a later database. -/
theorem Edit.Allowed.evolves {store : Store} {edit : Edit}
    (allowed : edit.Allowed store) : store.Evolves (edit.apply store) := by
  have unchanged := Store.Evolves.refl store
  cases allowed with
  | createVPC fresh block unused index =>
      exact { unchanged with
        indexes := List.subset_append_left _ _
        vpcs := .append .refl unused }
  | @markVPC row time member live childless =>
      exact { unchanged with
        vpcs := .replace .refl member (row.evolves_marked live) rfl }
  | vpcStatus member changes status =>
      exact { unchanged with
        vpcs := .replace .refl member
          ⟨rfl, rfl, rfl, id, fun _ => rfl⟩ rfl }
  | removeVPC member requested childless =>
      exact { unchanged with vpcs := .remove .refl }
  | createSubnet parent parentID parentLive fresh block range disjoint unused
      index =>
      exact { unchanged with
        indexes := List.subset_append_left _ _
        subnets := .append .refl unused }
  | @markSubnet row time member live childless =>
      exact { unchanged with
        subnets := .replace .refl member (row.evolves_marked live) rfl }
  | subnetStatus member changes status =>
      exact { unchanged with
        subnets := .replace .refl member
          ⟨rfl, rfl, rfl, rfl, id, fun _ => rfl⟩ rfl }
  | removeSubnet member requested =>
      exact { unchanged with subnets := .remove .refl }
  | createInstance parent parentID parentLive fresh eniFresh owner single
      eniSubnet lease is4 mac unused eniUnused distinct index eniIndex =>
      exact { unchanged with
        indexes := fun _ member => List.mem_append_left _
          (List.mem_append_left _ member)
        instances := .append .refl unused
        enis := .append .refl eniUnused }
  | @markInstance row time member live =>
      exact { unchanged with
        instances := .replace .refl member (row.evolves_marked live) rfl }
  | @instanceStatus row eni status reason observed time member eniMember owner
      changes accepted =>
      exact { unchanged with
        instances := .replace .refl member
          ⟨rfl, rfl, rfl, id, fun _ => rfl, fun _ => id⟩ rfl
        enis := .replace .refl eniMember
          (eni.evolves_withStatus row.deletionRequested reason observed)
          (by simp) }
  | removeInstance member eniMember owner requested =>
      exact { unchanged with
        instances := .remove .refl
        enis := .remove .refl }
  | @setRuntimeID row runtimeID member unset nonempty =>
      exact { unchanged with
        instances := .replace .refl member
          ⟨rfl, rfl, rfl, id, fun _ => rfl, fun other stored => by
            rw [unset] at stored
            cases stored⟩ rfl }
  | saveReplay workspace replaced => exact { unchanged with }

theorem edits_run_evolves {store final : Store} {labels : List Edit}
    (run : edits.Run store labels final) : store.Evolves final := by
  induction run with
  | nil state => exact .refl state
  | cons step _ induction =>
      exact (step.2 ▸ step.1.evolves : Store.Evolves _ _).trans induction

theorem Write.evolves {store : Store} (keyed : store.Keyed) (write : Write) :
    store.Evolves (write.apply store) := by
  obtain ⟨labels, run, -⟩ := write.edited keyed
  exact edits_run_evolves run

theorem database_run_evolves {store final : Store} {labels : List Write}
    (run : database.Run store labels final) (sound : store.Sound) :
    store.Evolves final ∧ final.Sound := by
  induction run with
  | nil state => exact ⟨.refl state, sound⟩
  | @cons state middle final write writes step _ induction =>
      obtain ⟨edited, first, -⟩ := write.edited sound.keyed
      rw [← step] at first
      obtain ⟨later, finalSound⟩ := induction (edits_run_sound first sound)
      exact ⟨(edits_run_evolves first).trans later, finalSound⟩

end Nephos
