import Nephos.Reconcile.Daemon
import Nephos.Evolution

/-!
# What the calls do

Each operation is described once, without its choices: what it does to the
database is a write, and what it does to the rest of the world depends on who
makes the call.  Later proofs know the operations only through this module.
-/

namespace Nephos

open Effects Transaction

/-- The edits that neither remove an instance nor give it a runtime
identity. -/
def Edit.Foreign : Edit → Prop
  | .removeInstance _ _ _ | .setRuntimeID _ _ => False
  | _ => True

/-- The writes that consist of such edits. -/
def Write.Foreign : Write → Prop
  | .recordRuntimeID _ _ _ | .retainTerminatingRuntimeID _ _
  | .finishInstanceTermination _ _ => False
  | _ => True

theorem Write.Makes.foreign {write : Write} {edit : Edit}
    (makes : write.Makes edit) (foreign : write.Foreign) : edit.Foreign := by
  cases edit with
  | removeInstance | setRuntimeID =>
      cases write <;> first | exact makes.elim | exact foreign.elim
  | _ => trivial

/-- A later database in which no instance has another runtime identity. -/
structure InstancesKept (store later : Store) : Prop where
  evolves : store.Evolves later
  source : ∀ row ∈ later.instances,
    store.Unused row.id ∧ row.runtimeID = none ∨
      ∃ old ∈ store.instances, old.Evolves row ∧
        row.runtimeID = old.runtimeID

namespace InstancesKept

variable {store middle later : Store}

theorem refl (store : Store) : InstancesKept store store where
  evolves := .refl store
  source row member := .inr ⟨row, member, .refl row, rfl⟩

theorem trans (first : InstancesKept store middle)
    (second : InstancesKept middle later) : InstancesKept store later where
  evolves := first.evolves.trans second.evolves
  source row member := by
    rcases second.source row member with
      ⟨unused, unset⟩ | ⟨between, inside, onward, same⟩
    · exact .inl ⟨fun index held => unused index
        (first.evolves.indexes held), unset⟩
    · rcases first.source between inside with
        ⟨unused, unset⟩ | ⟨old, origin, forward, before⟩
      · rw [← onward.sameID] at unused
        exact .inl ⟨unused, same.trans unset⟩
      · exact .inr ⟨old, origin, forward.trans onward, same.trans before⟩

end InstancesKept

/-- A later database in which no instance and no interface is gone. -/
structure RowsKept (store later : Store) : Prop where
  evolves : store.Evolves later
  instances : ∀ row ∈ store.instances, ∃ kept ∈ later.instances,
    kept.id = row.id
  enis : ∀ eni ∈ store.enis, ∃ kept ∈ later.enis, kept.id = eni.id

namespace RowsKept

variable {store middle later : Store}

theorem refl (store : Store) : RowsKept store store where
  evolves := .refl store
  instances row member := ⟨row, member, rfl⟩
  enis eni member := ⟨eni, member, rfl⟩

theorem trans (first : RowsKept store middle)
    (second : RowsKept middle later) : RowsKept store later where
  evolves := first.evolves.trans second.evolves
  instances row member := by
    obtain ⟨between, inside, sameID⟩ := first.instances row member
    obtain ⟨kept, last, again⟩ := second.instances between inside
    exact ⟨kept, last, again.trans sameID⟩
  enis eni member := by
    obtain ⟨between, inside, sameID⟩ := first.enis eni member
    obtain ⟨kept, last, again⟩ := second.enis between inside
    exact ⟨kept, last, again.trans sameID⟩

end RowsKept

/-- A later database in which no VPC is gone. -/
structure VPCsKept (store later : Store) : Prop where
  evolves : store.Evolves later
  present : ∀ vpc ∈ store.vpcs, ∃ kept ∈ later.vpcs, kept.id = vpc.id

namespace VPCsKept

variable {store middle later : Store}

theorem refl (store : Store) : VPCsKept store store :=
  ⟨.refl store, fun vpc member => ⟨vpc, member, rfl⟩⟩

theorem trans (first : VPCsKept store middle)
    (second : VPCsKept middle later) : VPCsKept store later where
  evolves := first.evolves.trans second.evolves
  present vpc member := by
    obtain ⟨between, inside, sameID⟩ := first.present vpc member
    obtain ⟨kept, last, again⟩ := second.present between inside
    exact ⟨kept, last, again.trans sameID⟩

end VPCsKept

theorem present_append {Row : Type} {column : Row → ID} {rows : List Row}
    (added : Row) : ∀ row ∈ rows, ∃ kept ∈ rows ++ [added],
      column kept = column row :=
  fun row member => ⟨row, List.mem_append_left _ member, rfl⟩

theorem present_replace {Row : Type} {column : Row → ID} {rows : List Row}
    {old replacement : Row} (member : old ∈ rows)
    (same : column replacement = column old) :
    ∀ row ∈ rows, ∃ kept ∈ replace column replacement rows,
      column kept = column row := by
  intro row inside
  by_cases hit : column row = column old
  · exact ⟨replacement, (mem_replace_iff member same).mpr (.inl rfl),
      same.trans hit.symm⟩
  · exact ⟨row, (mem_replace_iff member same).mpr (.inr ⟨inside, hit⟩), rfl⟩

section Edits

variable {store final : Store} {edit : Edit}

theorem Edit.Allowed.instancesKept (allowed : edit.Allowed store)
    (foreign : edit.Foreign) : InstancesKept store (edit.apply store) := by
  have same := InstancesKept.refl store
  have evolves := allowed.evolves
  cases allowed with
  | removeInstance | setRuntimeID => exact foreign.elim
  | @createInstance row eni subnet time parent parentID parentLive fresh
      eniFresh owner single eniSubnet lease is4 mac unused eniUnused distinct
      index eniIndex =>
      exact ⟨evolves, forall_append same.source
        (.inl ⟨unused, fresh.runtimeID⟩)⟩
  | @markInstance row time member live =>
      exact ⟨evolves, forall_replace member (by rfl) same.source
        (.inr ⟨row, member, row.evolves_marked live, rfl⟩)⟩
  | @instanceStatus row eni status reason observed time member =>
      exact ⟨evolves, forall_replace member (by rfl) same.source
        (.inr ⟨row, member,
          ⟨rfl, rfl, rfl, id, fun _ => rfl, fun _ => id⟩, rfl⟩)⟩
  | _ => exact { same with evolves }

theorem Edit.Allowed.rowsKept (allowed : edit.Allowed store)
    (kept : ∀ row eni time, edit ≠ .removeInstance row eni time) :
    RowsKept store (edit.apply store) := by
  have same := RowsKept.refl store
  have evolves := allowed.evolves
  cases allowed with
  | @createInstance row eni =>
      exact ⟨evolves, present_append row, present_append eni⟩
  | @markInstance row time member =>
      exact ⟨evolves, present_replace member (by rfl), same.enis⟩
  | @instanceStatus row eni status reason observed time member eniMember =>
      exact ⟨evolves, present_replace member (by rfl),
        present_replace eniMember (eni.withStatus_id ..)⟩
  | @setRuntimeID row runtimeID member =>
      exact ⟨evolves, present_replace member (by rfl), same.enis⟩
  | @removeInstance row eni time =>
      exact absurd rfl (kept row eni time)
  | _ => exact { same with evolves }

theorem Edit.Allowed.vpcsKept (allowed : edit.Allowed store)
    (kept : ∀ row time, edit ≠ .removeVPC row time) :
    VPCsKept store (edit.apply store) := by
  have same := VPCsKept.refl store
  have evolves := allowed.evolves
  cases allowed with
  | @createVPC row time fresh block unused index =>
      exact ⟨evolves, present_append row⟩
  | @markVPC row time member live childless =>
      exact ⟨evolves, present_replace member (by rfl)⟩
  | @vpcStatus row state reason succeeded time member changes status =>
      exact ⟨evolves, present_replace member (by rfl)⟩
  | @removeVPC row time member requested childless =>
      exact absurd rfl (kept row time)
  | _ => exact ⟨evolves, same.present⟩

theorem edits_run_instancesKept {labels : List Edit}
    (run : edits.Run store labels final)
    (foreign : ∀ edit ∈ labels, edit.Foreign) :
    InstancesKept store final := by
  induction run with
  | nil state => exact .refl state
  | cons step _ induction =>
      obtain ⟨allowed, rfl⟩ := step
      rw [List.forall_mem_cons] at foreign
      exact (allowed.instancesKept foreign.1).trans (induction foreign.2)

theorem edits_run_rowsKept {labels : List Edit}
    (run : edits.Run store labels final)
    (kept : ∀ row eni time, .removeInstance row eni time ∉ labels) :
    RowsKept store final := by
  induction run with
  | nil state => exact .refl state
  | cons step _ induction =>
      obtain ⟨allowed, rfl⟩ := step
      refine (allowed.rowsKept ?_).trans (induction ?_)
      · rintro row eni time rfl
        exact kept row eni time (List.mem_cons_self ..)
      · intro row eni time inside
        exact kept row eni time (List.mem_cons_of_mem _ inside)

theorem edits_run_vpcsKept {labels : List Edit}
    (run : edits.Run store labels final)
    (kept : ∀ row time, .removeVPC row time ∉ labels) :
    VPCsKept store final := by
  induction run with
  | nil state => exact .refl state
  | cons step _ induction =>
      obtain ⟨allowed, rfl⟩ := step
      refine (allowed.vpcsKept ?_).trans (induction ?_)
      · rintro row time rfl
        exact kept row time (List.mem_cons_self ..)
      · intro row time inside
        exact kept row time (List.mem_cons_of_mem _ inside)

/-- The writes that the VPC controller does not make. -/
def Write.Alien : Write → Prop
  | .recordTopology _ _ _ _ => False
  | _ => True

theorem Write.instancesKept (sound : store.Sound) {write : Write}
    (foreign : write.Foreign) : InstancesKept store (write.apply store) := by
  obtain ⟨labels, run, -, all⟩ := write.edited sound.keyed
  exact edits_run_instancesKept run
    (fun edit member => (all edit member).foreign foreign)

/-- Only the end of a termination removes an instance. -/
theorem Write.rowsKept (sound : store.Sound) {write : Write}
    (kept : ∀ snapshot now,
      write ≠ .finishInstanceTermination snapshot now) :
    RowsKept store (write.apply store) := by
  obtain ⟨labels, run, -, all⟩ := write.edited sound.keyed
  apply edits_run_rowsKept run
  intro row eni time member
  have makes := all _ member
  cases write <;> first | exact makes.elim | exact absurd rfl (kept _ _)

theorem Write.vpcsKept (sound : store.Sound) {write : Write}
    (alien : write.Alien) : VPCsKept store (write.apply store) := by
  obtain ⟨labels, run, -, all⟩ := write.edited sound.keyed
  apply edits_run_vpcsKept run
  intro row time member
  have makes := all _ member
  cases write <;> first | exact makes.elim | exact alien.elim

theorem Write.sound (sound : store.Sound) (write : Write) :
    (write.apply store).Sound := by
  obtain ⟨labels, run, -⟩ := write.edited sound.keyed
  exact edits_run_sound run sound

end Edits

/-- A request of the API is a write. -/
theorem Write.request_eq {store after : Store} {write : Write}
    {controller : Controller} {hints : List ID}
    (served : write.request store = some (controller, after, hints)) :
    after = write.apply store ∧ write.Foreign ∧ write.Alien := by
  cases write <;> simp only [request, apply, Option.some.injEq,
    Prod.mk.injEq, reduceCtorEq] at served ⊢ <;>
    exact ⟨served.2.1.symm, trivial, trivial⟩

end Nephos
