import Nephos.Reconcile.Passes

/-!
# Passes among the services

A pass of the instance controller holds the controller's lock, so that the
transactions between its own are those of the services and of the VPC
controller.  They neither remove an instance nor name its container.
-/

namespace Nephos

open Effects Transaction

/-- The writes of the services and of the VPC controller. -/
def Write.Outside : Write → Prop
  | .recordRuntimeID _ _ _ | .retainTerminatingRuntimeID _ _
  | .recordInstance _ _ _ _ _ | .finishInstanceTermination _ _ => False
  | _ => True

theorem Write.Outside.foreign {write : Write} (outside : write.Outside) :
    write.Foreign := by
  cases write <;> trivial

/-- The others write to the database in between. -/
def World.Served (world later : World) : Prop :=
  ∃ writes, database.Run world.store writes later.store ∧
    ∀ write ∈ writes, write.Outside

/-- A pass of the instance controller among the services. -/
def served : Setting Op Op.Result World where
  others := World.Served
  behaviour := World.Behaves
  refl world := ⟨[], .nil world.store, fun _ member => by cases member⟩
  trans first second := by
    obtain ⟨front, run, frontOutside⟩ := first
    obtain ⟨back, onward, backOutside⟩ := second
    refine ⟨front ++ back, run.append onward, fun write member => ?_⟩
    rcases List.mem_append.mp member with inFront | inBack
    · exact frontOutside write inFront
    · exact backOutside write inBack

/-- The instances are the same up to their states and deletion requests. -/
structure InstancesServed (store later : Store) : Prop where
  instances : InstancesKept store later
  rows : RowsKept store later
  sound : later.Sound

theorem database_run_served {store later : Store} {writes : List Write}
    (run : database.Run store writes later)
    (outside : ∀ write ∈ writes, write.Outside) (sound : store.Sound) :
    InstancesServed store later := by
  induction run with
  | nil store => exact ⟨.refl store, .refl store, sound⟩
  | @cons store middle later write writes step _ induction =>
      rw [List.forall_mem_cons] at outside
      obtain rfl := step
      have instances := write.instancesKept sound outside.1.foreign
      have rows : RowsKept store (write.apply store) := by
        apply write.rowsKept sound
        rintro snapshot now rfl
        exact outside.1
      have onward := induction outside.2 (write.sound sound)
      exact ⟨instances.trans onward.instances, rows.trans onward.rows,
        onward.sound⟩

theorem World.Served.kept {world later : World}
    (others : world.Served later) (sound : world.store.Sound) :
    InstancesServed world.store later.store := by
  obtain ⟨writes, run, outside⟩ := others
  exact database_run_served run outside sound

end Nephos
