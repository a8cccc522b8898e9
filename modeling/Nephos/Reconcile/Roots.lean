import Nephos.Reconcile.Passes

/-!
# The roots of wanted instances

`Create` finds the container of an instance or makes it, and does not tell
which.  When its identity cannot be recorded, the pass deletes the container
in both cases, and with it the root of a wanted instance.
-/

namespace Nephos

open Effects

/-- The operation is one of the store's and has failed. -/
def Op.Fails : (op : Op) → op.Result → Prop
  | .getInstance _, .error _ | .getSubnet _ _, .error _
  | .getVPC _ _, .error _ | .recordRuntimeID _ _ _, .error _
  | .retainTerminatingRuntimeID _ _, .error _
  | .recordInstance _ _ _ _, .error _
  | .finishInstanceTermination _, .error _ => True
  | _, _ => False

/-- Every operation may come out as in the world, every operation of the
store may also fail with any error, and the others do anything. -/
def anyOutcome : Setting Op Op.Result World where
  others _ _ := True
  behaviour world op result after := world.Behaves op result after ∨
    op.Fails result ∧ after = world
  refl _ := trivial
  trans _ _ := trivial

namespace PassEvent

/-- The runtime is told to delete the container. -/
def Deletes (event : PassEvent) (id : RuntimeID) : Prop :=
  match event with
  | ⟨_, .act (.delete runtimeID), _, _⟩ => runtimeID = id
  | _ => False

/-- The identity of the container could not be recorded. -/
def Refuses (event : PassEvent) (id : RuntimeID) : Prop :=
  match event with
  | ⟨_, .recordRuntimeID _ _ runtimeID, .error _, _⟩ => runtimeID = id
  | _ => False

instance (event : PassEvent) (id : RuntimeID) :
    Decidable (event.Deletes id) := by
  unfold Deletes
  split <;> infer_instance

instance (event : PassEvent) (id : RuntimeID) :
    Decidable (event.Refuses id) := by
  unfold Refuses
  split <;> infer_instance

/-- The event neither deletes a container nor refuses one. -/
def Neutral (event : PassEvent) : Prop :=
  ∀ id, ¬ event.Deletes id ∧ ¬ event.Refuses id

theorem neutral_of_watch {before after : World} {op : Op}
    {result : op.Result} (watch : op.OfWatch) :
    Neutral ⟨before, op, result, after⟩ := by
  refine fun id => ⟨fun deletes => ?_, fun refuses => ?_⟩
  · cases op with
    | act call => cases call <;> first | exact deletes | exact watch
    | _ => exact deletes
  · cases op <;> first | exact refuses | exact watch

end PassEvent

/-- Only containers that could not be recorded have been deleted. -/
def OnlyRefused (history : List PassEvent) : Prop :=
  ∀ id, (∃ event ∈ history, event.Deletes id) →
    ∃ event ∈ history, event.Refuses id

/-- Every container that could not be recorded has been deleted. -/
def AllRefused (history : List PassEvent) : Prop :=
  ∀ id, (∃ event ∈ history, event.Refuses id) →
    ∃ event ∈ history, event.Deletes id

section Histories

variable {history : List PassEvent} {event : PassEvent}

theorem OnlyRefused.append (only : OnlyRefused history)
    (spares : ∀ id, ¬ event.Deletes id) : OnlyRefused (history ++ [event]) := by
  rintro id ⟨other, member, deletes⟩
  rcases List.mem_append.mp member with old | new
  · obtain ⟨refused, inside, refuses⟩ := only id ⟨other, old, deletes⟩
    exact ⟨refused, List.mem_append_left _ inside, refuses⟩
  · rw [List.mem_singleton.mp new] at deletes
    exact absurd deletes (spares id)

theorem AllRefused.append (all : AllRefused history)
    (neutral : event.Neutral) : AllRefused (history ++ [event]) := by
  rintro id ⟨other, member, refuses⟩
  rcases List.mem_append.mp member with old | new
  · obtain ⟨deleted, inside, deletes⟩ := all id ⟨other, old, refuses⟩
    exact ⟨deleted, List.mem_append_left _ inside, deletes⟩
  · rw [List.mem_singleton.mp new] at refuses
    exact absurd refuses (neutral id).2

/-- The container could not be recorded and is to be deleted. -/
def Owes (history : List PassEvent) (runtimeID : RuntimeID) : Prop :=
  (∃ event ∈ history, event.Refuses runtimeID) ∧
    ∀ id, (∃ event ∈ history, event.Refuses id) →
      (∃ event ∈ history, event.Deletes id) ∨ id = runtimeID

theorem AllRefused.owes (all : AllRefused history) {runtimeID : RuntimeID}
    (refuses : event.Refuses runtimeID)
    (only : ∀ id, event.Refuses id → id = runtimeID) :
    Owes (history ++ [event]) runtimeID := by
  refine ⟨⟨event, by simp, refuses⟩, ?_⟩
  rintro id ⟨other, member, refused⟩
  rcases List.mem_append.mp member with old | new
  · obtain ⟨deleted, inside, deletes⟩ := all id ⟨other, old, refused⟩
    exact .inl ⟨deleted, List.mem_append_left _ inside, deletes⟩
  · rw [List.mem_singleton.mp new] at refused
    exact .inr (only id refused)

theorem Owes.append {runtimeID : RuntimeID} (owes : Owes history runtimeID)
    (neutral : event.Neutral) : Owes (history ++ [event]) runtimeID := by
  obtain ⟨⟨refused, inside, refuses⟩, rest⟩ := owes
  refine ⟨⟨refused, List.mem_append_left _ inside, refuses⟩, ?_⟩
  rintro id ⟨other, member, again⟩
  rcases List.mem_append.mp member with old | new
  · exact (rest id ⟨other, old, again⟩).imp_left
      fun ⟨deleted, within, deletes⟩ =>
        ⟨deleted, List.mem_append_left _ within, deletes⟩
  · rw [List.mem_singleton.mp new] at again
    exact absurd again (neutral id).2

theorem Owes.deletes {before after : World} {runtimeID : RuntimeID}
    {result : Unit} (owes : Owes history runtimeID)
    (only : OnlyRefused history) :
    OnlyRefused
        (history ++ [⟨before, .act (.delete runtimeID), result, after⟩]) ∧
      AllRefused
        (history ++ [⟨before, .act (.delete runtimeID), result, after⟩]) := by
  obtain ⟨⟨refused, inside, refuses⟩, rest⟩ := owes
  constructor
  · rintro id ⟨other, member, deletes⟩
    rcases List.mem_append.mp member with old | new
    · obtain ⟨event, within, again⟩ := only id ⟨other, old, deletes⟩
      exact ⟨event, List.mem_append_left _ within, again⟩
    · rw [List.mem_singleton.mp new] at deletes
      obtain rfl : runtimeID = id := deletes
      exact ⟨refused, List.mem_append_left _ inside, refuses⟩
  · rintro id ⟨other, member, again⟩
    rcases List.mem_append.mp member with old | new
    · rcases rest id ⟨other, old, again⟩ with ⟨deleted, within, deletes⟩ | rfl
      · exact ⟨deleted, List.mem_append_left _ within, deletes⟩
      · exact ⟨_, List.mem_append_right _ (List.mem_singleton.mpr rfl), rfl⟩
    · rw [List.mem_singleton.mp new] at again
      exact again.elim

end Histories

/-- Any outcomes while the instance is wanted. -/
def wantedOutcome (instanceID : ID) : Setting Op Op.Result World :=
  anyOutcome.restrict fun before _ _ _ => before.Live instanceID

def rootContract (instanceID : ID) :
    Contract Op Op.Result (Traced Op Op.Result World) :=
  (wantedOutcome instanceID).contract OnlyRefused

section Rules

variable {α : Type} {instanceID : ID} {world : World}
  {history : List PassEvent}

/-- What a pass has done in the end. -/
def RootSafe (instanceID : ID) (program : Call α) (world : World)
    (history : List PassEvent) : Prop :=
  (rootContract instanceID).Safe (fun _ traced => AllRefused traced.history)
    program ⟨world, history⟩

/-- The rule for an operation that neither deletes nor refuses. -/
theorem root_invoke (op : Op) {rest : op.Result → Call α}
    (neutral : ∀ before result after,
      PassEvent.Neutral ⟨before, op, result, after⟩)
    (continues : ∀ {before result after},
      PassEvent.Neutral ⟨before, op, result, after⟩ →
        RootSafe instanceID (rest result) after
          (history ++ [⟨before, op, result, after⟩])) :
    RootSafe instanceID (invoke op >>= rest) world history :=
  traced_invoke op fun only _ _ =>
    ⟨only.append fun id => (neutral _ _ _ id).1, continues (neutral _ _ _)⟩

theorem watch_rootSafe {program : Call α} (uses : program.Uses Op.OfWatch)
    (all : AllRefused history) :
    RootSafe instanceID program world history := by
  induction program generalizing world history with
  | done value => exact all
  | call op next induction =>
      exact root_invoke op (fun _ _ _ => PassEvent.neutral_of_watch uses.1)
        fun neutral => induction _ (uses.2 _) (all.append neutral)

/-- The rule for a call that neither deletes nor refuses. -/
theorem root_external {call : External}
    {rest : Except String call.Value → Call α}
    (other : ∀ id, call ≠ .delete id) (all : AllRefused history)
    (continues : ∀ {result after history}, AllRefused history →
      RootSafe instanceID (rest result) after history) :
    RootSafe instanceID (external call >>= rest) world history := by
  refine root_invoke (.act call)
    (fun _ _ _ _ => ⟨fun deletes => ?_, id⟩) fun acted => ?_
  · cases call <;> first | exact deletes | exact other _ rfl
  · exact root_invoke (.answer call) (fun _ _ _ _ => ⟨id, id⟩)
      fun answered => continues ((all.append acted).append answered)

end Rules

namespace InstanceController

variable {instanceID : ID} {world : World} {history : List PassEvent}
  {inst : Instance} {runtimeID : RuntimeID}

/-- The deletion that is owed, and whatever follows. -/
theorem delete_rootSafe {rest : Except String Unit → Pass}
    (owes : Owes history runtimeID)
    (continues : ∀ {result after history}, AllRefused history →
      RootSafe instanceID (rest result) after history) :
    RootSafe instanceID (external (.delete runtimeID) >>= rest) world
      history := by
  refine traced_invoke (.act (.delete runtimeID)) fun only _ _ => ?_
  obtain ⟨onlyRefused, all⟩ := owes.deletes only
  refine ⟨onlyRefused, ?_⟩
  exact root_invoke (.answer (.delete runtimeID))
    (fun _ _ _ _ => ⟨id, id⟩) fun answered => continues (all.append answered)

theorem discard_rootSafe {failure : Failure} (owes : Owes history runtimeID) :
    RootSafe instanceID (discard inst runtimeID failure) world history := by
  refine delete_rootSafe owes fun {result after history} all => ?_
  split
  · exact all
  · exact watch_rootSafe (uses_invoke trivial fun _ => trivial) all

theorem createdDuringStateChange_rootSafe {failure : Failure}
    (owes : Owes history runtimeID) :
    RootSafe instanceID (createdDuringStateChange inst runtimeID failure)
      world history := by
  unfold createdDuringStateChange
  split
  · refine root_invoke _ (fun _ _ _ _ => ⟨id, id⟩)
      fun {before result after} neutral => ?_
    split
    · refine delete_rootSafe (owes.append neutral)
        fun {result after history} all => ?_
      apply watch_rootSafe _ all
      split
      · refine uses_invoke trivial fun current => ?_
        split
        · trivial
        · exact fail_uses _ _
      · exact uses_invoke trivial fun _ => trivial
    · exact discard_rootSafe (owes.append neutral)
  · exact discard_rootSafe owes

theorem launch_rootSafe (all : AllRefused history) :
    RootSafe instanceID (launch inst) world history := by
  refine root_external nofun all fun {image after history} all => ?_
  split
  · exact watch_rootSafe (fail_uses _ _) all
  · refine root_external nofun all fun {made after history} all => ?_
    split
    · exact watch_rootSafe (fail_uses _ _) all
    · refine traced_invoke _ fun {before recorded after} only _ _ => ?_
      refine ⟨only.append fun _ => id, ?_⟩
      cases recorded with
      | ok value =>
          exact watch_rootSafe (start_uses _ _)
            (all.append fun _ => ⟨id, id⟩)
      | error failure =>
          exact createdDuringStateChange_rootSafe
            (all.owes rfl fun _ same => same.symm)

theorem converge_rootSafe {id : ID} (only : OnlyRefused history)
    (all : AllRefused history) :
    RootSafe instanceID (converge id inst) world history := by
  have prepared : RootSafe instanceID (ready inst) world history :=
    watch_rootSafe (ready_uses inst) all
  refine prepared.bind only fun {isReady traced} _ all => ?_
  obtain ⟨later, history⟩ := traced
  split
  · exact watch_rootSafe (fail_uses _ _) all
  · exact all
  · split
    · refine root_external nofun all fun {inspected after history} all => ?_
      split
      · exact watch_rootSafe (uses_invoke trivial fun _ => trivial) all
      · exact watch_rootSafe (fail_uses _ _) all
      · exact launch_rootSafe all
    · exact launch_rootSafe all

theorem reconcileLocked_rootSafe (instanceID : ID) (world : World) :
    RootSafe instanceID (reconcileLocked instanceID) world [] := by
  refine traced_invoke _ fun {before loaded after} only _ behaves => ?_
  have neutral : PassEvent.Neutral ⟨before, .getInstance instanceID, loaded,
      after⟩ := fun _ => ⟨id, id⟩
  have none : AllRefused [] := fun id ⟨_, member, _⟩ => by cases member
  have kept := only.append fun id => (neutral id).1
  have all := none.append neutral
  refine ⟨kept, ?_⟩
  split
  · exact watch_rootSafe (uses_invoke trivial fun _ => trivial) all
  · exact all
  · rename_i inst
    obtain ⟨came | ⟨impossible, -⟩, live⟩ := behaves
    · obtain ⟨found, -⟩ := came.getInstance
      obtain ⟨row, member, eni, -, sameID, -, -, -, rfl⟩ :=
        Store.getInstance_ok found.symm
      have wanted : (row.snapshot eni).deletionRequested = false :=
        live row member sameID
      rw [if_neg (by simp [wanted])]
      exact converge_rootSafe kept all
    · exact impossible.elim

end InstanceController

/-- While an instance is wanted, the only containers that a pass deletes are
those whose identity the store did not record, whether the pass made them or
found them, and a complete pass deletes each of these. -/
theorem reconcileLocked_deletes_iff {instanceID : ID} {world : World}
    {events : List PassEvent} {rest : Pass}
    (executes : anyOutcome.Executes
      (InstanceController.reconcileLocked instanceID) world events rest)
    (wanted : ∀ event ∈ events, event.before.Live instanceID) :
    ((∃ container ∈ world.containers, ∃ event ∈ events,
        event.Deletes container.id) →
      ∃ container ∈ world.containers, ∃ event ∈ events,
        event.Refuses container.id) ∧
    ∀ result, rest = .done result →
      ((∃ container ∈ world.containers, ∃ event ∈ events,
          event.Deletes container.id) ↔
        ∃ container ∈ world.containers, ∃ event ∈ events,
          event.Refuses container.id) := by
  have none : OnlyRefused [] := fun id ⟨_, member, _⟩ => by cases member
  obtain ⟨only, complete⟩ := (executes.restrict wanted).safe
    (InstanceController.reconcileLocked_rootSafe instanceID world) none
  rw [List.nil_append] at only complete
  have forward : (∃ container ∈ world.containers, ∃ event ∈ events,
        event.Deletes container.id) →
      ∃ container ∈ world.containers, ∃ event ∈ events,
        event.Refuses container.id :=
    fun ⟨container, inside, deletes⟩ =>
      ⟨container, inside, only container.id deletes⟩
  refine ⟨forward, fun result isDone => ⟨forward, ?_⟩⟩
  obtain ⟨_, all⟩ := complete result isDone
  exact fun ⟨container, inside, refuses⟩ =>
    ⟨container, inside, all container.id refuses⟩

instance (world : World) (id : ID) : Decidable (world.Live id) :=
  inferInstanceAs (Decidable (∀ row ∈ world.store.instances, _))

/-- A container that does not start at first is found and recorded again, and
stays. -/
theorem keptRoot_deletes_iff :
    ∃ (daemon : Daemon) (events : List PassEvent),
      system.Reachable daemon ∧
      anyOutcome.Executes
        (InstanceController.reconcileLocked "i-03030303030303030")
        daemon.world events (.done (.ok ())) ∧
      (∀ event ∈ events, event.before.Live "i-03030303030303030") ∧
      daemon.world.containers ≠ [] ∧
      ¬ ∃ container ∈ daemon.world.containers, ∃ event ∈ events,
        event.Deletes container.id := by
  have runs : ((Daemon.initial []).run
      (lostContainer.take (lostContainer.length - 2))).any (fun daemon =>
        (daemon.world.execute
          (InstanceController.reconcileLocked "i-03030303030303030")
          [ .plain, .plain, .succeeds, .plain, .plain, .plain, .succeeds,
            .plain, .succeeds, .plain, .plain, .effect, .succeeds, .plain,
            .succeeds, .clock 4, .plain ]).any fun (events, rest) =>
              Pass.succeeded rest && decide
                ((∀ event ∈ events,
                    event.before.Live "i-03030303030303030") ∧
                  daemon.world.containers ≠ [] ∧
                  ¬ ∃ container ∈ daemon.world.containers,
                    ∃ event ∈ events, event.Refuses container.id)) =
        true := by
    decide +kernel
  obtain ⟨daemon, ran, checked⟩ := (Option.any_eq_true _ _).mp runs
  obtain ⟨⟨events, rest⟩, executed, checked⟩ :=
    (Option.any_eq_true _ _).mp checked
  rw [Bool.and_eq_true, decide_eq_true_iff] at checked
  obtain ⟨isDone, wanted, present, recorded⟩ := checked
  have executes : anyOutcome.Executes _ daemon.world events rest :=
    World.execute_executes (fun behaves => Or.inl behaves) executed
  rw [Pass.succeeded_eq isDone] at executes
  refine ⟨daemon, events, Daemon.run_reachable ran, executes, wanted, present,
    fun deletes => recorded ?_⟩
  exact (reconcileLocked_deletes_iff executes wanted).1 deletes

/-- The container of an instance is lost, and the daemon crashes when it has
made another one. -/
def remadeContainer : List Label :=
  lostContainer ++ hotPass.take 9 ++ [.crash]

/-- The next pass finds the container and deletes it. -/
theorem remadeContainer_deletes :
    ∃ (daemon : Daemon) (events : List PassEvent) (container : Container),
      system.Reachable daemon ∧
      (Daemon.initial []).run remadeContainer = some daemon ∧
      anyOutcome.Executes
        (InstanceController.reconcileLocked "i-03030303030303030")
        daemon.world events (.done (.ok ())) ∧
      (∀ event ∈ events, event.before.Live "i-03030303030303030") ∧
      container ∈ daemon.world.containers ∧
      container.instanceID = "i-03030303030303030" ∧
      ∃ event ∈ events, event.Deletes container.id := by
  have runs : ((Daemon.initial []).run remadeContainer).any (fun daemon =>
      (daemon.world.execute
        (InstanceController.reconcileLocked "i-03030303030303030")
        [ .plain, .plain, .succeeds, .plain, .plain, .plain, .succeeds,
          .plain, .succeeds, .plain, .plain, .effect, .succeeds,
          .plain ]).any
        fun (events, rest) => Pass.succeeded rest &&
          daemon.world.containers.any fun container => decide
            ((∀ event ∈ events, event.before.Live "i-03030303030303030") ∧
              container.instanceID = "i-03030303030303030" ∧
              ∃ event ∈ events, event.Deletes container.id)) = true := by
    decide +kernel
  obtain ⟨daemon, ran, checked⟩ := (Option.any_eq_true _ _).mp runs
  obtain ⟨⟨events, rest⟩, executed, checked⟩ :=
    (Option.any_eq_true _ _).mp checked
  rw [Bool.and_eq_true] at checked
  obtain ⟨container, inside, holds⟩ := List.any_eq_true.mp checked.2
  obtain ⟨wanted, owner, deletes⟩ := of_decide_eq_true holds
  have executes : anyOutcome.Executes _ daemon.world events rest :=
    World.execute_executes (fun behaves => Or.inl behaves) executed
  rw [Pass.succeeded_eq checked.1] at executes
  exact ⟨daemon, events, container, Daemon.run_reachable ran, ran, executes,
    wanted, inside, owner, deletes⟩

end Nephos
