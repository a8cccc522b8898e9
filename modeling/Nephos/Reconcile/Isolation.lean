import Nephos.Reads
import Nephos.Reconcile.Observations
import Nephos.Reconcile.Passes

/-!
# Failures of the engine

A failed call to the runtime or to the network is the affair of one instance
or VPC: the pass notes it on the row and retries later, and returns
nothing to its controller.  The exception is the deletion of a container that
could be neither recorded nor retained, whose failure the pass returns, which
ends the controller and with it the daemon.
-/

namespace Nephos

open Effects Transaction

/-- The others write to the database in between. -/
def World.Meanwhile (world later : World) : Prop :=
  ∃ writes, database.Run world.store writes later.store

def OnlyStale {α : Type} (result : Except Failure α) : Prop :=
  ∀ failure, result = .error failure → failure = .staleSnapshot

/-- The context is live, and an operation of the store succeeds or finds its
snapshot stale. -/
def Op.Sturdy : (op : Op) → op.Result → Prop
  | .contextErr, cancelled => cancelled = false
  | .getInstance _, result => OnlyStale result
  | .getSubnet _ _, result => OnlyStale result
  | .getVPC _ _, result => OnlyStale result
  | .listSubnetsByVPC _, result => OnlyStale result
  | .recordTopology _ _ _, result => OnlyStale result
  | .recordRuntimeID _ _ _, result => OnlyStale result
  | .retainTerminatingRuntimeID _ _, result => OnlyStale result
  | .recordInstance _ _ _ _, result => OnlyStale result
  | .finishInstanceTermination _, result => OnlyStale result
  | _, _ => True

/-- A pass among writes of the others to the database. -/
def accompanied : Setting Op Op.Result World where
  others := World.Meanwhile
  behaviour := World.Behaves
  refl world := ⟨[], .nil world.store⟩
  trans first second := by
    obtain ⟨front, run⟩ := first
    obtain ⟨back, onward⟩ := second
    exact ⟨front ++ back, run.append onward⟩

/-- Any calls to the runtime and to the engine fail, and no operation of the
store. -/
def sturdy : Setting Op Op.Result World :=
  accompanied.restrict fun _ op result _ => op.Sturdy result

theorem World.Meanwhile.evolves {world later : World}
    (meanwhile : world.Meanwhile later) (sound : world.store.Sound) :
    world.store.Evolves later.store ∧ later.store.Sound := by
  obtain ⟨writes, run⟩ := meanwhile
  exact database_run_evolves run sound

theorem getInstance_onlyStale {store : Store} {id : ID}
    {result : Except Failure Instance} (sound : store.Sound)
    (found : result = store.getInstance defaultWorkspace id)
    (only : OnlyStale result) :
    ∃ row ∈ store.instances, ∃ eni, row.id = id ∧
      result = .ok (row.snapshot eni) := by
  rcases sound.getInstance_cases id with
    ⟨row, member, sameID, eni, -, -, isOk⟩ | ⟨-, missing⟩
  · exact ⟨row, member, eni, sameID, found.trans isOk⟩
  · exact absurd (only .noRows (found.trans missing)) nofun

namespace PassEvent

/-- A call to the runtime or to the engine has failed. -/
def Breaks (event : PassEvent) (cause : String) : Prop :=
  match event with
  | ⟨_, .answer _, .error message, _⟩ => message = cause
  | _ => False

/-- The deletion of the container has failed. -/
def BreaksDelete (event : PassEvent) (id : RuntimeID) : Prop :=
  match event with
  | ⟨_, .answer (.delete runtimeID), .error _, _⟩ => runtimeID = id
  | _ => False

/-- The identity of the container could not be retained. -/
def Unretained (event : PassEvent) (id : RuntimeID) : Prop :=
  match event with
  | ⟨_, .retainTerminatingRuntimeID _ runtimeID, .error _, _⟩ =>
      runtimeID = id
  | _ => False

/-- The failure is on the row. -/
def RecordsFailure (event : PassEvent) (controller : Controller) (id : ID)
    (cause : String) : Prop :=
  match event with
  | ⟨_, .recordInstance _ .failed _ false, .ok _, after⟩ =>
      controller = .inst ∧ ∃ row ∈ after.store.instances, row.id = id ∧
        row.state = .failed ∧ row.stateReason = cause
  | ⟨_, .recordTopology _ _ (some _), .ok _, after⟩ =>
      controller = .vpc ∧ ∃ row ∈ after.store.vpcs, row.id = id ∧
        row.state = .failed ∧ row.stateReason = cause
  | _ => False

/-- There is a retry with a delay, or no room for one. -/
def Retries (event : PassEvent) (controller : Controller) (id : ID) : Prop :=
  match event with
  | ⟨_, .retry _ _, _, after⟩ =>
      id ∈ (after.queue controller).retries ∨
        queueLimit ≤ (after.queue controller).retries.keys.length
  | _ => False

/-- The resource is pending again. -/
def Requeues (event : PassEvent) (controller : Controller) (id : ID) :
    Prop :=
  match event with
  | ⟨_, .enqueue _ _, _, after⟩ => id ∈ (after.queue controller).pending
  | _ => False

/-- The hint is dropped, since too many resources are pending. -/
def Drops (event : PassEvent) (controller : Controller) : Prop :=
  match event with
  | ⟨before, .enqueue _ _, _, _⟩ =>
      queueLimit ≤ (before.queue controller).pending.card
  | _ => False

end PassEvent

/-- A container could not be retained and not be deleted. -/
def Abandons (history : List PassEvent) : Prop :=
  ∃ id, (∃ event ∈ history, event.Unretained id) ∧
    ∃ event ∈ history, event.BreaksDelete id

/-- The failure is on the row and retried, or the resource is pending again
unless the hint is dropped. -/
def Handles (history : List PassEvent) (controller : Controller) (id : ID)
    (cause : String) : Prop :=
  (∃ event ∈ history, event.RecordsFailure controller id cause) ∧
      (∃ event ∈ history, event.Retries controller id) ∨
    (∃ event ∈ history, event.Requeues controller id) ∨
    ∃ event ∈ history, event.Drops controller

theorem Abandons.later {own : List PassEvent} (abandons : Abandons own)
    (earlier : List PassEvent) : Abandons (earlier ++ own) := by
  obtain ⟨runtimeID, ⟨first, firstMember, unretained⟩, second, secondMember,
    breaks⟩ := abandons
  exact ⟨runtimeID,
    ⟨first, List.mem_append_right _ firstMember, unretained⟩,
    second, List.mem_append_right _ secondMember, breaks⟩

theorem Queue.retry_entry (queue : Queue) (now : Time) (id : ID) :
    id ∈ (queue.retry now id).retries ∨
      queueLimit ≤ (queue.retry now id).retries.keys.length := by
  unfold retry
  split
  · rename_i refused
    rw [refuses, Bool.and_eq_true, decide_eq_true_iff] at refused
    exact .inr refused.1
  · exact .inl (AList.mem_insert _ |>.mpr (.inl rfl))

theorem Queue.enqueue_pending (queue : Queue) {id : ID} (nonempty : id ≠ "") :
    id ∈ (queue.enqueue id).pending ∨ queueLimit ≤ queue.pending.card := by
  unfold enqueue
  rw [if_neg nonempty]
  split
  · exact .inl (Finset.mem_insert_self _ _)
  · rename_i full
    exact .inr (not_lt.mp full)

section Queues

variable {controller : Controller} {id : ID} {before after : World}

theorem World.queue_onQueue (world : World) (controller : Controller)
    (change : Queue → Queue) :
    (world.onQueue controller change).queue controller =
      change (world.queue controller) := by
  cases controller <;> rfl

theorem PassEvent.retries_retry {result : Unit}
    (behaves : before.Behaves (.retry controller id) result after) :
    PassEvent.Retries ⟨before, .retry controller id, result, after⟩ controller
      id := by
  obtain ⟨choice, run⟩ := behaves
  cases choice <;> cases run
  rw [Retries, World.queue_onQueue]
  exact Queue.retry_entry _ _ id

theorem handles_enqueue {result : Unit} (nonempty : id ≠ "")
    (behaves : before.Behaves (.enqueue controller id) result after)
    (history : List PassEvent) (cause : String) :
    Handles (history ++ [⟨before, .enqueue controller id, result, after⟩])
      controller id cause := by
  rw [Handles, exists_mem_snoc, exists_mem_snoc, exists_mem_snoc,
    exists_mem_snoc, behaves.enqueue, PassEvent.Requeues, World.enqueue,
    World.queue_onQueue]
  exact .inr ((Queue.enqueue_pending _ nonempty).imp .inr .inr)

end Queues

/-- The event is neither a failed call nor an unretained container. -/
def PassEvent.Smooth (event : PassEvent) : Prop :=
  (∀ cause, ¬ event.Breaks cause) ∧ ∀ id, ¬ event.Unretained id

/-- No call has failed and no container is unretained. -/
def Intact (history : List PassEvent) : Prop :=
  ∀ event ∈ history, event.Smooth

/-- Calls have failed for one reason only, and no container is unretained. -/
structure Failed (history : List PassEvent) (cause : String) : Prop where
  causes : ∀ other, (∃ event ∈ history, event.Breaks other) → other = cause
  retained : ∀ id, ¬ ∃ event ∈ history, event.Unretained id

section Histories

variable {history : List PassEvent} {event : PassEvent} {cause : String}

theorem PassEvent.BreaksDelete.breaks {id : RuntimeID}
    (breaks : event.BreaksDelete id) : ∃ cause, event.Breaks cause := by
  obtain ⟨before, op, result, after⟩ := event
  cases op with
  | answer call =>
      cases call <;> try exact breaks.elim
      cases result with
      | error message => exact ⟨message, rfl⟩
      | ok value => exact breaks.elim
  | _ => exact breaks.elim

theorem Intact.append (intact : Intact history) (smooth : event.Smooth) :
    Intact (history ++ [event]) :=
  forall_append intact smooth

theorem Intact.failed (intact : Intact history) (cause : String) :
    Failed history cause where
  causes other := fun ⟨event, member, breaks⟩ =>
    absurd breaks ((intact event member).1 other)
  retained id := fun ⟨event, member, unretained⟩ =>
    (intact event member).2 id unretained

theorem Failed.append (failed : Failed history cause)
    (calls : ∀ other, event.Breaks other → other = cause)
    (retains : ∀ id, ¬ event.Unretained id) :
    Failed (history ++ [event]) cause where
  causes other breaks := by
    rcases exists_mem_snoc.mp breaks with old | new
    · exact failed.causes other old
    · exact calls other new
  retained id unretained := by
    rcases exists_mem_snoc.mp unretained with old | new
    · exact failed.retained id old
    · exact retains id new

theorem Failed.smooth (failed : Failed history cause)
    (smooth : event.Smooth) : Failed (history ++ [event]) cause :=
  failed.append (fun other breaks => absurd breaks (smooth.1 other)) smooth.2

theorem Failed.not_abandons (failed : Failed history cause) :
    ¬ Abandons history :=
  fun ⟨id, unretained, _⟩ => failed.retained id unretained

end Histories

/-- The program ends in the postcondition, whatever calls fail. -/
def SturdySafe {α : Type} (post : α → List PassEvent → Prop)
    (program : Call α) (world : World) (history : List PassEvent) : Prop :=
  (sturdy.contract fun _ => True).Safe
    (fun result traced => post result traced.history) program
    ⟨world, history⟩

section Rules

variable {α : Type} {post : α → List PassEvent → Prop} {world : World}
  {history : List PassEvent}

/-- The rule for one operation. -/
theorem sturdy_invoke (op : Op) {rest : op.Result → Call α}
    (sound : world.store.Sound)
    (rule : ∀ {before result after}, world.store.Evolves before.store →
      before.store.Sound → after.store.Sound →
      before.Behaves op result after → op.Sturdy result →
        SturdySafe post (rest result) after
          (history ++ [⟨before, op, result, after⟩])) :
    SturdySafe post (invoke op >>= rest) world history := by
  refine traced_invoke op fun {before result after} _ meanwhile behaves => ?_
  obtain ⟨evolves, before⟩ := meanwhile.evolves sound
  exact ⟨trivial, rule evolves before
    (behaves.1.store_within.sound before) behaves.1 behaves.2⟩

/-- The rule for one call, after calls that have succeeded. -/
theorem sturdy_external (call : External)
    {rest : Except String call.Value → Call α} (sound : world.store.Sound)
    (intact : Intact history)
    (fails : ∀ {cause after history}, after.store.Sound →
      Failed history cause →
        SturdySafe post (rest (.error cause)) after history)
    (succeeds : ∀ {value after history}, after.store.Sound →
      Intact history → SturdySafe post (rest (.ok value)) after history) :
    SturdySafe post (external call >>= rest) world history := by
  refine sturdy_invoke (.act call) sound
    fun {before _ acted} _ _ sound _ _ => ?_
  have intact : Intact (history ++ [⟨before, .act call, (), acted⟩]) :=
    intact.append ⟨fun _ => not_false, fun _ => not_false⟩
  refine sturdy_invoke (.answer call) sound
    fun {later result after} _ _ sound _ _ => ?_
  cases result with
  | error cause =>
      exact fails sound ((intact.failed cause).append
        (fun _ same => same.symm) fun _ => not_false)
  | ok value =>
      exact succeeds sound
        (intact.append ⟨fun _ => not_false, fun _ => not_false⟩)

/-- A program runs the same after other programs, and leaves the database
sound. -/
theorem SturdySafe.resume {program : Call α}
    (safe : SturdySafe post program world history)
    (sound : world.store.Sound) (earlier : List PassEvent) :
    (sturdy.contract fun _ => True).Safe (fun result traced =>
      traced.state.store.Sound ∧ ∃ own, traced.history = earlier ++ own ∧
        post result own) program ⟨world, earlier ++ history⟩ := by
  induction program generalizing world history with
  | done value => exact ⟨sound, history, rfl, safe⟩
  | call op next induction =>
      refine .traced fun {before result after} _ meanwhile behaves => ?_
      have before := (meanwhile.evolves sound).2
      refine ⟨trivial, ?_⟩
      rw [List.append_assoc]
      refine induction result ?_ (behaves.1.store_within.sound before)
      exact (safe.traced_step trivial meanwhile behaves).2

end Rules

/-- How a pass over an instance ends. -/
def Isolated (id : ID) (result : Except Failure Unit)
    (history : List PassEvent) : Prop :=
  (∃ failure, result = .error failure) ∧ Abandons history ∨
    result = .ok () ∧ ¬ Abandons history ∧
      ∀ cause, (∃ event ∈ history, event.Breaks cause) →
        Handles history .inst id cause

namespace InstanceController

variable {id : ID} {world : World} {history : List PassEvent}
  {inst : Instance} {cause : String}

/-- Putting the instance back settles everything. -/
theorem enqueue_isolated (sound : world.store.Sound) (nonempty : id ≠ "")
    (kept : ¬ Abandons history) :
    SturdySafe (Isolated id) (invoke (.enqueue .inst id) >>= fun _ =>
      pure (.ok ())) world history := by
  refine sturdy_invoke _ sound fun {before _ after} _ _ _ behaves _ => ?_
  refine .inr ⟨rfl, ?_, fun cause _ =>
    handles_enqueue nonempty behaves history cause⟩
  rintro ⟨runtimeID, unretained, breaks⟩
  exact kept ⟨runtimeID, (exists_mem_snoc.mp unretained).resolve_right not_false,
    (exists_mem_snoc.mp breaks).resolve_right not_false⟩

/-- A pass without failures has nothing to handle. -/
theorem isolated_nothing (intact : Intact history) :
    Isolated id (.ok ()) history :=
  .inr ⟨rfl, (intact.failed "").not_abandons, fun cause breaks =>
    absurd breaks fun ⟨event, member, breaks⟩ =>
      (intact event member).1 cause breaks⟩

theorem clearRetry_isolated (sound : world.store.Sound)
    (intact : Intact history) :
    SturdySafe (Isolated id) (invoke (.clearRetry .inst id) >>= fun _ =>
      pure (.ok ())) world history := by
  refine sturdy_invoke _ sound fun {before _ after} _ _ _ _ _ => ?_
  have intact : Intact
      (history ++ [⟨before, .clearRetry .inst id, (), after⟩]) :=
    intact.append ⟨fun _ => not_false, fun _ => not_false⟩
  exact isolated_nothing intact

theorem recordInstance_fails {before after : World} {result : Unit}
    (sound : before.store.Sound)
    (behaves : before.Behaves (.recordInstance inst .failed cause false)
      (.ok result) after) :
    ∃ row ∈ after.store.instances, row.id = inst.id ∧
      row.state = .failed ∧ row.stateReason = cause := by
  obtain ⟨now, outcome, rfl⟩ := behaves.recordInstance
  rcases commit_cases (recordInstance inst .failed cause false now)
    before.store with ⟨failure, failed⟩ | ⟨value, final, run, committed⟩
  · rw [Store.withTx, failed] at outcome
    cases outcome
  · rw [Store.withTx, committed]
    obtain ⟨row, eni, describes, -, ⟨same, rfl⟩ | ⟨-, rfl⟩⟩ :=
      recordInstance_ok sound.keyed run
    · obtain ⟨state, reason, -⟩ := InstanceRow.withStatus_eq_iff.mp same
      exact ⟨row, describes.member, describes.same.1, state, reason⟩
    · have sameID : (row.withStatus .failed cause false).id = row.id := rfl
      exact ⟨_, (mem_replace_iff describes.member sameID).mpr (.inl rfl),
        describes.same.1, rfl, rfl⟩

theorem fail_isolated (sound : world.store.Sound) (sameID : inst.id = id)
    (nonempty : id ≠ "") (failed : Failed history cause) :
    SturdySafe (Isolated id) (fail inst cause) world history := by
  subst sameID
  refine sturdy_invoke _ sound
    fun {before cancelled after} _ _ sound _ live => ?_
  have failed : Failed (history ++ [⟨before, .contextErr, cancelled, after⟩])
      cause := failed.smooth ⟨fun _ => not_false, fun _ => not_false⟩
  obtain rfl : cancelled = false := live
  refine sturdy_invoke _ sound
    fun {writes recorded written} _ sound afterSound behaves sturdy => ?_
  have failed : Failed (_ ++ [⟨writes,
      .recordInstance inst .failed cause false, recorded, written⟩]) cause :=
    failed.smooth ⟨fun _ => not_false, fun _ => not_false⟩
  split
  · exact enqueue_isolated afterSound nonempty failed.not_abandons
  · exact absurd (sturdy _ rfl) (by assumption)
  · rename_i value
    have records : PassEvent.RecordsFailure ⟨writes,
        .recordInstance inst .failed cause false, .ok value, written⟩ .inst
        inst.id cause := ⟨rfl, recordInstance_fails sound behaves⟩
    refine sturdy_invoke _ afterSound
      fun {before _ after} _ _ _ retried _ => ?_
    have failed : Failed (_ ++ [⟨before, .retry .inst inst.id, (), after⟩])
        cause := failed.smooth ⟨fun _ => not_false, fun _ => not_false⟩
    refine .inr ⟨rfl, failed.not_abandons, fun other breaks => .inl ⟨?_, ?_⟩⟩
    · rw [failed.causes other breaks]
      exact ⟨_, by simp, records⟩
    · exact ⟨_, by simp, PassEvent.retries_retry retried⟩

theorem start_isolated (runtimeID : RuntimeID) (sound : world.store.Sound)
    (nonempty : id ≠ "") (intact : Intact history) :
    SturdySafe (Isolated id) (start id runtimeID) world history := by
  refine sturdy_invoke _ sound
    fun {before loaded after} _ _ sound behaves sturdy => ?_
  have intact : Intact
      (history ++ [⟨before, .getInstance id, loaded, after⟩]) :=
    intact.append ⟨fun _ => not_false, fun _ => not_false⟩
  obtain ⟨found, rfl⟩ := behaves.getInstance
  obtain ⟨row, -, eni, rfl, rfl⟩ :=
    getInstance_onlyStale sound found sturdy
  dsimp only
  split
  · exact enqueue_isolated sound nonempty (intact.failed "").not_abandons
  · refine sturdy_external _ sound intact
      (fun sound failed => fail_isolated sound rfl nonempty failed)
      fun sound intact => ?_
    refine sturdy_external _ sound intact
      (fun sound failed => fail_isolated sound rfl nonempty failed)
      fun {running after history} sound intact => ?_
    cases running with
    | false => exact fail_isolated sound rfl nonempty (intact.failed _)
    | true =>
        refine sturdy_invoke _ sound
          fun {before recorded after} _ _ sound _ sturdy => ?_
        have intact : Intact (history ++ [⟨before, _, recorded, after⟩]) :=
          intact.append ⟨fun _ => not_false, fun _ => not_false⟩
        split
        · exact enqueue_isolated sound nonempty
            (intact.failed "").not_abandons
        · exact absurd (sturdy _ rfl) (by assumption)
        · exact clearRetry_isolated sound intact

/-- The only failure that the pass returns. -/
theorem discard_isolated {runtimeID : RuntimeID} {failure : Failure}
    (sound : world.store.Sound) (sameID : inst.id = id) (nonempty : id ≠ "")
    (unretained : ∃ event ∈ history, event.Unretained runtimeID)
    (unbroken : ∀ cause, ¬ ∃ event ∈ history, event.Breaks cause) :
    SturdySafe (Isolated id) (discard inst runtimeID failure) world
      history := by
  subst sameID
  refine sturdy_invoke (.act (.delete runtimeID)) sound
    fun {before _ acted} _ _ sound _ _ => ?_
  refine sturdy_invoke (.answer (.delete runtimeID)) sound
    fun {later result after} _ _ sound _ _ => ?_
  cases result with
  | error cause =>
      refine .inl ⟨⟨_, rfl⟩, runtimeID, ?_, ?_⟩
      · exact exists_mem_snoc.mpr (.inl (exists_mem_snoc.mpr
          (.inl unretained)))
      · exact exists_mem_snoc.mpr (.inr rfl)
  | ok value =>
      refine enqueue_isolated sound nonempty ?_
      rintro ⟨other, -, event, member, breaks⟩
      obtain ⟨cause, breaks⟩ := breaks.breaks
      have broken : ∃ event ∈ _, PassEvent.Breaks event cause :=
        ⟨event, member, breaks⟩
      rcases exists_mem_snoc.mp broken with old | new
      · exact unbroken cause ((exists_mem_snoc.mp old).resolve_right
          not_false)
      · exact new

theorem createdDuringStateChange_isolated {runtimeID : RuntimeID}
    {failure : Failure} (sound : world.store.Sound) (sameID : inst.id = id)
    (nonempty : id ≠ "") (stale : failure = .staleSnapshot)
    (intact : Intact history) :
    SturdySafe (Isolated id) (createdDuringStateChange inst runtimeID failure) world
      history := by
  subst sameID
  rw [createdDuringStateChange, if_pos stale]
  refine sturdy_invoke _ sound
    fun {before retained after} _ _ sound _ _ => ?_
  cases retained with
  | ok value =>
      have intact : Intact (history ++ [⟨before,
          .retainTerminatingRuntimeID inst.id runtimeID, .ok value,
          after⟩]) :=
        intact.append ⟨fun _ => not_false, fun _ => not_false⟩
      refine sturdy_external _ sound intact
        (fun {cause after history} sound failed => ?_) fun sound intact =>
          enqueue_isolated sound nonempty (intact.failed "").not_abandons
      refine sturdy_invoke _ sound
        fun {before loaded after} _ _ sound behaves sturdy => ?_
      have failed : Failed (history ++ [⟨before, .getInstance inst.id,
          loaded, after⟩]) cause :=
        failed.smooth ⟨fun _ => not_false, fun _ => not_false⟩
      obtain ⟨found, rfl⟩ := behaves.getInstance
      obtain ⟨row, -, eni, sameID, rfl⟩ :=
        getInstance_onlyStale sound found sturdy
      exact fail_isolated sound sameID nonempty failed
  | error failure =>
      refine discard_isolated sound rfl nonempty
        (exists_mem_snoc.mpr (.inr rfl)) fun cause breaks => ?_
      rcases exists_mem_snoc.mp breaks with ⟨event, member, old⟩ | new
      · exact (intact event member).1 cause old
      · exact new

theorem launch_isolated (sound : world.store.Sound) (sameID : inst.id = id)
    (nonempty : id ≠ "") (intact : Intact history) :
    SturdySafe (Isolated id) (launch inst) world history := by
  subst sameID
  refine sturdy_external _ sound intact
    (fun sound failed => fail_isolated sound rfl nonempty failed)
    fun sound intact => ?_
  refine sturdy_external _ sound intact
    (fun sound failed => fail_isolated sound rfl nonempty failed)
    fun {runtimeID after history} sound intact => ?_
  refine sturdy_invoke _ sound
    fun {before recorded after} _ _ sound _ sturdy => ?_
  have intact : Intact (history ++ [⟨before, .recordRuntimeID inst.id
      inst.generation runtimeID, recorded, after⟩]) :=
    intact.append ⟨fun _ => not_false, fun _ => not_false⟩
  cases recorded with
  | ok value => exact start_isolated runtimeID sound nonempty intact
  | error failure =>
      exact createdDuringStateChange_isolated sound rfl nonempty
        (sturdy failure rfl) intact

theorem releaseENI_isolated (sound : world.store.Sound)
    (sameID : inst.id = id) (nonempty : id ≠ "") (intact : Intact history) :
    SturdySafe (Isolated id) (releaseENI inst) world history := by
  subst sameID
  refine sturdy_invoke _ sound
    fun {before subnet after} _ _ sound _ _ => ?_
  have intact : Intact (history ++ [⟨before, .getSubnet inst.workspaceID
      inst.subnetID, subnet, after⟩]) :=
    intact.append ⟨fun _ => not_false, fun _ => not_false⟩
  split
  · exact fail_isolated sound rfl nonempty (intact.failed _)
  · refine sturdy_invoke _ sound fun {later vpc after} _ _ sound _ _ => ?_
    have intact := intact.append (⟨fun _ => not_false, fun _ => not_false⟩ :
      PassEvent.Smooth ⟨later, .getVPC inst.workspaceID _, vpc, after⟩)
    split
    · exact fail_isolated sound rfl nonempty (intact.failed _)
    · refine sturdy_external _ sound intact
        (fun sound failed => fail_isolated sound rfl nonempty failed)
        fun {_ _ history} sound intact => ?_
      refine sturdy_invoke _ sound
        fun {before finished after} _ _ sound _ sturdy => ?_
      have intact : Intact (history ++ [⟨before,
          .finishInstanceTermination inst, finished, after⟩]) :=
        intact.append ⟨fun _ => not_false, fun _ => not_false⟩
      split
      · exact enqueue_isolated sound nonempty
          (intact.failed "").not_abandons
      · exact absurd (sturdy _ rfl) (by assumption)
      · exact clearRetry_isolated sound intact

theorem terminate_isolated (sound : world.store.Sound)
    (sameID : inst.id = id) (nonempty : id ≠ "") (intact : Intact history) :
    SturdySafe (Isolated id) (terminate inst) world history := by
  unfold terminate
  split
  · exact sturdy_external _ sound intact
      (fun sound failed => fail_isolated sound sameID nonempty failed)
      fun sound intact => releaseENI_isolated sound sameID nonempty intact
  · exact releaseENI_isolated sound sameID nonempty intact

/-- The call either gives the failure of its answer or breaks nothing. -/
theorem converge_ready {rest : Except Failure Bool → Pass}
    (sound : world.store.Sound) (intact : Intact history)
    (fails : ∀ {failure after history}, after.store.Sound →
      Failed history failure.text →
        SturdySafe (Isolated id) (rest (.error failure)) after history)
    (succeeds : ∀ {isReady after history}, after.store.Sound →
      Intact history →
        SturdySafe (Isolated id) (rest (.ok isReady)) after history) :
    SturdySafe (Isolated id) (ready inst >>= rest) world history := by
  refine sturdy_external (.ready inst) sound intact
    (fun sound failed => fails sound failed)
    fun {_ _ history} sound intact => ?_
  refine sturdy_invoke (.getSubnet inst.workspaceID inst.subnetID) sound
    fun {before subnet after} _ _ sound _ _ => ?_
  have intact : Intact (history ++ [⟨before, .getSubnet inst.workspaceID
      inst.subnetID, subnet, after⟩]) :=
    intact.append ⟨fun _ => not_false, fun _ => not_false⟩
  cases subnet with
  | error failure => exact fails sound (intact.failed _)
  | ok subnet =>
      refine sturdy_invoke (.getVPC inst.workspaceID subnet.vpcID) sound
        fun {later vpc after} _ _ sound _ _ => ?_
      have intact := intact.append (⟨fun _ => not_false, fun _ => not_false⟩ :
        PassEvent.Smooth ⟨later, .getVPC inst.workspaceID _, vpc, after⟩)
      cases vpc with
      | error failure => exact fails sound (intact.failed _)
      | ok vpc => exact succeeds sound intact

theorem converge_isolated (sound : world.store.Sound) (sameID : inst.id = id)
    (nonempty : id ≠ "") (intact : Intact history) :
    SturdySafe (Isolated id) (converge id inst) world history := by
  refine converge_ready sound intact
    (fun sound failed => fail_isolated sound sameID nonempty failed)
    fun {isReady _ _} sound intact => ?_
  cases isReady with
  | false => exact isolated_nothing intact
  | true =>
      dsimp only
      split
      · refine sturdy_external _ sound intact
          (fun sound failed => fail_isolated sound sameID nonempty failed)
          fun {running after history} sound intact => ?_
        cases running with
        | true => exact clearRetry_isolated sound intact
        | false => exact launch_isolated sound sameID nonempty intact
      · exact launch_isolated sound sameID nonempty intact

theorem reconcileLocked_isolated (sound : world.store.Sound)
    (nonempty : id ≠ "") : SturdySafe (Isolated id) (reconcileLocked id) world [] := by
  refine sturdy_invoke _ sound
    fun {before loaded after} _ _ sound behaves sturdy => ?_
  have intact : Intact ([] ++ [⟨before, .getInstance id, loaded, after⟩]) :=
    Intact.append (fun _ member => by cases member)
      ⟨fun _ => not_false, fun _ => not_false⟩
  obtain ⟨found, rfl⟩ := behaves.getInstance
  obtain ⟨row, -, eni, sameID, rfl⟩ :=
    getInstance_onlyStale sound found sturdy
  dsimp only
  split
  · exact terminate_isolated sound sameID nonempty intact
  · exact converge_isolated sound sameID nonempty intact

/-- The passes of a sweep, one after the other. -/
theorem reconcilePage_isolated {page : List Instance}
    (nonempty : ∀ inst ∈ page, inst.id ≠ "") (sound : world.store.Sound) :
    SturdySafe (fun result history => ∀ failure, result = .error failure →
      Abandons history) (reconcilePage page) world history := by
  induction page generalizing world history with
  | nil => exact fun failure impossible => by cases impossible
  | cons inst page induction =>
      rw [List.forall_mem_cons] at nonempty
      have pass := (reconcileLocked_isolated sound nonempty.1).resume sound
        history
      rw [List.append_nil] at pass
      refine pass.bind trivial fun {result traced} _ ended => ?_
      obtain ⟨later, all⟩ := traced
      obtain ⟨sound, own, same, isolated⟩ := ended
      obtain rfl : all = history ++ own := same
      cases result with
      | error failure =>
          rcases isolated with ⟨-, abandons⟩ | ⟨impossible, -⟩
          · exact fun _ _ => abandons.later history
          · cases impossible
      | ok value => exact induction nonempty.2 sound

end InstanceController

/-- How a pass over a VPC ends. -/
def Contained (id : ID) (result : Except Failure Unit)
    (history : List PassEvent) : Prop :=
  result = .ok () ∧ ∀ cause, (∃ event ∈ history, event.Breaks cause) →
    Handles history .vpc id cause

/-- Nothing is below a VPC once it has a deletion request. -/
theorem Store.Sound.childless_later {store later : Store}
    (sound : store.Sound) (laterSound : later.Sound)
    (evolves : store.Evolves later) {vpc : VPC} (member : vpc ∈ store.vpcs)
    (requested : vpc.deletionRequested = true) :
    later.listSubnetsByVPC vpc.id = .ok [] := by
  obtain ⟨children, listed⟩ := laterSound.listSubnetsByVPC_total vpc.id
  rw [listed]
  cases children with
  | nil => rfl
  | cons subnet rest =>
      obtain ⟨inside, owner⟩ := (Store.mem_listSubnetsByVPC listed).mp
        (List.mem_cons_self ..)
      obtain ⟨parent, parentMember, sameID, live, -⟩ :=
        laterSound.topology.subnetParent subnet inside
      have evolved := evolves.vpc sound member parentMember
        (sameID.trans owner)
      rw [evolved.requested requested] at live
      cases live

theorem recordTopology_fails {before after : World} {vpc : VPC}
    {subnets : List Subnet} {cause : String} {result : Unit}
    (sound : before.store.Sound)
    (behaves : before.Behaves (.recordTopology vpc subnets (some cause))
      (.ok result) after) :
    ∃ row ∈ after.store.vpcs, row.id = vpc.id ∧ row.state = .failed ∧
      row.stateReason = cause := by
  obtain ⟨now, outcome, rfl⟩ := behaves.recordTopology
  rcases commit_cases (recordTopology vpc subnets (some cause) now)
    before.store with ⟨failure, failed⟩ | ⟨value, final, run, committed⟩
  · rw [Store.withTx, failed] at outcome
    cases outcome
  · rw [Store.withTx, committed]
    obtain ⟨current, children, matched, removed | kept⟩ :=
      recordTopology_ok sound.keyed run
    · exact absurd removed.2.1 (Option.some_ne_none cause)
    · obtain ⟨-, middle, first, rest⟩ := kept
      have members : ∀ child ∈ children, child ∈ middle.subnets := by
        intro child inside
        rw [vpcEdits_subnets first]
        exact ((Store.mem_listSubnetsByVPC matched.listed).mp inside).1
      obtain ⟨loop, -⟩ := each_recordChild_run
        (Edit.Allowed.run_keyed first sound.keyed) members
        (Store.unique_listSubnetsByVPC sound.keyed matched.listed)
        (engineOutcome (some cause)) rest
      have rows := edits_run_vpcs loop fun edit member => by
        obtain ⟨child, -, inside⟩ := List.mem_flatMap.mp member
        exact childEdits_vpcs inside
      rw [vpcEdits_vpcs sound.keyed matched.member first] at rows
      refine ⟨current.withStatus .failed cause false, ?_, matched.id, rfl,
        rfl⟩
      rw [rows]
      have sameID : (current.withStatus .failed cause false).id =
        current.id := rfl
      exact (mem_replace_iff matched.member sameID).mpr (.inl rfl)

namespace VPCController

variable {id : ID} {world : World} {history : List PassEvent}

/-- What the calls of the pass have left to record. -/
def Outcome (history : List PassEvent) : Option String → Prop
  | none => Intact history
  | some cause => Failed history cause

theorem Outcome.smooth {effectErr : Option String} {event : PassEvent}
    (outcome : Outcome history effectErr) (smooth : event.Smooth) :
    Outcome (history ++ [event]) effectErr := by
  cases effectErr with
  | none => exact Intact.append outcome smooth
  | some cause => exact Failed.smooth outcome smooth

theorem record_contained {vpc : VPC} {subnets : List Subnet}
    {effectErr : Option String} (sound : world.store.Sound)
    (nonempty : vpc.id ≠ "") (outcome : Outcome history effectErr) :
    SturdySafe (Contained vpc.id) (record vpc subnets effectErr) world history := by
  refine sturdy_invoke _ sound
    fun {before cancelled after} _ _ sound _ live => ?_
  have outcome : Outcome (history ++ [⟨before, .contextErr, cancelled,
      after⟩]) effectErr :=
    outcome.smooth ⟨fun _ => not_false, fun _ => not_false⟩
  obtain rfl : cancelled = false := live
  refine sturdy_invoke _ sound
    fun {writes recorded written} _ sound afterSound behaves sturdy => ?_
  have outcome : Outcome (_ ++ [⟨writes, .recordTopology vpc subnets
      effectErr, recorded, written⟩]) effectErr :=
    outcome.smooth ⟨fun _ => not_false, fun _ => not_false⟩
  split
  · refine sturdy_invoke _ afterSound
      fun {before _ after} _ _ _ behaves _ => ?_
    exact ⟨rfl, fun cause _ =>
      handles_enqueue nonempty behaves _ cause⟩
  · exact absurd (sturdy _ rfl) (by assumption)
  · rename_i value
    cases effectErr with
    | none =>
        refine sturdy_invoke (.clearRetry .vpc vpc.id) afterSound
          fun {before _ after} _ _ _ _ _ => ?_
        have intact : Intact (_ ++ [⟨before, .clearRetry .vpc vpc.id, (),
            after⟩]) :=
          Intact.append outcome ⟨fun _ => not_false, fun _ => not_false⟩
        exact ⟨rfl, fun cause breaks =>
          absurd breaks fun ⟨event, member, breaks⟩ =>
            (intact event member).1 cause breaks⟩
    | some cause =>
        have records : PassEvent.RecordsFailure ⟨writes,
            .recordTopology vpc subnets (some cause), .ok value, written⟩
            .vpc vpc.id cause := ⟨rfl, recordTopology_fails sound behaves⟩
        refine sturdy_invoke (.retry .vpc vpc.id) afterSound
          fun {before _ after} _ _ _ retried _ => ?_
        have failed : Failed (_ ++ [⟨before, .retry .vpc vpc.id, (),
            after⟩]) cause :=
          Failed.smooth outcome ⟨fun _ => not_false, fun _ => not_false⟩
        refine ⟨rfl, fun other breaks => .inl ⟨?_, ?_⟩⟩
        · rw [failed.causes other breaks]
          exact ⟨_, by simp, records⟩
        · exact ⟨_, by simp, PassEvent.retries_retry retried⟩

theorem reconcileLocked_contained (sound : world.store.Sound)
    (nonempty : id ≠ "") :
    SturdySafe (Contained id) (reconcileLocked id) world [] := by
  refine sturdy_invoke _ sound
    fun {first loaded after} _ _ sound behaves sturdy => ?_
  have intact : Intact ([] ++ [⟨first, .getVPC defaultWorkspace id, loaded,
      after⟩]) :=
    Intact.append (fun _ member => by cases member)
      ⟨fun _ => not_false, fun _ => not_false⟩
  obtain ⟨found, rfl⟩ := behaves.getVPC
  rcases sound.getVPC_cases id with
    ⟨vpc, member, rfl, isOk⟩ | ⟨-, missing⟩
  · obtain rfl := found.trans isOk
    have earlier := sound
    refine sturdy_invoke _ sound
      fun {second listed after} evolves laterSound sound behaves _ => ?_
    have intact : Intact (_ ++ [⟨second, .listSubnetsByVPC vpc.id, listed,
        after⟩]) :=
      intact.append ⟨fun _ => not_false, fun _ => not_false⟩
    obtain ⟨read, rfl⟩ := behaves.listSubnetsByVPC
    cases requested : vpc.deletionRequested with
    | true =>
        obtain rfl := read.trans (earlier.childless_later sound evolves member
          requested)
        simp only [ne_eq, not_true_eq_false, if_false, if_true]
        exact sturdy_external _ sound intact
          (fun sound failed => record_contained sound nonempty failed)
          fun sound intact => record_contained sound nonempty intact
    | false =>
        obtain ⟨subnets, isOk⟩ := sound.listSubnetsByVPC_total vpc.id
        obtain rfl := read.trans isOk
        simp only [Bool.false_eq_true, if_false]
        exact sturdy_external _ sound intact
          (fun sound failed => record_contained sound nonempty failed)
          fun sound intact => record_contained sound nonempty intact
  · exact absurd (sturdy .noRows (found.trans missing)) nofun

theorem reconcileAll_contained {vpcs : List VPC}
    (nonempty : ∀ vpc ∈ vpcs, vpc.id ≠ "") (sound : world.store.Sound) :
    SturdySafe (fun result _ => result = .ok ()) (reconcileAll vpcs) world
      history := by
  induction vpcs generalizing world history with
  | nil => rfl
  | cons vpc vpcs induction =>
      rw [List.forall_mem_cons] at nonempty
      have pass := (reconcileLocked_contained sound nonempty.1).resume sound
        history
      rw [List.append_nil] at pass
      refine pass.bind trivial fun {result traced} _ ended => ?_
      obtain ⟨later, all⟩ := traced
      obtain ⟨sound, own, -, rfl, -⟩ := ended
      exact induction nonempty.2 sound

end VPCController

instance {α : Type} : (result : Except Failure α) →
    Decidable (OnlyStale result)
  | .ok _ => isTrue nofun
  | .error failure => decidable_of_iff (failure = .staleSnapshot)
      ⟨fun stale _ same => by cases same; exact stale, fun only => only _ rfl⟩

instance : (op : Op) → (result : op.Result) → Decidable (op.Sturdy result)
  | .contextErr, cancelled => inferInstanceAs (Decidable (cancelled = false))
  | .getInstance .., result | .getSubnet .., result | .getVPC .., result
  | .listSubnetsByVPC .., result | .recordTopology .., result
  | .recordRuntimeID .., result | .retainTerminatingRuntimeID .., result
  | .recordInstance .., result | .finishInstanceTermination .., result =>
      inferInstanceAs (Decidable (OnlyStale result))
  | .listVPCPage .., _ | .listInstancePage .., _ | .loadPlumbing .., _
  | .act .., _ | .answer .., _ | .enqueue .., _ | .retry .., _
  | .clearRetry .., _ => inferInstanceAs (Decidable True)

instance (event : PassEvent) (cause : String) :
    Decidable (event.Breaks cause) := by
  unfold PassEvent.Breaks
  split <;> infer_instance

instance (event : PassEvent) (controller : Controller) :
    Decidable (event.Drops controller) := by
  unfold PassEvent.Drops
  split <;> infer_instance

/-- The failure is on the row and retried, or the resource is pending
again. -/
def Recovers (history : List PassEvent) (controller : Controller) (id : ID)
    (cause : String) : Prop :=
  (∃ event ∈ history, event.RecordsFailure controller id cause) ∧
      (∃ event ∈ history, event.Retries controller id) ∨
    ∃ event ∈ history, event.Requeues controller id

theorem Handles.recovers {history : List PassEvent} {controller : Controller}
    {id : ID} {cause : String} (handles : Handles history controller id cause)
    (room : ∀ event ∈ history, ¬ event.Drops controller) :
    Recovers history controller id cause := by
  rcases handles with recorded | requeued | ⟨event, member, drops⟩
  · exact .inl recorded
  · exact .inr requeued
  · exact absurd drops (room event member)

/-- When no operation of the store fails, a pass over an instance returns an
error exactly if it could neither retain nor delete a container, and a pass
over a VPC never does.  Otherwise every failed call is on the row and
retried, or the resource is pending again.  So no other failure ends a
sweep. -/
theorem passes_isolated {world : World} {events : List PassEvent}
    {result : Except Failure Unit}
    (reachable : database.Reachable world.store) :
    (∀ id, id ≠ "" → sturdy.Executes (InstanceController.reconcileLocked id)
        world events (.done result) →
      ((∃ failure, result = .error failure) ↔ Abandons events) ∧
        (¬ Abandons events → (∀ event ∈ events, ¬ event.Drops .inst) →
          ∀ cause, (∃ event ∈ events, event.Breaks cause) →
            Recovers events .inst id cause)) ∧
    (∀ id, id ≠ "" → sturdy.Executes (VPCController.reconcileLocked id)
        world events (.done result) →
      result = .ok () ∧ ((∀ event ∈ events, ¬ event.Drops .vpc) →
        ∀ cause, (∃ event ∈ events, event.Breaks cause) →
          Recovers events .vpc id cause)) ∧
    (∀ page : List Instance, (∀ inst ∈ page, inst.id ≠ "") →
      sturdy.Executes (InstanceController.reconcilePage page) world events
        (.done result) → ¬ Abandons events → result = .ok ()) ∧
    ∀ vpcs : List VPC, (∀ vpc ∈ vpcs, vpc.id ≠ "") →
      sturdy.Executes (VPCController.reconcileAll vpcs) world events
        (.done result) → result = .ok () := by
  have sound := database_reachable_sound reachable
  have ends {pass : Pass} {post : Except Failure Unit → List PassEvent → Prop}
      (safe : SturdySafe post pass world [])
      (executes : sturdy.Executes pass world events (.done result)) :
      post result events := by
    obtain ⟨-, complete⟩ := executes.safe safe trivial
    obtain ⟨_, holds⟩ := complete result rfl
    exact holds
  refine ⟨fun id nonempty executes => ?_, fun id nonempty executes => ?_,
    fun page nonempty executes kept => ?_, fun vpcs nonempty executes => ?_⟩
  · rcases ends (InstanceController.reconcileLocked_isolated sound nonempty)
      executes with ⟨failed, abandons⟩ | ⟨rfl, kept, handles⟩
    · exact ⟨⟨fun _ => abandons, fun _ => failed⟩,
        fun not => absurd abandons not⟩
    · have returns : ¬ ∃ failure,
          (.ok () : Except Failure Unit) = .error failure :=
        fun ⟨_, impossible⟩ => by cases impossible
      exact ⟨iff_of_false returns kept, fun _ room cause breaks =>
        (handles cause breaks).recovers room⟩
  · obtain ⟨isOk, handles⟩ :=
      ends (VPCController.reconcileLocked_contained sound nonempty) executes
    exact ⟨isOk, fun room cause breaks =>
      (handles cause breaks).recovers room⟩
  · have returns := ends
      (InstanceController.reconcilePage_isolated nonempty sound) executes
    cases result with
    | error failure => exact absurd (returns failure rfl) kept
    | ok value => rfl
  · exact ends (VPCController.reconcileAll_contained nonempty sound) executes

/-- The network of a new instance cannot be looked up, which is on its
row. -/
theorem firstFailure_isolated :
    ∃ (daemon : Daemon) (events : List PassEvent),
      system.Reachable daemon ∧
      sturdy.Executes
        (InstanceController.reconcileLocked "i-03030303030303030")
        daemon.world events (.done (.ok ())) ∧
      (∃ event ∈ events, event.Breaks "boom") ∧
      Recovers events .inst "i-03030303030303030" "boom" := by
  have runs : ((Daemon.initial []).run
      (firstNetwork ++ (firstRequests.drop 2).map .serve)).any (fun daemon =>
        (daemon.world.execute
          (InstanceController.reconcileLocked "i-03030303030303030")
          [ .plain, .plain, .fails "boom", .plain, .clock 3,
            .clock 3 ]).any fun (events, rest) =>
              Pass.succeeded rest && decide
                ((∀ event ∈ events, event.op.Sturdy event.result) ∧
                  (∀ event ∈ events, ¬ event.Drops .inst) ∧
                  ∃ event ∈ events, event.Breaks "boom")) = true := by
    decide +kernel
  obtain ⟨daemon, ran, checked⟩ := (Option.any_eq_true _ _).mp runs
  obtain ⟨⟨events, rest⟩, executed, checked⟩ :=
    (Option.any_eq_true _ _).mp checked
  rw [Bool.and_eq_true, decide_eq_true_iff] at checked
  obtain ⟨isDone, all, room, breaks⟩ := checked
  have executes : sturdy.Executes _ daemon.world events rest :=
    Setting.Executes.restrict
      (World.execute_executes (fun behaves => behaves) executed) all
  rw [Pass.succeeded_eq isDone] at executes
  have reachable := Daemon.run_reachable ran
  obtain ⟨returns, recovers⟩ := (passes_isolated
    (Daemon.database_reachable reachable)).1 _ (by decide) executes
  have kept : ¬ Abandons events := fun abandons => by
    obtain ⟨failure, impossible⟩ := returns.mpr abandons
    cases impossible
  exact ⟨daemon, events, reachable, executes, breaks,
    recovers kept room "boom" breaks⟩

/-- The container of an instance is lost, and its successor can be neither
recorded nor deleted. -/
theorem lostContainer_stops :
    ∃ (daemon : Daemon) (events : List PassEvent),
      system.Reachable daemon ∧
      sturdy.Executes
        (InstanceController.reconcileLocked "i-03030303030303030")
        daemon.world events (.done (.error (.other
          ("record runtime i-03030303030303030: desired resource snapshot " ++
            "changed during reconciliation; cleanup failed: boom")))) ∧
      ∃ event ∈ events, event.Breaks "boom" := by
  have runs : ((Daemon.initial []).run lostContainer).any (fun daemon =>
      (daemon.world.execute
        (InstanceController.reconcileLocked "i-03030303030303030")
        [ .plain, .plain, .succeeds, .plain, .plain, .plain, .succeeds,
          .created "c2", .succeeds, .plain, .plain, .plain,
          .fails "boom" ]).any
        fun (events, rest) => Pass.stops rest
          ("record runtime i-03030303030303030: desired resource snapshot " ++
            "changed during reconciliation; cleanup failed: boom") && decide
          ((∀ event ∈ events, event.op.Sturdy event.result) ∧
            ∃ event ∈ events, event.Breaks "boom")) = true := by
    decide +kernel
  obtain ⟨daemon, ran, checked⟩ := (Option.any_eq_true _ _).mp runs
  obtain ⟨⟨events, rest⟩, executed, checked⟩ :=
    (Option.any_eq_true _ _).mp checked
  rw [Bool.and_eq_true, decide_eq_true_iff] at checked
  obtain ⟨isDone, all, breaks⟩ := checked
  have executes : sturdy.Executes _ daemon.world events rest :=
    Setting.Executes.restrict
      (World.execute_executes (fun behaves => behaves) executed) all
  rw [Pass.stops_eq isDone] at executes
  exact ⟨daemon, events, Daemon.run_reachable ran, executes, breaks⟩

end Nephos
