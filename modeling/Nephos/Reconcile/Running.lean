import Nephos.KeyedCreates
import Nephos.Reconcile.Lookups

/-!
# Running instances

An instance is recorded as running only by a pass that has found its network
ready, got a container for it, put the container's identity on the row,
started the container and seen it run.  A termination may be requested in any
gap between these steps; from then on no pass records the instance as
running, and none that reads the row again starts its container.
-/

namespace Nephos

open Effects Transaction

/-- The row shows a running instance of the desired generation. -/
def InstanceRow.Runs (row : InstanceRow) : Prop :=
  row.state = .running ∧ row.observedGeneration = row.generation

instance (row : InstanceRow) : Decidable row.Runs :=
  inferInstanceAs (Decidable (_ ∧ _))

def Store.Running (store : Store) (id : ID) : Prop :=
  ∃ row ∈ store.instances, row.id = id ∧ row.Runs

instance (store : Store) (id : ID) : Decidable (store.Running id) :=
  inferInstanceAs (Decidable (∃ row ∈ store.instances, _))

section Edits

variable {store final : Store} {edit : Edit} {id : ID}

theorem Store.Running.replaced {other : Store} (running : other.Running id)
    {row : InstanceRow} (replacement : InstanceRow)
    (replaces : other.instances =
      replace InstanceRow.id replacement store.instances)
    (member : row ∈ store.instances) (sameID : replacement.id = row.id)
    (runs : replacement.Runs → row.Runs) : store.Running id := by
  obtain ⟨found, inside, foundID, foundRuns⟩ := running
  rw [replaces, mem_replace_iff member sameID] at inside
  rcases inside with rfl | ⟨old, -⟩
  · exact ⟨row, member, sameID.symm.trans foundID, runs foundRuns⟩
  · exact ⟨found, old, foundID, foundRuns⟩

/-- Only a status makes an instance a running one. -/
theorem Edit.Allowed.running (allowed : edit.Allowed store)
    (calm : ∀ row eni reason observed time,
      edit ≠ .instanceStatus row eni .running reason observed time)
    (running : (edit.apply store).Running id) : store.Running id := by
  cases allowed with
  | @createInstance row eni subnet time parent parentID parentLive fresh =>
      obtain ⟨found, inside, foundID, runs⟩ := running
      rcases List.mem_append.mp inside with old | new
      · exact ⟨found, old, foundID, runs⟩
      · rw [List.mem_singleton.mp new, InstanceRow.Runs, fresh.state] at runs
        cases runs.1
  | @markInstance row time member live =>
      exact running.replaced row.marked rfl member rfl
        fun runs => by cases runs.1
  | @instanceStatus row eni status reason observed time member =>
      refine running.replaced (row.withStatus status reason observed) rfl
        member rfl fun runs => ?_
      obtain rfl : status = .running := runs.1
      exact absurd rfl (calm row eni reason observed time)
  | removeInstance member eniMember owner requested =>
      obtain ⟨found, inside, foundID, runs⟩ := running
      exact ⟨found, (mem_remove_iff.mp inside).1, foundID, runs⟩
  | @setRuntimeID row runtimeID member unset nonempty =>
      exact running.replaced { row with runtimeID := some runtimeID } rfl
        member rfl fun runs => runs
  | _ => exact running

theorem edits_run_running {labels : List Edit}
    (run : edits.Run store labels final)
    (calm : ∀ row eni reason observed time,
      .instanceStatus row eni .running reason observed time ∉ labels)
    (running : final.Running id) : store.Running id := by
  induction run with
  | nil store => exact running
  | @cons store middle final edit labels step _ induction =>
      obtain ⟨allowed, rfl⟩ := step
      have before := induction (fun row eni reason observed time member =>
        calm row eni reason observed time (List.mem_cons_of_mem _ member))
        running
      refine allowed.running (fun row eni reason observed time same => ?_)
        before
      exact calm row eni reason observed time (same ▸ List.mem_cons_self)

theorem Write.running {write : Write} (sound : store.Sound)
    (calm : ∀ snapshot reason observed now,
      write ≠ .recordInstance snapshot .running reason observed now)
    (running : (write.apply store).Running id) : store.Running id := by
  obtain ⟨labels, run, -, all⟩ := write.edited sound.keyed
  refine edits_run_running run ?_ running
  intro row eni reason observed time member
  have makes := all _ member
  cases write <;> try exact makes.elim
  obtain ⟨-, rfl, -⟩ := makes
  exact calm _ _ _ _ rfl

theorem Write.Outside.running {write : Write} (outside : write.Outside)
    (sound : store.Sound) (running : (write.apply store).Running id) :
    store.Running id := by
  apply write.running sound _ running
  rintro snapshot reason observed now rfl
  exact outside

end Edits

/-- A row with a deletion request has a generation that was never
observed. -/
def Store.Withheld (store : Store) : Prop :=
  ∀ row ∈ store.instances, row.deletionRequested = true →
    row.observedGeneration < row.generation

theorem Edit.Allowed.withheld {store : Store} {edit : Edit}
    (allowed : edit.Allowed store) (counted : store.Counted)
    (withheld : store.Withheld) : (edit.apply store).Withheld := by
  cases allowed with
  | @createInstance row eni subnet time parent parentID parentLive fresh =>
      refine forall_append withheld fun requested => ?_
      rw [fresh.live] at requested
      cases requested
  | @markInstance row time member live =>
      have sameID : row.marked.id = row.id := rfl
      refine forall_replace member sameID withheld fun _ => ?_
      have upper := (counted.instances row member).2.2
      change row.observedGeneration < row.generation + 1
      omega
  | @instanceStatus row eni status reason observed time member eniMember owner
      changes accepted =>
      have sameID : (row.withStatus status reason observed).id = row.id := rfl
      refine forall_replace member sameID withheld fun requested => ?_
      cases observed with
      | false => exact withheld row member requested
      | true =>
          have live := (accepted.2 rfl).2.1
          change row.deletionRequested = true at requested
          rw [live] at requested
          cases requested
  | removeInstance member eniMember owner requested =>
      exact fun row inside => withheld row (mem_remove_iff.mp inside).1
  | @setRuntimeID row runtimeID member unset nonempty =>
      have sameID : { row with runtimeID := some runtimeID }.id = row.id := rfl
      exact forall_replace member sameID withheld (withheld row member)
  | _ => exact withheld

theorem database_reachable_withheld {store : Store}
    (reachable : database.Reachable store) : store.Withheld := by
  obtain ⟨start, labels, rfl, run⟩ := database_reachable_edits reachable
  have holds := run.invariant
    (fun store => store.Valid ∧ store.Withheld)
    (fun {state edit next} held step => by
      obtain ⟨allowed, rfl⟩ := step
      exact ⟨⟨allowed.sound held.1.sound, allowed.counted held.1.counted⟩,
        allowed.withheld held.1.counted held.2⟩)
    ⟨⟨⟨.empty, .empty⟩, .empty⟩, fun _ member => by cases member⟩
  exact holds.2

theorem terminateSnapshot_requested {store : Store} {id : ID} {now : Time}
    {inst : Instance} (sound : store.Sound)
    (accepted : (terminateSnapshot id now store).result = .ok inst) :
    ∃ row ∈ (terminateSnapshot id now store).store.instances,
      row.id = id ∧ row.deletionRequested = true := by
  unfold terminateSnapshot at accepted ⊢
  rcases Outcome.ofTx_cases (terminateTx id now) (fun _ => id) store with
    ⟨failure, shape⟩ | ⟨value, changed, final, run, shape⟩
  · rw [shape] at accepted
    cases accepted
  · rw [shape]
    obtain ⟨row, member, eni, -, rfl, -, outcome⟩ :=
      terminateTx_ok sound.keyed run
    rcases outcome with ⟨requested, -, rfl⟩ | ⟨-, -, rfl⟩
    · exact ⟨row, member, rfl, requested⟩
    · have sameID : row.marked.id = row.id := rfl
      exact ⟨row.marked, (mem_replace_iff member sameID).mpr (.inl rfl), rfl,
        rfl⟩

/-- After a request to terminate an instance its row has the request for as
long as it is there. -/
theorem terminateSnapshot_kept {store later : Store} {id : ID} {now : Time}
    {inst : Instance} {writes : List Write}
    (reachable : database.Reachable store)
    (accepted : (terminateSnapshot id now store).result = .ok inst)
    (run : database.Run (terminateSnapshot id now store).store writes later) :
    database.Reachable later ∧ ∀ row ∈ later.instances, row.id = id →
      row.deletionRequested = true := by
  have step : database.Step store (.terminateSnapshot id now)
      (terminateSnapshot id now store).store := rfl
  have committed := reachable.step step
  have sound := database_reachable_sound committed
  obtain ⟨old, oldMember, oldID, requested⟩ :=
    terminateSnapshot_requested (database_reachable_sound reachable) accepted
  refine ⟨committed.run run, fun row member sameID => ?_⟩
  have evolved := (database_run_evolves run sound).1.inst sound oldMember
    member (sameID.trans oldID.symm)
  exact evolved.requested requested

/-- Such an instance is not a running one. -/
theorem Store.Withheld.not_running {store : Store} {id : ID}
    (withheld : store.Withheld)
    (requested : ∀ row ∈ store.instances, row.id = id →
      row.deletionRequested = true) : ¬ store.Running id := by
  rintro ⟨row, member, sameID, runs⟩
  have behind := withheld row member (requested row member sameID)
  rw [runs.2] at behind
  exact absurd behind (Int.lt_irrefl _)

namespace PassEvent

/-- The event makes the instance a running one. -/
def SetsRunning (event : PassEvent) (id : ID) : Prop :=
  event.after.store.Running id ∧ ¬ event.before.store.Running id

instance (event : PassEvent) (id : ID) : Decidable (event.SetsRunning id) :=
  inferInstanceAs (Decidable (_ ∧ _))

def ReadsSubnet (subnet : Subnet) (event : PassEvent) : Prop :=
  match event with
  | ⟨_, .getSubnet _ _, .ok found, _⟩ => found = subnet
  | _ => False

def ReadsVPC (subnet : Subnet) (vpc : VPC) (event : PassEvent) : Prop :=
  match event with
  | ⟨_, .getVPC _ vpcID, .ok found, _⟩ => vpcID = subnet.vpcID ∧ found = vpc
  | _ => False

/-- The runtime has returned the container of the instance. -/
def Creates (id : ID) (runtimeID : RuntimeID) (event : PassEvent) : Prop :=
  match event with
  | ⟨_, .answer (.create inst), .ok made, _⟩ =>
      inst.id = id ∧ made = runtimeID
  | _ => False

/-- The identity of the container is on the row. -/
def Names (id : ID) (runtimeID : RuntimeID) (event : PassEvent) : Prop :=
  match event with
  | ⟨_, .recordRuntimeID _ _ _, .ok _, after⟩ =>
      ∃ row ∈ after.store.instances, row.id = id ∧
        row.runtimeID = some runtimeID
  | _ => False

/-- The start of the container is issued. -/
def Starts (runtimeID : RuntimeID) (event : PassEvent) : Prop :=
  match event with
  | ⟨_, .act (.start started), _, _⟩ => started = runtimeID
  | _ => False

/-- The start of the container has succeeded. -/
def Started (runtimeID : RuntimeID) (event : PassEvent) : Prop :=
  match event with
  | ⟨_, .answer (.start started), .ok _, _⟩ => started = runtimeID
  | _ => False

/-- The runtime reports that the container runs. -/
def SeesRunning (runtimeID : RuntimeID) (event : PassEvent) : Prop :=
  match event with
  | ⟨_, .answer (.inspect inspected), .ok true, _⟩ => inspected = runtimeID
  | _ => False

/-- The row is read when it is gone or has a deletion request. -/
def SeesRequest (id : ID) (event : PassEvent) : Prop :=
  match event with
  | ⟨before, .getInstance _, _, _⟩ =>
      ∀ row ∈ before.store.instances, row.id = id →
        row.deletionRequested = true
  | _ => False

end PassEvent

/-- What `ready` demands of the two rows it reads. -/
def networkReady (subnet : Subnet) (vpc : VPC) : Bool :=
  !subnet.deletionRequested && !vpc.deletionRequested &&
    subnet.state == .available && vpc.state == .available &&
    subnet.observedGeneration == subnet.generation &&
    vpc.observedGeneration == vpc.generation

/-- The pass has found the network of the instance ready. -/
def readySteps (subnet : Subnet) (vpc : VPC) : List (PassEvent → Prop) :=
  [PassEvent.ReadsSubnet subnet, PassEvent.ReadsVPC subnet vpc]

/-- Then it has made, named and started a container and seen it run. -/
def runningSteps (subnet : Subnet) (vpc : VPC) (id : ID)
    (runtimeID : RuntimeID) : List (PassEvent → Prop) :=
  readySteps subnet vpc ++ [PassEvent.Creates id runtimeID] ++
    [PassEvent.Names id runtimeID] ++ [PassEvent.Starts runtimeID] ++
    [PassEvent.Started runtimeID] ++ [PassEvent.SeesRunning runtimeID]

/-- What has led a pass over the instance to the event. -/
structure Justified (id : ID) (front : List PassEvent) (event : PassEvent) :
    Prop where
  running : ∀ other, event.SetsRunning other → other = id ∧
    ∃ row ∈ event.before.store.instances, row.id = id ∧
      row.deletionRequested = false ∧ ∃ runtimeID subnet vpc,
        row.runtimeID = some runtimeID ∧ subnet.id = row.subnetID ∧
          networkReady subnet vpc = true ∧
          InOrder (runningSteps subnet vpc id runtimeID) front
  starts : ∀ runtimeID, event.Starts runtimeID →
    ∀ earlier ∈ front, ¬ earlier.SeesRequest id

/-- The operations that neither start a container nor record a running
instance. -/
def Op.Modest : Op → Prop
  | .act (.start _) | .recordInstance _ .running _ _ => False
  | _ => True

/-- The operations that do not end a termination. -/
def Op.Unfinished : Op → Prop
  | .finishInstanceTermination _ => False
  | _ => True

theorem Op.Unfinished.ne {op : Op} (unfinished : op.Unfinished)
    (snapshot : Instance) : op ≠ .finishInstanceTermination snapshot := by
  rintro rfl
  exact unfinished

theorem World.Behaves.modest {before after : World} {op : Op}
    {result : op.Result} (behaves : before.Behaves op result after)
    (sound : before.store.Sound) (modest : op.Modest) (id : ID)
    (front : List PassEvent) :
    Justified id front ⟨before, op, result, after⟩ where
  running other sets := by
    refine absurd ?_ sets.2
    have running : after.store.Running other := sets.1
    rcases behaves.store_within with same | ⟨write, writes, same⟩
    · rwa [same] at running
    · rw [same] at running
      apply write.running sound _ running
      rintro snapshot reason observed now rfl
      cases op <;> try exact writes.elim
      case recordTopology => obtain ⟨_, impossible⟩ := writes; cases impossible
      case recordRuntimeID => cases writes
      case retainTerminatingRuntimeID => cases writes
      case finishInstanceTermination =>
        obtain ⟨_, impossible⟩ := writes
        cases impossible
      case recordInstance =>
        obtain ⟨_, same⟩ := writes
        cases same
        exact modest
  starts runtimeID starts := by
    cases op <;> try exact starts.elim
    rename_i call
    cases call <;> try exact starts.elim
    exact modest.elim

/-- The pass keeps every event of the history justified. -/
def RunSafe {α : Type} (id : ID)
    (post : α → Traced Op Op.Result World → Prop) (program : Call α)
    (world : World) (history : List PassEvent) : Prop :=
  (served.contract (Every (Justified id))).Safe post program ⟨world, history⟩

/-- The steps are done, and no request was seen. -/
structure Progress (id : ID) (steps : List (PassEvent → Prop))
    (history : List PassEvent) : Prop where
  order : InOrder steps history
  unseen : ∀ event ∈ history, ¬ event.SeesRequest id

section Rules

variable {α : Type} {id : ID} {post : α → Traced Op Op.Result World → Prop}
  {world : World} {history : List PassEvent} {inst : Instance}
  {steps : List (PassEvent → Prop)}

theorem Progress.later (progress : Progress id steps history)
    {event : PassEvent} (unseen : ¬ event.SeesRequest id) :
    Progress id steps (history ++ [event]) :=
  ⟨progress.order.later event, forall_append progress.unseen unseen⟩

theorem Progress.snoc (progress : Progress id steps history)
    {event : PassEvent} (unseen : ¬ event.SeesRequest id)
    {step : PassEvent → Prop} (last : step event) :
    Progress id (steps ++ [step]) (history ++ [event]) :=
  ⟨progress.order.snoc last, forall_append progress.unseen unseen⟩

/-- The rule for an operation that neither starts a container nor records a
running instance. -/
theorem run_invoke (op : Op) {rest : op.Result → Call α}
    (sound : world.store.Sound) (modest : op.Modest)
    (rule : ∀ {before result after}, before.store.Sound →
      after.store.Sound → before.Behaves op result after →
        RunSafe id post (rest result) after
          (history ++ [⟨before, op, result, after⟩])) :
    RunSafe id post (invoke op >>= rest) world history := by
  refine traced_invoke op fun {before result after} kept others behaves => ?_
  have served := others.kept sound
  exact ⟨kept.snoc (behaves.modest served.sound modest id history),
    rule served.sound (behaves.store_within.sound served.sound) behaves⟩

theorem modest_runSafe {program : Call α} (sound : world.store.Sound)
    (uses : program.Uses Op.Modest) :
    RunSafe id (fun _ _ => True) program world history := by
  induction program generalizing world history with
  | done value => trivial
  | call op next induction =>
      exact run_invoke op sound uses.1 fun _ sound _ =>
        induction _ sound (uses.2 _)

/-- The rule for such an operation before the end of a termination. -/
theorem lodged_invoke (op : Op) {rest : op.Result → Call α}
    (lodges : world.store.Lodges inst) (modest : op.Modest)
    (unfinished : op.Unfinished)
    (rule : ∀ {before result after}, RowsKept world.store before.store →
      before.store.Lodges inst → RowsKept world.store after.store →
      after.store.Lodges inst → before.Behaves op result after →
        RunSafe id post (rest result) after
          (history ++ [⟨before, op, result, after⟩])) :
    RunSafe id post (invoke op >>= rest) world history := by
  refine traced_invoke op fun {before result after} kept others behaves => ?_
  have served := others.kept lodges.sound
  have rows := served.rows.trans
    (behaves.rowsKept served.sound unfinished.ne)
  have sound := behaves.store_within.sound served.sound
  exact ⟨kept.snoc (behaves.modest served.sound modest id history),
    rule served.rows (lodges.later served.rows served.sound) rows
      (lodges.later rows sound) behaves⟩

end Rules

/-- The instance is there, with the identity of its container. -/
structure Store.Carries (store : Store) (inst : Instance)
    (runtimeID : RuntimeID) : Prop where
  lodges : store.Lodges inst
  named : ∃ row ∈ store.instances, row.id = inst.id ∧
    row.runtimeID = some runtimeID

theorem Store.Carries.later {store later : Store} {inst : Instance}
    {runtimeID : RuntimeID} (carries : store.Carries inst runtimeID)
    (kept : RowsKept store later) (sound : later.Sound) :
    later.Carries inst runtimeID := by
  obtain ⟨row, member, sameID, named⟩ := carries.named
  obtain ⟨still, inside, stillID⟩ := kept.instances row member
  have evolved := kept.evolves.inst carries.lodges.sound member inside stillID
  exact ⟨carries.lodges.later kept sound, still, inside,
    stillID.trans sameID, evolved.runtimeID _ named⟩

/-- There is one row of the instance, with all that is known of it. -/
theorem Store.Carries.row {store : Store} {inst : Instance}
    {runtimeID : RuntimeID} (carries : store.Carries inst runtimeID)
    {row : InstanceRow} (member : row ∈ store.instances)
    (sameID : row.id = inst.id) :
    row.runtimeID = some runtimeID ∧ row.subnetID = inst.subnetID := by
  have unique := carries.lodges.sound.keyed.instances.unique
  obtain ⟨named, namedInside, namedID, hasName⟩ := carries.named
  obtain ⟨lodged, lodgedInside, lodgedID, lodgedSubnet⟩ := carries.lodges.row
  rw [unique.eq_of_mem member namedInside (sameID.trans namedID.symm)]
  rw [unique.eq_of_mem lodgedInside namedInside
    (lodgedID.trans namedID.symm)] at lodgedSubnet
  exact ⟨hasName, lodgedSubnet⟩

theorem carried_invoke {α : Type} {id : ID}
    {post : α → Traced Op Op.Result World → Prop} {world : World}
    {history : List PassEvent} {inst : Instance} {runtimeID : RuntimeID}
    (op : Op) {rest : op.Result → Call α}
    (carries : world.store.Carries inst runtimeID) (modest : op.Modest)
    (unfinished : op.Unfinished)
    (rule : ∀ {before result after},
      before.store.Carries inst runtimeID →
      after.store.Carries inst runtimeID → before.Behaves op result after →
        RunSafe id post (rest result) after
          (history ++ [⟨before, op, result, after⟩])) :
    RunSafe id post (invoke op >>= rest) world history :=
  lodged_invoke op carries.lodges modest unfinished
    fun keptBefore before keptAfter after behaves =>
      rule (carries.later keptBefore before.sound)
        (carries.later keptAfter after.sound) behaves

namespace InstanceController

variable {world : World} {history : List PassEvent} {id : ID}
  {inst : Instance} {runtimeID : RuntimeID} {subnet : Subnet} {vpc : VPC}

theorem fail_modest (inst : Instance) (cause : String) :
    (fail inst cause).Uses Op.Modest := by
  refine uses_invoke trivial fun cancelled => ?_
  cases cancelled with
  | true => trivial
  | false =>
      refine uses_invoke trivial fun result => ?_
      split
      · exact uses_invoke trivial fun _ => trivial
      · trivial
      · exact uses_invoke trivial fun _ => trivial

theorem discard_modest (inst : Instance) (runtimeID : RuntimeID)
    (recordErr : Failure) :
    (discard inst runtimeID recordErr).Uses Op.Modest := by
  refine uses_external trivial trivial fun result => ?_
  split
  · trivial
  · exact uses_invoke trivial fun _ => trivial

theorem createdDuringStateChange_modest (inst : Instance)
    (runtimeID : RuntimeID) (recordErr : Failure) :
    (createdDuringStateChange inst runtimeID recordErr).Uses Op.Modest := by
  unfold createdDuringStateChange
  split
  · refine uses_invoke trivial fun retained => ?_
    split
    · refine uses_external trivial trivial fun result => ?_
      split
      · refine uses_invoke trivial fun current => ?_
        split
        · trivial
        · exact fail_modest _ _
      · exact uses_invoke trivial fun _ => trivial
    · exact discard_modest _ _ _
  · exact discard_modest _ _ _

theorem releaseENI_modest (inst : Instance) :
    (releaseENI inst).Uses Op.Modest := by
  refine uses_invoke trivial fun subnet => ?_
  split
  · exact fail_modest _ _
  · refine uses_invoke trivial fun vpc => ?_
    split
    · exact fail_modest _ _
    · refine uses_external trivial trivial fun released => ?_
      split
      · exact fail_modest _ _
      · refine uses_invoke trivial fun finished => ?_
        split
        · exact uses_invoke trivial fun _ => trivial
        · trivial
        · exact uses_invoke trivial fun _ => trivial

theorem terminate_modest (inst : Instance) :
    (terminate inst).Uses Op.Modest := by
  unfold terminate
  split
  · refine uses_external trivial trivial fun result => ?_
    split
    · exact fail_modest _ _
    · exact releaseENI_modest _
  · exact releaseENI_modest _

/-- The commit that records a running instance. -/
theorem recordInstance_justified {before after : World} {current : Instance}
    {result : Except Failure Unit}
    (behaves : before.Behaves (.recordInstance current .running "" true)
      result after)
    (carries : before.store.Carries inst runtimeID)
    (currentID : current.id = inst.id) (subnetID : subnet.id = inst.subnetID)
    (isReady : networkReady subnet vpc = true)
    (order : InOrder (runningSteps subnet vpc inst.id runtimeID) history) :
    Justified inst.id history
      ⟨before, .recordInstance current .running "" true, result, after⟩ where
  starts _ impossible := impossible.elim
  running other sets := by
    have keyed := carries.lodges.sound.keyed
    obtain ⟨now, -, rfl⟩ := behaves.recordInstance
    obtain ⟨running, fresh⟩ := sets
    dsimp only [Store.withTx] at running fresh
    rcases commit_cases (recordInstance current .running "" true now)
        before.store with
      ⟨failure, same⟩ | ⟨value, final, run, same⟩
    · rw [same] at running
      exact absurd running fresh
    · rw [same] at running
      obtain ⟨row, eni, describes, accepted, outcome⟩ :=
        recordInstance_ok keyed run
      have rowID : row.id = inst.id := describes.same.1.trans currentID
      obtain ⟨named, sameSubnet⟩ := carries.row describes.member rowID
      refine ⟨?_, row, describes.member, rowID, (accepted.2 rfl).2.1,
        runtimeID, subnet, vpc, named, subnetID.trans sameSubnet.symm,
        isReady, order⟩
      rcases outcome with ⟨-, rfl⟩ | ⟨-, rfl⟩
      · exact absurd running fresh
      · obtain ⟨found, inside, foundID, runs⟩ := running
        have sameRow : (row.withStatus .running "" true).id = row.id := rfl
        rcases (mem_replace_iff describes.member sameRow).mp inside with
          rfl | ⟨old, -⟩
        · exact foundID.symm.trans rowID
        · exact absurd ⟨found, old, foundID, runs⟩ fresh

theorem fail_runSafe (sound : world.store.Sound) {cause : String} :
    RunSafe id (fun _ _ => True) (fail inst cause) world history :=
  modest_runSafe sound (fail_modest inst cause)

theorem start_runSafe (carries : world.store.Carries inst runtimeID)
    (subnetID : subnet.id = inst.subnetID)
    (isReady : networkReady subnet vpc = true)
    (progress : Progress inst.id (readySteps subnet vpc ++
      [PassEvent.Creates inst.id runtimeID] ++
      [PassEvent.Names inst.id runtimeID]) history) :
    RunSafe inst.id (fun _ _ => True) (start inst.id runtimeID) world
      history := by
  refine carried_invoke (.getInstance inst.id) carries trivial trivial
    fun {before loaded after} _ carries behaves => ?_
  have sound := carries.lodges.sound
  obtain ⟨read, rfl⟩ := behaves.getInstance
  rcases sound.getInstance_cases inst.id with
    ⟨row, member, rowID, eni, -, -, isOk⟩ | ⟨none, -⟩
  · obtain rfl := read.trans isOk
    dsimp only
    split
    · exact run_invoke _ sound trivial fun _ _ _ => trivial
    · rename_i live
      have unseen : ¬ PassEvent.SeesRequest inst.id ⟨after,
          .getInstance inst.id, .ok (row.snapshot eni), after⟩ :=
        fun requested => live (requested row member rowID)
      have progress := progress.later unseen
      refine traced_invoke (.act (.start runtimeID))
        fun {before _ acted} kept others behaves => ?_
      have served := others.kept sound
      have carries := carries.later served.rows served.sound
      have unchanged := behaves.act_store
      rw [← unchanged] at carries
      refine ⟨kept.snoc ⟨fun other sets => ?_, fun _ _ => progress.unseen⟩,
        ?_⟩
      · have running : acted.store.Running other := sets.1
        rw [unchanged] at running
        exact absurd running sets.2
      have progress : Progress inst.id (_ ++ [PassEvent.Starts runtimeID])
          (_ ++ [⟨before, .act (.start runtimeID), (), acted⟩]) :=
        progress.snoc (by exact not_false) rfl
      refine carried_invoke (.answer (.start runtimeID)) carries trivial
        trivial fun {before started after} _ carries _ => ?_
      cases started with
      | error cause => exact fail_runSafe carries.lodges.sound
      | ok value =>
          have progress : Progress inst.id
              (_ ++ [PassEvent.Started runtimeID])
              (_ ++ [⟨before, .answer (.start runtimeID), .ok value, after⟩]) :=
            progress.snoc (by exact not_false) rfl
          refine carried_invoke (.act (.inspect runtimeID)) carries trivial
            trivial fun {before _ after} _ carries _ => ?_
          have progress : Progress inst.id _
              (_ ++ [⟨before, .act (.inspect runtimeID), (), after⟩]) :=
            progress.later not_false
          refine carried_invoke (.answer (.inspect runtimeID)) carries trivial
            trivial fun {before inspected after} _ carries _ => ?_
          split
          · exact fail_runSafe carries.lodges.sound
          · exact fail_runSafe carries.lodges.sound
          · have progress : Progress inst.id
                (_ ++ [PassEvent.SeesRunning runtimeID])
                (_ ++ [⟨before, .answer (.inspect runtimeID), .ok true,
                  after⟩]) :=
              progress.snoc (by exact not_false) rfl
            refine traced_invoke
              (.recordInstance (row.snapshot eni) .running "" true)
              fun {before recorded after} kept others behaves => ?_
            have served := others.kept carries.lodges.sound
            have carries := carries.later served.rows served.sound
            refine ⟨kept.snoc (recordInstance_justified behaves carries rowID
              subnetID isReady progress.order), ?_⟩
            have sound := behaves.store_within.sound served.sound
            split
            · exact run_invoke _ sound trivial fun _ _ _ => trivial
            · trivial
            · exact run_invoke _ sound trivial fun _ _ _ => trivial
  · obtain ⟨row, member, rowID, -⟩ := carries.named
    exact absurd rowID (none row member)

theorem recordRuntimeID_carries {before after : World} {value : Unit}
    (behaves : before.Behaves (.recordRuntimeID inst.id inst.generation
      runtimeID) (.ok value) after)
    (earlier : before.store.Lodges inst) (lodges : after.store.Lodges inst) :
    after.store.Carries inst runtimeID := by
  refine ⟨lodges, ?_⟩
  obtain ⟨accepted, rfl⟩ := behaves.recordRuntimeID
  rcases recordRuntimeID_cases earlier.sound.keyed inst.id inst.generation
      runtimeID with
    ⟨failure, refused⟩ | ⟨row, member, sameID, -, -, -, ⟨named, same⟩ |
      ⟨-, same⟩⟩
  · rw [refused] at accepted
    cases accepted
  · exact ⟨row, by rw [same]; exact member, sameID, named⟩
  · have sameRow : { row with runtimeID := some runtimeID }.id = row.id := rfl
    refine ⟨{ row with runtimeID := some runtimeID }, ?_, sameID, rfl⟩
    rw [same]
    exact (mem_replace_iff member sameRow).mpr (.inl rfl)

theorem launch_runSafe (lodges : world.store.Lodges inst)
    (subnetID : subnet.id = inst.subnetID)
    (isReady : networkReady subnet vpc = true)
    (progress : Progress inst.id (readySteps subnet vpc) history) :
    RunSafe inst.id (fun _ _ => True) (launch inst) world history := by
  refine lodged_invoke (.act (.ensureImage "nephos-ubuntu:dev")) lodges
    trivial trivial fun {before _ after} _ _ _ lodges _ => ?_
  have progress : Progress inst.id _
      (_ ++ [⟨before, .act (.ensureImage "nephos-ubuntu:dev"), (), after⟩]) :=
    progress.later not_false
  refine lodged_invoke (.answer (.ensureImage "nephos-ubuntu:dev")) lodges
    trivial trivial fun {before image after} _ _ _ lodges _ => ?_
  cases image with
  | error cause => exact fail_runSafe lodges.sound
  | ok value =>
      have progress : Progress inst.id _
          (_ ++ [⟨before, .answer (.ensureImage "nephos-ubuntu:dev"),
            .ok value, after⟩]) :=
        progress.later not_false
      refine lodged_invoke (.act (.create inst)) lodges trivial trivial
        fun {before _ after} _ _ _ lodges _ => ?_
      have progress : Progress inst.id _
          (_ ++ [⟨before, .act (.create inst), (), after⟩]) :=
        progress.later not_false
      refine lodged_invoke (.answer (.create inst)) lodges trivial trivial
        fun {before created after} _ _ _ lodges _ => ?_
      cases created with
      | error cause => exact fail_runSafe lodges.sound
      | ok runtimeID =>
          have progress : Progress inst.id
              (_ ++ [PassEvent.Creates inst.id runtimeID])
              (_ ++ [⟨before, .answer (.create inst), .ok runtimeID,
                after⟩]) :=
            progress.snoc (by exact not_false) ⟨rfl, rfl⟩
          refine lodged_invoke
            (.recordRuntimeID inst.id inst.generation runtimeID) lodges
            trivial trivial fun {before recorded after} _ earlier _ lodges
              behaves => ?_
          cases recorded with
          | error failure =>
              exact modest_runSafe lodges.sound
                (createdDuringStateChange_modest inst runtimeID failure)
          | ok value =>
              have carries := recordRuntimeID_carries behaves earlier lodges
              have progress : Progress inst.id
                  (_ ++ [PassEvent.Names inst.id runtimeID])
                  (_ ++ [⟨before, .recordRuntimeID inst.id inst.generation
                    runtimeID, .ok value, after⟩]) :=
                progress.snoc (by exact not_false) carries.named
              exact start_runSafe carries subnetID isReady progress

/-- A network that is accepted was read in the same pass. -/
theorem prerequisites_runSafe (lodges : world.store.Lodges inst)
    (progress : Progress inst.id [] history) :
    RunSafe inst.id (fun isReady traced => traced.state.store.Lodges inst ∧
      (isReady = .ok true → ∃ subnet vpc, subnet.id = inst.subnetID ∧
        networkReady subnet vpc = true ∧
        Progress inst.id (readySteps subnet vpc) traced.history))
      (prerequisites inst) world history := by
  refine lodged_invoke (.getSubnet inst.workspaceID inst.subnetID) lodges
    trivial trivial fun {before read after} _ _ _ lodges behaves => ?_
  cases read with
  | error failure => exact ⟨lodges, nofun⟩
  | ok subnet =>
      have subnetID := (Store.getSubnet_ok behaves.getSubnet.1.symm).2.1
      have progress : Progress inst.id ([] ++ [PassEvent.ReadsSubnet subnet])
          (_ ++ [⟨before, .getSubnet inst.workspaceID inst.subnetID,
            .ok subnet, after⟩]) :=
        progress.snoc (by exact not_false) rfl
      refine lodged_invoke (.getVPC inst.workspaceID subnet.vpcID) lodges
        trivial trivial fun {before read after} _ _ _ lodges _ => ?_
      cases read with
      | error failure => exact ⟨lodges, nofun⟩
      | ok vpc =>
          refine ⟨lodges, fun isReady => ⟨subnet, vpc, subnetID,
            Except.ok.inj isReady, ?_⟩⟩
          have progress : Progress inst.id
              (_ ++ [PassEvent.ReadsVPC subnet vpc])
              (_ ++ [⟨before, .getVPC inst.workspaceID subnet.vpcID, .ok vpc,
                after⟩]) :=
            progress.snoc (by exact not_false) ⟨rfl, rfl⟩
          exact progress

theorem ready_runSafe (lodges : world.store.Lodges inst)
    (progress : Progress inst.id [] history) :
    RunSafe inst.id (fun isReady traced => traced.state.store.Lodges inst ∧
      (isReady = .ok true → ∃ subnet vpc, subnet.id = inst.subnetID ∧
        networkReady subnet vpc = true ∧
        Progress inst.id (readySteps subnet vpc) traced.history))
      (ready inst) world history := by
  refine lodged_invoke (.act (.ready inst)) lodges trivial trivial
    fun {before _ after} _ _ _ lodges _ => ?_
  have progress : Progress inst.id []
      (_ ++ [⟨before, .act (.ready inst), (), after⟩]) :=
    progress.later not_false
  refine lodged_invoke (.answer (.ready inst)) lodges trivial trivial
    fun {before called after} _ _ _ lodges _ => ?_
  have progress : Progress inst.id []
      (_ ++ [⟨before, .answer (.ready inst), called, after⟩]) :=
    progress.later not_false
  cases called with
  | error cause => exact ⟨lodges, nofun⟩
  | ok called => exact prerequisites_runSafe lodges progress

theorem converge_runSafe (kept : Every (Justified inst.id) history)
    (lodges : world.store.Lodges inst)
    (progress : Progress inst.id [] history) :
    RunSafe inst.id (fun _ _ => True) (converge inst.id inst) world
      history := by
  refine (ready_runSafe lodges progress).bind kept
    fun {isReady traced} _ found => ?_
  obtain ⟨later, history⟩ := traced
  obtain ⟨lodges, found⟩ := found
  change later.store.Lodges inst at lodges
  change RunSafe inst.id (fun _ _ => True) _ later history
  split
  · exact fail_runSafe lodges.sound
  · trivial
  · obtain ⟨subnet, vpc, subnetID, isReady, progress⟩ := found rfl
    change Progress inst.id (readySteps subnet vpc) history at progress
    split
    · refine lodged_invoke (.act (.inspect inst.runtimeID)) lodges trivial
        trivial fun {before _ after} _ _ _ lodges _ => ?_
      have progress : Progress inst.id _
          (_ ++ [⟨before, .act (.inspect inst.runtimeID), (), after⟩]) :=
        progress.later not_false
      refine lodged_invoke (.answer (.inspect inst.runtimeID)) lodges trivial
        trivial fun {before inspected after} _ _ _ lodges _ => ?_
      split
      · exact run_invoke _ lodges.sound trivial fun _ _ _ => trivial
      · exact fail_runSafe lodges.sound
      · have progress : Progress inst.id _
            (_ ++ [⟨before, .answer (.inspect inst.runtimeID), .ok false,
              after⟩]) :=
          progress.later not_false
        exact launch_runSafe lodges subnetID isReady progress
    · exact launch_runSafe lodges subnetID isReady progress

theorem reconcileLocked_runSafe (sound : world.store.Sound) :
    RunSafe id (fun _ _ => True) (reconcileLocked id) world [] := by
  refine traced_invoke (.getInstance id)
    fun {before result after} kept others behaves => ?_
  have served := others.kept sound
  have justified := kept.snoc (behaves.modest served.sound trivial id [])
  refine ⟨justified, ?_⟩
  obtain ⟨read, rfl⟩ := behaves.getInstance
  rcases served.sound.getInstance_cases id with
    ⟨row, member, rfl, eni, -, -, isOk⟩ | ⟨-, missing⟩
  · obtain rfl := read.trans isOk
    have lodges : after.store.Lodges (row.snapshot eni) :=
      ⟨served.sound, served.sound.keyed.instances.workspace row member, row,
        member, rfl, rfl⟩
    dsimp only
    split
    · exact modest_runSafe served.sound (terminate_modest _)
    · rename_i live
      have none : ∀ event ∈ ([] : List PassEvent),
          ¬ event.SeesRequest row.id :=
        fun _ member => absurd member List.not_mem_nil
      refine converge_runSafe justified lodges ⟨.nil _, ?_⟩
      exact forall_append none fun requested =>
        live (requested row member rfl)
  · obtain rfl := read.trans missing
    exact run_invoke _ served.sound trivial fun _ _ _ => trivial

end InstanceController

theorem PassEvent.seesRequest_of_read {id : ID} {event : PassEvent}
    (reads : event.op = .getInstance id)
    (requested : ∀ row ∈ event.before.store.instances, row.id = id →
      row.deletionRequested = true) : event.SeesRequest id := by
  obtain ⟨before, op, result, after⟩ := event
  obtain rfl : op = .getInstance id := reads
  exact requested

/-- A pass records an instance as running only for what it has observed, and
no write of the others does.  Once a termination is requested, nothing makes
the instance a running one, and a pass that reads the row again starts
nothing. -/
theorem running_observed {world : World} {id : ID} {events : List PassEvent}
    {rest : Pass} (reachable : database.Reachable world.store)
    (executes : served.Executes (InstanceController.reconcileLocked id) world
      events rest) :
    Every (Justified id) events ∧
    (∀ (write : Write) (store : Store) (other : ID), write.Outside →
      database.Reachable store → (write.apply store).Running other →
        store.Running other) ∧
    ∀ (store later : Store) (now : Time) (inst : Instance)
      (writes : List Write), database.Reachable store →
      (terminateSnapshot id now store).result = .ok inst →
      database.Run (terminateSnapshot id now store).store writes later →
        ¬ later.Running id ∧
        ∀ front starting back runtimeID,
          events = front ++ starting :: back → starting.Starts runtimeID →
            ∀ read ∈ front, read.op = .getInstance id →
              read.before.store ≠ later := by
  have safe : RunSafe id (fun _ _ => True)
      (InstanceController.reconcileLocked id) world [] :=
    InstanceController.reconcileLocked_runSafe
      (database_reachable_sound reachable)
  have justified : Every (Justified id) events :=
    (executes.safe safe (every_nil _)).1
  refine ⟨justified, fun write store other outside reached running =>
    outside.running (database_reachable_sound reached) running, ?_⟩
  intro store later now inst writes reached accepted run
  obtain ⟨last, requested⟩ := terminateSnapshot_kept reached accepted run
  refine ⟨(database_reachable_withheld last).not_running requested, ?_⟩
  rintro front starting back runtimeID same starts read member reads rfl
  exact (justified front starting back same).starts runtimeID starts read
    member (PassEvent.seesRequest_of_read reads requested)

/-- The first pass over a new instance makes it a running one. -/
theorem firstLaunch_observed :
    ∃ (daemon : Daemon) (events front back : List PassEvent)
      (event : PassEvent),
      system.Reachable daemon ∧
      served.Executes
        (InstanceController.reconcileLocked "i-03030303030303030")
        daemon.world events (.done (.ok ())) ∧
      events = front ++ event :: back ∧
      event.SetsRunning "i-03030303030303030" ∧
      Justified "i-03030303030303030" front event := by
  have runs : ((Daemon.initial []).run
      (firstNetwork ++ (firstRequests.drop 2).map .serve)).any (fun daemon =>
        (daemon.world.execute
          (InstanceController.reconcileLocked "i-03030303030303030")
          [ .plain, .plain, .succeeds, .plain, .plain, .plain, .succeeds,
            .created "c1", .succeeds, .plain, .plain, .effect, .succeeds,
            .plain, .succeeds, .clock 4, .plain ]).any fun (events, rest) =>
              Pass.succeeded rest && decide (∃ event ∈ events,
                event.SetsRunning "i-03030303030303030")) = true := by
    decide +kernel
  obtain ⟨daemon, ran, checked⟩ := (Option.any_eq_true _ _).mp runs
  obtain ⟨⟨events, rest⟩, executed, checked⟩ :=
    (Option.any_eq_true _ _).mp checked
  rw [Bool.and_eq_true, decide_eq_true_iff] at checked
  obtain ⟨isDone, event, member, sets⟩ := checked
  have executes : served.Executes _ daemon.world events rest :=
    World.execute_executes (fun behaves => behaves) executed
  rw [Pass.succeeded_eq isDone] at executes
  have reachable := Daemon.run_reachable ran
  obtain ⟨front, back, same⟩ := List.append_of_mem member
  exact ⟨daemon, events, front, back, event, reachable, executes, same, sets,
    (running_observed (Daemon.database_reachable reachable) executes).1 front
      event back same⟩

end Nephos
