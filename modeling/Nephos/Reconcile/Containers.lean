import Nephos.Reconcile.Moves

/-!
# Containers of instances

The identity of a container is recorded after the container is made, so a
crash or a lost reply in between leaves a container that the database does
not know.  While the instance is wanted, the next pass finds the container by
its name and records it.  A termination, however, looks only at the recorded
identity: when there is none, it removes the row and leaves the container.
-/

namespace Nephos

open Effects Transaction

namespace World

/-- The runtime has no container of the instance. -/
def Gone (world : World) (instanceID : ID) : Prop :=
  ∀ name ∈ world.names, name.2 ≠ instanceID

/-- The identity is recorded only where it is not wanted any more. -/
def Doomed (world : World) (id : RuntimeID) : Prop :=
  ∀ row ∈ world.store.instances, row.runtimeID = some id →
    row.deletionRequested = true

/-- The recorded identities are those of the containers: an instance has at
most one container, a recorded identity is that of its container, and the
container of a wanted instance exists once it is recorded. -/
structure Tracked (world : World) : Prop where
  sound : world.store.Sound
  named : ∀ name ∈ world.names, name ∈ world.created
  nonempty : ∀ made ∈ world.created, made.1 ≠ ""
  fresh : Unique Prod.fst world.created
  single : ∀ name ∈ world.names, ∀ other ∈ world.names,
    name.2 = other.2 → name.1 = other.1
  recorded : ∀ row ∈ world.store.instances, ∀ id ∈ row.runtimeID,
    (id, row.id) ∈ world.created
  matching : ∀ row ∈ world.store.instances, ∀ id ∈ row.runtimeID,
    ∀ name ∈ world.names, name.2 = row.id → name.1 = id
  held : ∀ row ∈ world.store.instances, row.deletionRequested = false →
    ∀ id ∈ row.runtimeID, (id, row.id) ∈ world.names

namespace Tracked

variable {world after : World}

/-- The containers stay, and each recorded identity was recorded before or is
that of a container. -/
theorem rows (tracked : world.Tracked) (sound : after.store.Sound)
    (names : after.names = world.names)
    (created : after.created = world.created)
    (rows : ∀ row ∈ after.store.instances, ∀ id ∈ row.runtimeID,
      (id, row.id) ∈ world.names ∨
        ∃ old ∈ world.store.instances, old.id = row.id ∧
          old.runtimeID = some id ∧
          (old.deletionRequested = true → row.deletionRequested = true)) :
    after.Tracked where
  sound
  named := by
    rw [names, created]
    exact tracked.named
  nonempty := created ▸ tracked.nonempty
  fresh := created ▸ tracked.fresh
  single := names ▸ tracked.single
  recorded row member id stored := by
    rw [created]
    rcases rows row member id stored with named | ⟨old, origin, same, known, -⟩
    · exact tracked.named _ named
    · exact same ▸ tracked.recorded old origin id known
  matching row member id stored name inside owner := by
    rw [names] at inside
    rcases rows row member id stored with named | ⟨old, origin, same, known, -⟩
    · exact tracked.single name inside _ named owner
    · exact tracked.matching old origin id known name inside
        (owner.trans same.symm)
  held row member live id stored := by
    rw [names]
    rcases rows row member id stored with
      named | ⟨old, origin, same, known, requested⟩
    · exact named
    · have wanted : old.deletionRequested = false := by
        cases flag : old.deletionRequested with
        | false => rfl
        | true => exact absurd (requested flag) (by simp [live])
      exact same ▸ tracked.held old origin wanted id known

/-- What the other parties do. -/
theorem kept (tracked : world.Tracked) (sound : after.store.Sound)
    (kept : InstancesKept world.store after.store)
    (names : after.names = world.names)
    (created : after.created = world.created) : after.Tracked := by
  refine tracked.rows sound names created fun row member id stored => ?_
  rcases kept.source row member with ⟨-, unset⟩ | ⟨old, origin, evolves, same⟩
  · rw [unset] at stored
    cases stored
  · exact .inr ⟨old, origin, evolves.sameID.symm, same.symm.trans stored,
      evolves.requested⟩

/-- A new container of an instance whose recorded container would exist. -/
theorem create (tracked : world.Tracked) {instanceID : ID} {id : RuntimeID}
    (held : ∀ row ∈ world.store.instances, row.id = instanceID →
      ∀ known ∈ row.runtimeID, (known, instanceID) ∈ world.names)
    (added : world.addContainer instanceID id = some after) :
    after.Tracked := by
  obtain ⟨nonempty, unmade, unnamed, rfl⟩ := addContainer_some added
  have names : World.names { world with
      containers := world.containers ++ [⟨id, instanceID, false⟩]
      created := world.created ++ [(id, instanceID)] } =
        world.names ++ [(id, instanceID)] := by
    simp [World.names]
  have gone : world.Gone instanceID := by
    intro name member
    obtain ⟨container, inside, rfl⟩ := List.mem_map.mp member
    exact unnamed container inside
  constructor
  · exact tracked.sound
  · rw [names]
    exact forall_append
      (fun name member => List.mem_append_left _ (tracked.named name member))
      (List.mem_append_right _ (List.mem_singleton.mpr rfl))
  · exact forall_append tracked.nonempty nonempty
  · exact tracked.fresh.append_row unmade
  · rw [names]
    intro name member other otherMember same
    rcases List.mem_append.mp member with old | new <;>
      rcases List.mem_append.mp otherMember with before | added
    · exact tracked.single name old other before same
    · rw [List.mem_singleton.mp added] at same
      exact absurd same (gone name old)
    · rw [List.mem_singleton.mp new] at same
      exact absurd same.symm (gone other before)
    · rw [List.mem_singleton.mp new, List.mem_singleton.mp added]
  · exact fun row member known stored => List.mem_append_left _
      (tracked.recorded row member known stored)
  · rw [names]
    intro row member known stored name inside owner
    rcases List.mem_append.mp inside with old | new
    · exact tracked.matching row member known stored name old owner
    · rw [List.mem_singleton.mp new] at owner
      exact absurd rfl (gone _ (held row member owner.symm known stored))
  · rw [names]
    exact fun row member live known stored => List.mem_append_left _
      (tracked.held row member live known stored)

theorem delete (tracked : world.Tracked) {id : RuntimeID}
    (doomed : world.Doomed id) :
    World.Tracked { world with
      containers := world.containers.filter (·.id ≠ id) } := by
  have fewer : ∀ name, name ∈ World.names { world with
      containers := world.containers.filter (·.id ≠ id) } ↔
        name ∈ world.names ∧ name.1 ≠ id := by
    intro name
    simp only [World.names, List.mem_map, List.mem_filter,
      decide_eq_true_eq]
    constructor
    · rintro ⟨container, ⟨inside, other⟩, rfl⟩
      exact ⟨⟨container, inside, rfl⟩, other⟩
    · rintro ⟨⟨container, inside, rfl⟩, other⟩
      exact ⟨container, ⟨inside, other⟩, rfl⟩
  exact
    { tracked with
      named := fun name member => tracked.named name ((fewer name).mp member).1
      single := fun name member other otherMember =>
        tracked.single name ((fewer name).mp member).1 other
          ((fewer other).mp otherMember).1
      matching := fun row member known stored name inside =>
        tracked.matching row member known stored name
          ((fewer name).mp inside).1
      held := fun row member live known stored => by
        refine (fewer _).mpr ⟨tracked.held row member live known stored, ?_⟩
        rintro rfl
        exact absurd (doomed row member stored) (by simp [live]) }

/-- A row is given the identity of the container of its instance. -/
theorem setRuntimeID (tracked : world.Tracked) {row : InstanceRow}
    {id : RuntimeID} (member : row ∈ world.store.instances)
    (named : (id, row.id) ∈ world.names)
    (sound : (Edit.apply world.store (.setRuntimeID row id)).Sound) :
    World.Tracked { world with
      store := Edit.apply world.store (.setRuntimeID row id) } := by
  refine tracked.rows sound rfl rfl fun changed inside known stored => ?_
  have sameID : ({ row with runtimeID := some id } : InstanceRow).id =
    row.id := rfl
  rcases (mem_replace_iff member sameID).mp inside with rfl | ⟨old, -⟩
  · cases stored
    exact .inl named
  · exact .inr ⟨changed, old, rfl, stored, fun held => held⟩

theorem recordRuntimeID (tracked : world.Tracked) {instanceID : ID}
    {generation : Int} {id : RuntimeID} {result : Except Failure Unit}
    (named : (id, instanceID) ∈ world.names)
    (behaves : world.Behaves (.recordRuntimeID instanceID generation id)
      result after) :
    after.Tracked := by
  have sound := behaves.store_within.sound tracked.sound
  obtain ⟨-, rfl⟩ := behaves.recordRuntimeID
  rcases recordRuntimeID_cases tracked.sound.keyed instanceID generation id
    with ⟨failure, refused⟩ | ⟨row, member, rfl, -, -, -, ⟨-, same⟩ |
      ⟨-, bound⟩⟩
  · rw [refused] at sound ⊢
    exact tracked
  · rw [same] at sound ⊢
    exact tracked
  · rw [bound] at sound ⊢
    exact tracked.setRuntimeID member named sound

theorem retainTerminatingRuntimeID (tracked : world.Tracked)
    {instanceID : ID} {id : RuntimeID} {result : Except Failure Unit}
    (named : (id, instanceID) ∈ world.names)
    (behaves : world.Behaves (.retainTerminatingRuntimeID instanceID id)
      result after) :
    after.Tracked := by
  have sound := behaves.store_within.sound tracked.sound
  obtain ⟨-, rfl⟩ := behaves.retainTerminatingRuntimeID
  rcases retainTerminatingRuntimeID_cases tracked.sound.keyed instanceID id
    with ⟨failure, refused⟩ | ⟨row, member, rfl, -, -, -, bound⟩
  · rw [refused] at sound ⊢
    exact tracked
  · rw [bound] at sound ⊢
    exact tracked.setRuntimeID member named sound

theorem finishInstanceTermination (tracked : world.Tracked)
    {snapshot : Instance} {result : Except Failure Unit}
    (behaves : world.Behaves (.finishInstanceTermination snapshot) result
      after) :
    after.Tracked := by
  have sound := behaves.store_within.sound tracked.sound
  obtain ⟨now, -, rfl⟩ := behaves.finishInstanceTermination
  rcases commit_cases (Nephos.finishInstanceTermination snapshot now)
    world.store with ⟨failure, failed⟩ | ⟨value, final, run, committed⟩
  · rw [Store.withTx, failed] at sound ⊢
    exact tracked
  · rw [Store.withTx, committed] at sound ⊢
    obtain ⟨row, eni, -, -, rfl⟩ :=
      finishInstanceTermination_ok tracked.sound.keyed run
    refine tracked.rows sound rfl rfl fun kept inside id stored => .inr ?_
    exact ⟨kept, (mem_remove_iff.mp inside).1, rfl, stored,
      fun held => held⟩

end Tracked

end World

namespace World

/-- When a pass finds a row with a deletion request and without a runtime
identity, the runtime has no container of the instance. -/
def Careful (world : World) : Op → Prop
  | .getInstance id => ∀ row ∈ world.store.instances, row.id = id →
      row.deletionRequested = true → row.runtimeID = none → world.Gone id
  | _ => True

instance (world : World) (instanceID : ID) :
    Decidable (world.Gone instanceID) :=
  inferInstanceAs (Decidable (∀ name ∈ world.names, _))

instance (world : World) (op : Op) : Decidable (world.Careful op) := by
  unfold Careful
  split <;> infer_instance

/-- When the end of a termination is about to commit, the runtime has no
container of the instance. -/
def Cleared (world : World) : Op → Prop
  | .finishInstanceTermination snapshot => world.Gone snapshot.id
  | _ => True

end World

def containerContract : Contract Op Op.Result World where
  invariant := World.Tracked
  change _ world later := InstancesKept world.store later.store ∧
    later.names = world.names ∧ later.created = world.created
  behaviour world op result after :=
    world.Behaves op result after ∧ world.Careful op
  outstanding op world := world.Cleared op
  refl _ world := ⟨.refl world.store, rfl, rfl⟩
  trans first second := ⟨first.1.trans second.1,
    second.2.1.trans first.2.1, second.2.2.trans first.2.2⟩

/-- What an operation does that neither makes nor removes containers or
rows. -/
theorem World.Behaves.watches {world after : World} {op : Op}
    {result : op.Result} (behaves : world.Behaves op result after)
    (ofWatch : op.OfWatch) :
    world.store.Within Write.Foreign after.store ∧
      after.names = world.names ∧ after.created = world.created := by
  refine ⟨behaves.store_within.mono fun write writes => ?_, ?_⟩
  · cases op <;> try exact writes.elim
    case recordInstance =>
      obtain ⟨now, rfl⟩ := writes
      trivial
    all_goals exact ofWatch.elim
  · rcases behaves.store_or_surroundings.2 with ⟨call, rfl⟩ | same
    · cases call with
      | ready | ensureImage | inspect =>
          rw [behaves.idle trivial]
          exact ⟨rfl, rfl⟩
      | start id =>
          rcases behaves.start with rfl | rfl
          · exact ⟨rfl, rfl⟩
          · exact ⟨names_running id true, rfl⟩
      | _ => exact ofWatch.elim
    · rw [names, names, same.containers, same.created]
      exact ⟨rfl, rfl⟩

theorem Op.OfWatch.quiet {op : Op} (ofWatch : op.OfWatch) :
    containerContract.Quiet op := by
  intro world tracked
  refine ⟨?_, fun result after behaves => ?_⟩
  · cases op <;> trivial
  · obtain ⟨store, names, created⟩ := behaves.1.watches ofWatch
    have kept := store.instancesKept tracked.sound
    exact ⟨tracked.kept (store.sound tracked.sound) kept names created,
      fun _ => ⟨kept, names, created⟩⟩

theorem Op.OfWatch.spares {op : Op} (ofWatch : op.OfWatch) :
    containerContract.Harmless op :=
  ofWatch.quiet.harmless

/-- The rule for a call that only watches. -/
theorem watch_bind {α : Type} {call : External} {holds : World → Prop}
    {next : Except String call.Value → Call α} {world : World}
    (ofWatch : call.OfWatch) (stable : containerContract.Stable holds)
    (tracked : world.Tracked) (now : holds world)
    (continues : ∀ {result later}, later.Tracked → holds later →
      containerContract.Keeps (next result) later) :
    containerContract.Keeps (external call >>= next) world := by
  have acts : Op.OfWatch (.act call) := ofWatch
  have answers : Op.OfWatch (.answer call) := ofWatch
  exact (Contract.Safe.quiet stable now
    (uses_call acts.quiet answers.quiet)).bind tracked continues

theorem watch_containerSafe {α : Type} {program : Call α} {world : World}
    (uses : program.Uses Op.OfWatch) :
    containerContract.Keeps program world :=
  .uses (uses.mono fun _ => Op.OfWatch.spares)

section Assertions

theorem World.Doomed.kept {world later : World} {id : RuntimeID}
    (doomed : world.Doomed id)
    (kept : InstancesKept world.store later.store) : later.Doomed id := by
  intro row member stored
  rcases kept.source row member with ⟨-, unset⟩ | ⟨old, origin, evolves, same⟩
  · rw [unset] at stored
    cases stored
  · exact evolves.requested (doomed old origin (same.symm.trans stored))

/-- An instance whose container is known is the only one to know it. -/
theorem World.Tracked.owner {world : World} (tracked : world.Tracked)
    {id : RuntimeID} {instanceID : ID} {row : InstanceRow}
    (made : (id, instanceID) ∈ world.created)
    (member : row ∈ world.store.instances)
    (stored : row.runtimeID = some id) : row.id = instanceID :=
  congrArg Prod.snd (tracked.fresh.eq_of_mem
    (tracked.recorded row member id stored) made rfl)

/-- The container that the database knows of an instance exists. -/
def World.Holds (world : World) (instanceID : ID) : Prop :=
  ∀ row ∈ world.store.instances, row.id = instanceID →
    ∀ id ∈ row.runtimeID, (id, instanceID) ∈ world.names

theorem World.Holds.kept {world later : World} {instanceID : ID}
    (holds : world.Holds instanceID)
    (kept : InstancesKept world.store later.store)
    (names : later.names = world.names) : later.Holds instanceID := by
  intro row member sameID id stored
  rw [names]
  rcases kept.source row member with ⟨-, unset⟩ | ⟨old, origin, evolves, same⟩
  · rw [unset] at stored
    cases stored
  · exact holds old origin (evolves.sameID.symm.trans sameID) id
      (same.symm.trans stored)

end Assertions

namespace InstanceController

/-- A deletion of the only container an instance can have. -/
theorem delete_containerSafe {id : RuntimeID} {instanceID : ID}
    {next : Except String Unit → Pass} {world : World}
    (doomed : world.Doomed id)
    (only : ∀ name ∈ world.names, name.2 = instanceID → name.1 = id)
    (failed : ∀ cause later,
      containerContract.Keeps (next (.error cause)) later)
    (deleted : ∀ value later, later.Gone instanceID →
      containerContract.Keeps (next (.ok value)) later) :
    containerContract.Keeps
      (external (.delete id) >>= next) world := by
  have onlyStable : containerContract.Stable fun world : World =>
      ∀ name ∈ world.names, name.2 = instanceID → name.1 = id :=
    fun _ change held name member => held name (change.2.1 ▸ member)
  rw [external_bind]
  refine .call (fun world => world.Doomed id ∧
      ∀ name ∈ world.names, name.2 = instanceID → name.1 = id)
    ⟨doomed, only⟩
    (fun kept change held => ⟨held.1.kept change.1,
      onlyStable kept change held.2⟩)
    (fun _ _ => trivial) fun {later result after} tracked held behaves => ?_
  have effect : after.Tracked ∧
      ∀ name ∈ after.names, name ∈ later.names := by
    rcases behaves.1.delete with rfl | rfl
    · exact ⟨tracked, fun _ member => member⟩
    · refine ⟨tracked.delete held.1, fun name member => ?_⟩
      obtain ⟨container, inside, rfl⟩ := List.mem_map.mp member
      exact List.mem_map.mpr ⟨container, (List.mem_filter.mp inside).1, rfl⟩
  refine ⟨effect.1, ?_⟩
  refine .call (fun world =>
      ∀ name ∈ world.names, name.2 = instanceID → name.1 = id)
    (fun name member => held.2 name (effect.2 name member)) onlyStable
    (fun _ _ => trivial) fun {later result final} tracked held behaves => ?_
  obtain ⟨rfl, -⟩ := behaves.1.answer
  refine ⟨tracked, ?_⟩
  cases result with
  | error cause => exact failed cause final
  | ok value =>
      refine deleted value final fun name member owner => ?_
      obtain ⟨container, inside, rfl⟩ := List.mem_map.mp member
      exact behaves.1.deleted container inside (held _ member owner)

theorem releaseENI_containerSafe {inst : Instance} {world : World}
    (gone : world.Gone inst.id) :
    containerContract.Keeps (releaseENI inst) world := by
  have stable : containerContract.Stable fun world : World =>
      world.Gone inst.id := by
    intro op world later _ change held
    rw [World.Gone, change.2.1]
    exact held
  rw [releaseENI, invoke_bind]
  refine .call (fun world : World => world.Gone inst.id) gone stable
    (fun _ _ => trivial) fun {later result after} tracked held behaves => ?_
  obtain ⟨-, rfl⟩ := behaves.1.getSubnet
  refine ⟨tracked, ?_⟩
  split
  · exact watch_containerSafe (fail_uses _ _)
  · rw [invoke_bind]
    refine .call (fun world : World => world.Gone inst.id) held stable
      (fun _ _ => trivial) fun {later result after} tracked held behaves => ?_
    obtain ⟨-, rfl⟩ := behaves.1.getVPC
    refine ⟨tracked, ?_⟩
    split
    · exact watch_containerSafe (fail_uses _ _)
    · rw [external_bind]
      refine .call (fun world : World => world.Gone inst.id) held stable
        (fun _ _ => trivial)
        fun {later result after} tracked held behaves => ?_
      obtain ⟨links, -, rfl⟩ := behaves.1.deleteENI
      refine ⟨tracked.kept tracked.sound (.refl _) rfl rfl, ?_⟩
      refine .call (fun world : World => world.Gone inst.id) held stable
        (fun _ _ => trivial)
        fun {later result after} tracked held behaves => ?_
      obtain ⟨rfl, -⟩ := behaves.1.answer
      refine ⟨tracked, ?_⟩
      cases result with
      | error cause => exact watch_containerSafe (fail_uses _ _)
      | ok value =>
          change containerContract.Safe _ (invoke _ >>= _) _
          rw [invoke_bind]
          refine .call (fun world : World => world.Gone inst.id) held stable
            (fun _ held => held)
            fun {later result after} tracked held behaves => ?_
          refine ⟨tracked.finishInstanceTermination behaves.1, ?_⟩
          apply watch_containerSafe
          split
          · exact uses_invoke trivial fun _ => trivial
          · trivial
          · exact uses_invoke trivial fun _ => trivial

theorem terminate_containerSafe {world : World} {row : InstanceRow}
    {eni : ENI} (tracked : world.Tracked)
    (member : row ∈ world.store.instances)
    (requested : row.deletionRequested = true)
    (careful : row.runtimeID = none → world.Gone row.id) :
    containerContract.Keeps (terminate (row.snapshot eni)) world := by
  unfold terminate
  cases stored : row.runtimeID with
  | none =>
      rw [if_neg (by simp [InstanceRow.snapshot, stored])]
      exact releaseENI_containerSafe (careful stored)
  | some id =>
      have made := tracked.recorded row member id stored
      have known : (row.snapshot eni).runtimeID = id := by
        simp [InstanceRow.snapshot, stored]
      rw [if_pos (known ▸ tracked.nonempty _ made), known]
      refine delete_containerSafe ?_
        (tracked.matching row member id stored)
        (fun cause later => watch_containerSafe (fail_uses _ _))
        (fun _ later gone => releaseENI_containerSafe gone)
      intro other otherMember sameRuntime
      have sameID := tracked.owner made otherMember sameRuntime
      obtain rfl := tracked.sound.keyed.instances.unique.eq_of_mem
        otherMember member sameID
      exact requested

theorem discard_containerSafe {inst : Instance} {id : RuntimeID}
    {failure : Failure} {world : World} (doomed : world.Doomed id)
    (only : ∀ name ∈ world.names, name.2 = inst.id → name.1 = id) :
    containerContract.Keeps (discard inst id failure) world := by
  refine delete_containerSafe doomed only (fun cause later => trivial)
    (fun value later _ => ?_)
  exact watch_containerSafe (uses_invoke trivial fun _ => trivial)

theorem createdDuringStateChange_containerSafe {inst : Instance}
    {id : RuntimeID} {failure : Failure} {world : World}
    (tracked : world.Tracked) (doomed : world.Doomed id)
    (named : (id, inst.id) ∈ world.names) :
    containerContract.Keeps
      (createdDuringStateChange inst id failure) world := by
  have only {world : World} (tracked : world.Tracked)
      (named : (id, inst.id) ∈ world.names) :
      ∀ name ∈ world.names, name.2 = inst.id → name.1 = id :=
    fun name member owner => tracked.single name member _ named owner
  unfold createdDuringStateChange
  split
  · rw [invoke_bind]
    refine .call (fun world => world.Doomed id ∧
        (id, inst.id) ∈ world.names) ⟨doomed, named⟩
      (fun _ change held => ⟨held.1.kept change.1,
        change.2.1 ▸ held.2⟩)
      (fun _ _ => trivial) fun {later result after} tracked held behaves => ?_
    have retained := tracked.retainTerminatingRuntimeID held.2 behaves.1
    have stillDoomed : after.Doomed id := by
      obtain ⟨-, rfl⟩ := behaves.1.retainTerminatingRuntimeID
      rcases retainTerminatingRuntimeID_cases tracked.sound.keyed inst.id id
        with ⟨_, refused⟩ | ⟨row, member, -, requested, -, -, bound⟩
      · rw [refused]
        exact held.1
      · rw [bound]
        have sameID : ({ row with runtimeID := some id } : InstanceRow).id =
          row.id := rfl
        exact forall_replace member sameID held.1 fun _ => requested
    have stillNamed : (id, inst.id) ∈ after.names := by
      obtain ⟨-, rfl⟩ := behaves.1.retainTerminatingRuntimeID
      exact held.2
    refine ⟨retained, ?_⟩
    split
    · refine delete_containerSafe stillDoomed (only retained stillNamed)
        (fun cause later => ?_) (fun value later _ => ?_)
      · apply watch_containerSafe
        refine uses_invoke trivial fun current => ?_
        split
        · trivial
        · exact fail_uses _ _
      · exact watch_containerSafe (uses_invoke trivial fun _ => trivial)
    · exact discard_containerSafe stillDoomed (only retained stillNamed)
  · exact discard_containerSafe doomed (only tracked named)

/-- A refused identity belongs to an instance that is being terminated. -/
theorem doomed_of_refused {world after : World} {origin : Store}
    {row : InstanceRow} {id : RuntimeID} {failure : Failure}
    (tracked : world.Tracked) (sound : origin.Sound)
    (member : row ∈ origin.instances) (live : row.deletionRequested = false)
    (kept : InstancesKept origin world.store)
    (named : (id, row.id) ∈ world.names)
    (behaves : world.Behaves (.recordRuntimeID row.id row.generation id)
      (.error failure) after) : after.Doomed id := by
  have unchanged : after.store = world.store := by
    obtain ⟨refused, rfl⟩ := behaves.recordRuntimeID
    exact recordRuntimeID_refused tracked.sound.keyed refused.symm
  rw [World.Doomed, unchanged]
  intro other otherMember stored
  have made := tracked.named _ named
  have sameID := tracked.owner made otherMember stored
  have evolved := kept.evolves.inst sound member otherMember sameID
  by_contra wanted
  rw [Bool.not_eq_true] at wanted
  have accepted := recordRuntimeID_accepts tracked.sound.keyed otherMember
    wanted (tracked.nonempty _ made) (.inr stored)
  rw [sameID, evolved.generation (wanted.trans live.symm)] at accepted
  obtain ⟨refused, -⟩ := behaves.recordRuntimeID
  rw [accepted] at refused
  cases refused

/-- What is known of a wanted instance when its container is made. -/
def Wanted (origin : Store) (instanceID : ID) (world : World) : Prop :=
  InstancesKept origin world.store ∧ world.Holds instanceID

theorem wanted_stable (origin : Store) (instanceID : ID) :
    containerContract.Stable (Wanted origin instanceID) :=
  fun _ change held => ⟨held.1.trans change.1,
    held.2.kept change.1 change.2.1⟩

theorem launch_containerSafe {world : World} {origin : Store}
    {row : InstanceRow} {eni : ENI} (sound : origin.Sound)
    (member : row ∈ origin.instances) (live : row.deletionRequested = false)
    (tracked : world.Tracked) (wanted : Wanted origin row.id world) :
    containerContract.Keeps (launch (row.snapshot eni)) world := by
  refine watch_bind trivial (wanted_stable origin row.id) tracked wanted
    fun {image later} tracked wanted => ?_
  split
  · exact watch_containerSafe (fail_uses _ _)
  · rw [external_bind]
    refine .call (Wanted origin row.id) wanted (wanted_stable origin row.id)
      (fun _ _ => trivial) fun {later result after} tracked wanted behaves => ?_
    have made : after.Tracked ∧ InstancesKept origin after.store := by
      rcases behaves.1.create with rfl | ⟨id, added⟩
      · exact ⟨tracked, wanted.1⟩
      · exact ⟨tracked.create wanted.2 added, behaves.1.act_store ▸ wanted.1⟩
    refine ⟨made.1, ?_⟩
    refine .call (fun world => InstancesKept origin world.store) made.2
      (fun _ change held => held.trans change.1) (fun _ _ => trivial)
      fun {later result after} tracked kept behaves => ?_
    obtain ⟨rfl, -⟩ := behaves.1.answer
    refine ⟨tracked, ?_⟩
    cases result with
    | error cause => exact watch_containerSafe (fail_uses _ _)
    | ok id =>
        have named : (id, row.id) ∈ after.names := by
          obtain ⟨container, inside, owner, sameID⟩ := behaves.1.created
          exact World.mem_names.mpr ⟨container, inside, sameID, owner⟩
        change containerContract.Safe _ (invoke _ >>= _) _
        rw [invoke_bind]
        refine .call (fun world => InstancesKept origin world.store ∧
            (id, row.id) ∈ world.names) ⟨kept, named⟩
          (fun _ change held => ⟨held.1.trans change.1,
            change.2.1 ▸ held.2⟩)
          (fun _ _ => trivial)
          fun {later result after} tracked held behaves => ?_
        have recorded := tracked.recordRuntimeID held.2 behaves.1
        refine ⟨recorded, ?_⟩
        cases result with
        | ok value => exact watch_containerSafe (start_uses _ _)
        | error failure =>
            refine createdDuringStateChange_containerSafe recorded
              (doomed_of_refused tracked sound member live held.1 held.2
                behaves.1) ?_
            obtain ⟨-, rfl⟩ := behaves.1.recordRuntimeID
            exact held.2

theorem converge_containerSafe {id : ID} {world : World} {row : InstanceRow}
    {eni : ENI} (tracked : world.Tracked)
    (member : row ∈ world.store.instances)
    (live : row.deletionRequested = false) :
    containerContract.Keeps
      (converge id (row.snapshot eni)) world := by
  have sound := tracked.sound
  have wanted : Wanted world.store row.id world := by
    refine ⟨.refl _, fun other inside sameID known stored => ?_⟩
    obtain rfl := sound.keyed.instances.unique.eq_of_mem inside member sameID
    exact tracked.held other inside live known stored
  have launches {later : World} (tracked : later.Tracked)
      (wanted : Wanted world.store row.id later) :
      containerContract.Keeps (launch (row.snapshot eni)) later :=
    launch_containerSafe sound member live tracked wanted
  refine (Contract.Safe.quiet (wanted_stable world.store row.id) wanted
    ((ready_uses _).mono fun _ => Op.OfWatch.quiet)).bind tracked
      fun {isReady later} tracked wanted => ?_
  split
  · exact watch_containerSafe (fail_uses _ _)
  · trivial
  · split
    · refine watch_bind trivial (wanted_stable world.store row.id) tracked
        wanted fun {inspected later} tracked wanted => ?_
      split
      · exact watch_containerSafe (uses_invoke trivial fun _ => trivial)
      · exact watch_containerSafe (fail_uses _ _)
      · exact launches tracked wanted
    · exact launches tracked wanted

theorem reconcileLocked_containerSafe (id : ID) (world : World) :
    containerContract.Keeps (reconcileLocked id) world := by
  rw [reconcileLocked, invoke_bind]
  refine .harmless (Op.OfWatch.spares trivial)
    fun {later result after} tracked behaves _ => ?_
  obtain ⟨rfl, rfl⟩ := behaves.1.getInstance
  split
  · exact watch_containerSafe (uses_invoke trivial fun _ => trivial)
  · trivial
  · rename_i inst found
    obtain ⟨row, member, eni, -, rfl, -, -, -, rfl⟩ :=
      Store.getInstance_ok found
    split
    · rename_i requested
      exact terminate_containerSafe tracked member requested
        (behaves.2 row member rfl requested)
    · rename_i live
      exact converge_containerSafe tracked member (Bool.not_eq_true _ ▸ live)

theorem reconcilePage_containerSafe (page : List Instance) {world : World}
    (tracked : world.Tracked) :
    containerContract.Keeps (reconcilePage page) world := by
  induction page generalizing world with
  | nil => trivial
  | cons inst page induction =>
      refine (reconcileLocked_containerSafe inst.id world).bind tracked
        fun {result later} tracked _ => ?_
      split
      · trivial
      · exact induction tracked

theorem listing_spares (afterID : ID) :
    containerContract.Harmless (.listInstancePage afterID) := by
  intro world tracked
  refine ⟨trivial, fun result final behaves => ?_⟩
  rw [behaves.1.listInstancePage.2]
  exact tracked

theorem sweep_containerSafe (pages : Nat) (afterID : ID) (world : World) :
    containerContract.Keeps (sweep pages afterID) world := by
  induction pages generalizing afterID world with
  | zero => trivial
  | succ pages induction =>
      rw [sweep, invoke_bind]
      refine .harmless (listing_spares afterID)
        fun {later result after} _ _ tracked => ?_
      split
      · trivial
      · trivial
      · refine (reconcilePage_containerSafe _ tracked).bind tracked
          fun {result later} _ _ => ?_
        split
        · trivial
        · exact induction _ _

end InstanceController

theorem InstancePass.containerSafe {label : Label} {pass : Pass}
    (isPass : InstancePass label pass)
    (world : World) :
    containerContract.Keeps pass world := by
  cases isPass with
  | reconcile id =>
      exact InstanceController.reconcileLocked_containerSafe id world
  | sweep pages => exact InstanceController.sweep_containerSafe pages "" world

/-- A step in which no container goes by itself, and with which no pass finds
a container that its termination will miss. -/
def Daemon.Careful (daemon : Daemon) : Label → Prop
  | .vanish _ => False
  | .instanceStep _ => ∀ thread ∈ daemon.instanceWork,
      ∀ op, thread.outstanding = some op → daemon.world.Careful op
  | _ => True

instance (daemon : Daemon) (label : Label) :
    Decidable (daemon.Careful label) := by
  unfold Daemon.Careful
  split <;> infer_instance

/-- The runs of careful steps. -/
def carefulSystem : Transition.System Daemon Label :=
  system.restrict fun daemon label _ => daemon.Careful label

def Daemon.carefulStep (daemon : Daemon) (label : Label) : Option Daemon :=
  if daemon.Careful label then daemon.step label else none

theorem Daemon.carefulStep_sound {daemon next : Daemon} {label : Label}
    (stepped : daemon.carefulStep label = some next) :
    carefulSystem.Step daemon label next := by
  rw [carefulStep, Option.ite_none_right_eq_some] at stepped
  exact stepped.symm

structure Daemon.ContainerSafe (daemon : Daemon) : Prop where
  tracked : daemon.world.Tracked
  instanceWork : ∀ thread ∈ daemon.instanceWork,
    containerContract.Keeps thread daemon.world

namespace Daemon.ContainerSafe

variable {daemon next : Daemon} {after : World}

theorem initial (namespaces : List String) :
    (Daemon.initial namespaces).ContainerSafe where
  tracked :=
    { sound := (Formed.initial namespaces).sound
      named := fun _ member => by cases member
      nonempty := fun _ member => by cases member
      fresh := List.nodup_nil
      single := fun _ member => by cases member
      recorded := fun _ member => by cases member
      matching := fun _ member => by cases member
      held := fun _ member => by cases member }
  instanceWork _ working := by cases working

/-- A move of a party other than the instance controller. -/
theorem aside (safe : daemon.ContainerSafe)
    (store : daemon.world.store.Within Write.Foreign after.store)
    (names : after.names = daemon.world.names)
    (created : after.created = daemon.world.created) :
    Daemon.ContainerSafe { daemon with world := after } := by
  have kept := store.instancesKept safe.tracked.sound
  exact
    { tracked := safe.tracked.kept (store.sound safe.tracked.sound) kept names
        created
      instanceWork := fun thread working =>
        (safe.instanceWork thread working).persist
          fun _ _ => ⟨kept, names, created⟩ }

theorem onQueue (safe : daemon.ContainerSafe) (controller : Controller)
    (change : Queue → Queue) :
    Daemon.ContainerSafe { daemon with
      world := daemon.world.onQueue controller change } :=
  have spares := World.SparesInstances.onQueue daemon.world controller change
  safe.aside spares.store spares.names spares.created

theorem step {label : Label} (safe : daemon.ContainerSafe)
    (formed : daemon.Formed) (careful : daemon.Careful label)
    (moves : daemon.Moves label next) : next.ContainerSafe := by
  cases moves with
  | environment changes =>
      have spares := changes.sparesInstances (by rintro id rfl; exact careful)
      exact safe.aside spares.store spares.names spares.created
  | beginInstance change idle isPass =>
      refine { safe.onQueue .inst change with instanceWork := ?_ }
      rintro _ ⟨⟩
      exact isPass.containerSafe _
  | beginVPC change idle isPass => exact { safe.onQueue .vpc change with }
  | plumb working starting => exact { safe with }
  | instanceDone working =>
      refine { safe with instanceWork := ?_ }
      rintro _ ⟨⟩
  | instanceCall working hooked runs =>
      obtain ⟨tracked, thread⟩ := (safe.instanceWork _ working).complete
        safe.tracked ⟨⟨_, runs⟩, careful _ working _ rfl⟩
      refine ⟨tracked, ?_⟩
      rintro _ ⟨⟩
      exact thread
  | vpcDone working => exact { safe with }
  | @vpcCall choice op next result after working runs =>
      have behaves : World.Behaves _ op result after := ⟨choice, runs⟩
      have spares := behaves.sparesInstances (formed.vpcWork _ working).1
      exact { safe.aside spares.store spares.names spares.created with }
  | plumbDone working => exact { safe with }
  | @plumbCall index choice front back op next result after working runs =>
      have behaves : World.Behaves _ op result after := ⟨choice, runs⟩
      have uses := formed.plumbing (.call op next) (by simp [working])
      obtain ⟨links, rfl, -⟩ := behaves.plumbs uses.1
      have moved : Daemon.ContainerSafe { daemon with
          world := { daemon.world with links } } :=
        safe.aside (.inl rfl) rfl rfl
      exact { moved with }
  | crash =>
      exact
        { tracked := safe.tracked.kept safe.tracked.sound (.refl _) rfl rfl
          instanceWork := fun _ working => by cases working }

theorem of_reachable (reachable : carefulSystem.Reachable daemon) :
    daemon.Formed ∧ daemon.ContainerSafe := by
  apply reachable.invariant
    (fun daemon => daemon.Formed ∧ daemon.ContainerSafe)
  · rintro daemon ⟨namespaces, -, rfl⟩
    exact ⟨.initial namespaces, .initial namespaces⟩
  · rintro daemon label next ⟨formed, safe⟩ ⟨stepped, careful⟩
    have moves := Moves.of_step stepped
    exact ⟨formed.step moves, safe.step formed careful moves⟩

theorem cleared (safe : daemon.ContainerSafe) {thread : Pass} {op : Op}
    (working : thread ∈ daemon.instanceWork)
    (waits : thread.outstanding = some op) : daemon.world.Cleared op := by
  cases thread with
  | done value => cases waits
  | call other next =>
      cases waits
      exact (safe.instanceWork _ working).ready safe.tracked

end Daemon.ContainerSafe

/-- A move that removes an instance is the end of its termination. -/
theorem Daemon.Moves.removes {daemon next : Daemon} {label : Label}
    (formed : daemon.Formed) (moves : daemon.Moves label next)
    {row : InstanceRow} (member : row ∈ daemon.world.store.instances)
    (removed : ∀ kept ∈ next.world.store.instances, kept.id ≠ row.id) :
    ∃ thread ∈ daemon.instanceWork, ∃ snapshot,
      thread.outstanding = some (.finishInstanceTermination snapshot) ∧
        snapshot.id = row.id ∧ next.world.names = daemon.world.names := by
  have keeps {after : World}
      (same : ∀ kept ∈ after.store.instances, kept.id ≠ row.id)
      (kept : RowsKept daemon.world.store after.store) : False := by
    obtain ⟨other, inside, sameID⟩ := kept.instances row member
    exact same other inside sameID
  have within {after : World}
      (same : ∀ kept ∈ after.store.instances, kept.id ≠ row.id)
      (store : daemon.world.store.Within Write.Foreign after.store) : False :=
    keeps same (store.rowsKept formed.sound fun _ _ => id)
  cases moves with
  | environment changes => exact (within removed changes.sparesLinks.1).elim
  | beginInstance change idle isPass =>
      exact (within removed (.inl (World.onQueue_store _ _))).elim
  | beginVPC change idle isPass =>
      exact (within removed (.inl (World.onQueue_store _ _))).elim
  | @instanceCall choice op next result after working hooked runs =>
      have behaves : World.Behaves _ op result after := ⟨choice, runs⟩
      by_cases finishes : ∃ snapshot, op = .finishInstanceTermination snapshot
      · obtain ⟨snapshot, rfl⟩ := finishes
        refine ⟨_, working, snapshot, rfl, ?_⟩
        obtain ⟨now, -, rfl⟩ := behaves.finishInstanceTermination
        refine ⟨?_, rfl⟩
        rcases commit_cases (finishInstanceTermination snapshot now)
          daemon.world.store with
          ⟨failure, failed⟩ | ⟨value, final, run, committed⟩
        · refine (within removed (.inl ?_)).elim
          rw [Store.withTx, failed]
        · obtain ⟨finished, eni, describes, -, rfl⟩ :=
            finishInstanceTermination_ok formed.sound.keyed run
          have sameID : finished.id = snapshot.id := describes.same.1
          by_contra different
          refine removed row ?_ rfl
          rw [Store.withTx, committed]
          exact mem_remove_iff.mpr ⟨member, fun same =>
            different (sameID.symm.trans same.symm)⟩
      · exact (keeps removed (behaves.rowsKept formed.sound
          fun snapshot same => finishes ⟨snapshot, same⟩)).elim
  | @vpcCall choice op next result after working runs =>
      have behaves : World.Behaves _ op result after := ⟨choice, runs⟩
      have spares := behaves.sparesInstances (formed.vpcWork _ working).1
      exact (within removed spares.store).elim
  | @plumbCall index choice front back op next result after working runs =>
      have behaves : World.Behaves _ op result after := ⟨choice, runs⟩
      have uses := formed.plumbing (.call op next) (by simp [working])
      obtain ⟨links, rfl, -⟩ := behaves.plumbs uses.1
      exact (within removed (.inl rfl)).elim
  | _ => exact (within removed (.inl rfl)).elim

/-- In careful runs no container outlives its instance: while the end of a
termination waits for its commit, and after every step that removes an
instance, the runtime has no container of the instance. -/
theorem carefulSystem_containers_gone {daemon : Daemon}
    (reachable : carefulSystem.Reachable daemon) :
    (∀ snapshot, daemon.Awaits (.finishInstanceTermination snapshot) →
      ∀ container ∈ daemon.world.containers,
        container.instanceID ≠ snapshot.id) ∧
    ∀ label next, carefulSystem.Step daemon label next →
      ∀ row ∈ daemon.world.store.instances,
        (∀ kept ∈ next.world.store.instances, kept.id ≠ row.id) →
          ∀ container ∈ next.world.containers,
            container.instanceID ≠ row.id := by
  obtain ⟨formed, safe⟩ := Daemon.ContainerSafe.of_reachable reachable
  have named {world : World} {instanceID : ID} (gone : world.Gone instanceID) :
      ∀ container ∈ world.containers, container.instanceID ≠ instanceID :=
    fun container member => gone _ (List.mem_map.mpr ⟨container, member, rfl⟩)
  constructor
  · intro snapshot awaits
    obtain ⟨thread, working, waits⟩ :=
      formed.awaits_instance awaits id id
    exact named (safe.cleared working waits)
  · rintro label next ⟨stepped, -⟩ row member removed
    obtain ⟨thread, working, snapshot, waits, sameID, names⟩ :=
      (Daemon.Moves.of_step stepped).removes formed member removed
    have gone : daemon.world.Gone snapshot.id := safe.cleared working waits
    apply named
    rw [World.Gone, names, ← sameID]
    exact gone

/-- A run of the requests and calls of one instance whose container and row
are gone in the end. -/
theorem firstTermination_containers_gone :
    ∃ daemon next row, carefulSystem.Reachable daemon ∧
      carefulSystem.Step daemon (.instanceStep (.clock 5)) next ∧
      daemon.world.created = [("c1", row.id)] ∧
      row ∈ daemon.world.store.instances ∧
      next.world.store.instances = [] ∧
      ∀ container ∈ next.world.containers, container.instanceID ≠ row.id := by
  have runs : (firstTermination.foldlM Daemon.carefulStep
      (.initial [])).any (fun daemon =>
        (daemon.carefulStep (.instanceStep (.clock 5))).any fun next =>
          daemon.world.store.instances.any fun row =>
            decide (daemon.world.created = [("c1", row.id)]) &&
              next.world.store.instances.isEmpty) = true := by
    decide +kernel
  obtain ⟨daemon, ran, checked⟩ := (Option.any_eq_true _ _).mp runs
  obtain ⟨next, stepped, checked⟩ := (Option.any_eq_true _ _).mp checked
  obtain ⟨row, member, checked⟩ := List.any_eq_true.mp checked
  rw [Bool.and_eq_true, decide_eq_true_iff, List.isEmpty_iff] at checked
  have reachable : carefulSystem.Reachable daemon :=
    ⟨.initial [], firstTermination,
      ⟨[], fun _ member => (List.not_mem_nil member).elim, rfl⟩,
      .of_steps Daemon.carefulStep_sound ran⟩
  have step := Daemon.carefulStep_sound stepped
  refine ⟨daemon, next, row, reachable, step, checked.1, member, checked.2,
    (carefulSystem_containers_gone reachable).2 _ next step row member ?_⟩
  rw [checked.2]
  exact fun _ kept => (List.not_mem_nil kept).elim

/-- The daemon crashes before it records the container that it made, and the
instance is terminated. -/
def orphanRun : List Label :=
  firstCreate ++
    [ .crash, .serve (.terminateSnapshot "i-03030303030303030" 2),
      .reconcileInstance "i-03030303030303030",
      .instanceStep .plain, .instanceStep .plain, .instanceStep .plain,
      .instanceStep .plain, .instanceStep .succeeds ]

theorem orphanRun_leaves_container :
    ∃ daemon next row container,
      (Daemon.initial []).run orphanRun = some daemon ∧
      system.Reachable daemon ∧
      daemon.step (.instanceStep (.clock 5)) = some next ∧
      row ∈ daemon.world.store.instances ∧
      next.world.store.instances = [] ∧
      container ∈ next.world.containers ∧ container.instanceID = row.id := by
  have runs : ((Daemon.initial []).run orphanRun).any (fun daemon =>
      (daemon.step (.instanceStep (.clock 5))).any fun next =>
        daemon.world.store.instances.any fun row =>
          next.world.containers.any fun container =>
            next.world.store.instances.isEmpty &&
              decide (container.instanceID = row.id)) = true := by
    decide +kernel
  obtain ⟨daemon, ran, checked⟩ := (Option.any_eq_true _ _).mp runs
  obtain ⟨next, stepped, checked⟩ := (Option.any_eq_true _ _).mp checked
  obtain ⟨row, member, checked⟩ := List.any_eq_true.mp checked
  obtain ⟨container, left, checked⟩ := List.any_eq_true.mp checked
  rw [Bool.and_eq_true, decide_eq_true_iff, List.isEmpty_iff] at checked
  exact ⟨daemon, next, row, container, ran, Daemon.run_reachable ran,
    stepped, member, checked.1, left, checked.2⟩

end Nephos
