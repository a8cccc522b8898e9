import Nephos.Lifecycle

/-!
# The event log

Clients see resources through events.  A client that folds the committed
events in the order of their numbers knows the existence, the state, the
reason and the generations of every VPC, subnet and instance, and each
transaction adds exactly one event for each resource it changes in these
columns.
-/

namespace Nephos

open Transaction Transition.System

/-- What a client can see of a resource. -/
structure Visible where
  state : EventState
  reason : String
  generation : Int
  observed : Int
deriving DecidableEq, Repr

def VPC.visible (row : VPC) : Visible :=
  { state := row.state.text, reason := row.stateReason
    generation := row.generation, observed := row.observedGeneration }

def Subnet.visible (row : Subnet) : Visible :=
  { state := row.state.text, reason := row.stateReason
    generation := row.generation, observed := row.observedGeneration }

def InstanceRow.visible (row : InstanceRow) : Visible :=
  { state := row.state.text, reason := row.stateReason
    generation := row.generation, observed := row.observedGeneration }

/-- What is stored of a resource; interfaces do not show on their own. -/
def Store.visible (store : Store) (resource : Resource) : Option Visible :=
  match resource.kind with
  | .vpc => (lookup VPC.id resource.id store.vpcs).map VPC.visible
  | .subnet => (lookup Subnet.id resource.id store.subnets).map Subnet.visible
  | .inst =>
      (lookup InstanceRow.id resource.id store.instances).map
        InstanceRow.visible
  | .eni => none

def Event.about (event : Event) : Resource :=
  ⟨event.resourceType, event.resourceID⟩

/-- The rule by which a client reads one event. -/
def Event.observe (current : Option Visible) (event : Event) :
    Option Visible :=
  match event.action with
  | .created => some
      { state := .pending, reason := "", generation := event.generation
        observed := 0 }
  | .deleting | .terminating => current.map fun visible => { visible with
      state := event.state, reason := "", generation := event.generation }
  | .status => current.map fun visible => { visible with
      state := event.state, reason := event.message
      observed := if event.state = .available ∨ event.state = .running
        then event.generation else visible.observed }
  | .deleted => none

/-- The state of a resource that a client computes from a set of events. -/
def clientView (events : List Event) (resource : Resource) : Option Visible :=
  ((events.insertionSort fun left right => left.id ≤ right.id).filter
    fun event => event.about = resource).foldl Event.observe none

/-- One event about the resource is appended, the resource changes as the
event says, and no other resource changes. -/
structure Shown (store next : Store) (resource : Resource) (event : Event) :
    Prop where
  about : event.about = resource
  number : event.id = store.eventSequence + 1
  appended : next.events = store.events ++ [event]
  sequence : next.eventSequence = store.eventSequence + 1
  observed : next.visible resource =
    Event.observe (store.visible resource) event
  changed : next.visible resource ≠ store.visible resource
  others : ∀ other, other ≠ resource →
    next.visible other = store.visible other

/-- Nothing that clients see changes. -/
structure Hidden (store next : Store) : Prop where
  events : next.events = store.events
  sequence : next.eventSequence = store.eventSequence
  visible : ∀ resource, next.visible resource = store.visible resource

theorem State.text_injective {left right : State}
    (same : left.text = right.text) : left = right := by
  cases left <;> cases right <;> first | rfl | cases same

theorem InstanceState.text_injective {left right : InstanceState}
    (same : left.text = right.text) : left = right := by
  cases left <;> cases right <;> first | rfl | cases same

/-- The event an edit logs for a resource. -/
def logged (store : Store) (resource : Resource) (action : Action)
    (state : EventState) (generation : Int) (message : String) (time : Int) :
    Event :=
  { id := store.eventSequence + 1, workspaceID := defaultWorkspace
    resourceType := resource.kind, resourceID := resource.id, action, state
    generation, message, createdAt := time }

/-- The rows of a kind are what clients see of it. -/
def Shows {Row : Type} (kind : ResourceKind) (identity : Row → ID)
    (rows : Store → List Row) (visible : Row → Visible) : Prop :=
  ∀ store id, store.visible ⟨kind, id⟩ =
    (lookup identity id (rows store)).map visible

theorem shows_vpcs : Shows .vpc VPC.id Store.vpcs VPC.visible :=
  fun _ _ => rfl

theorem shows_subnets : Shows .subnet Subnet.id Store.subnets Subnet.visible :=
  fun _ _ => rfl

theorem shows_instances : Shows .inst InstanceRow.id Store.instances
    InstanceRow.visible :=
  fun _ _ => rfl

/-- An edit leaves the other kinds alone. -/
theorem Edit.apply_visible (store : Store) {edit : Edit} {resource : Resource}
    (touched : edit.touched = some resource) {other : Resource}
    (different : other.kind ≠ resource.kind) :
    (edit.apply store).visible other = store.visible other := by
  obtain ⟨kind, id⟩ := other
  cases edit <;> cases touched <;> cases kind <;>
    first | rfl | exact absurd rfl different

/-- The edit logs the event about the resource. -/
structure Logs (store : Store) (edit : Edit) (resource : Resource)
    (event : Event) : Prop where
  touched : edit.touched = some resource
  about : event.about = resource
  number : event.id = store.eventSequence + 1
  appended : (edit.apply store).events = store.events ++ [event]
  sequence : (edit.apply store).eventSequence = store.eventSequence + 1

namespace Shows

variable {Row : Type} {kind : ResourceKind} {identity : Row → ID}
  {rows : Store → List Row} {visible : Row → Visible} {store : Store}
  {edit : Edit} {row : Row} {time : Int}

/-- The event says what the edit does to what clients see. -/
theorem shown (shows : Shows kind identity rows visible) {id : ID}
    {event : Event} (found : Option Row) {before : Option Visible}
    (logs : Logs store edit ⟨kind, id⟩ event)
    (seen : store.visible ⟨kind, id⟩ = before)
    (change : ∀ key, lookup identity key (rows (edit.apply store)) =
      if id = key then found else lookup identity key (rows store))
    (observed : found.map visible = Event.observe before event)
    (changed : found.map visible ≠ before) :
    Shown store (edit.apply store) ⟨kind, id⟩ event := by
  subst seen
  have visible : (edit.apply store).visible ⟨kind, id⟩ =
      found.map visible := by
    rw [shows, change, if_pos rfl]
  refine ⟨logs.about, logs.number, logs.appended, logs.sequence,
    visible.trans observed, visible.symm ▸ changed, ?_⟩
  rintro ⟨other, key⟩ different
  by_cases same : other = kind
  · subst same
    have distinct : id ≠ key := fun same => different (by rw [same])
    rw [shows, shows, change, if_neg distinct]
  · exact edit.apply_visible store logs.touched same

theorem of_mem (shows : Shows kind identity rows visible)
    (unique : Unique identity (rows store)) (member : row ∈ rows store) :
    store.visible ⟨kind, identity row⟩ = some (visible row) := by
  rw [shows, (lookup_eq_some_iff unique).mpr ⟨member, rfl⟩]
  rfl

theorem created (shows : Shows kind identity rows visible)
    (logs : Logs store edit ⟨kind, identity row⟩
      (logged store ⟨kind, identity row⟩ .created .pending 1 "" time))
    (added : rows (edit.apply store) = rows store ++ [row])
    (fresh : ∀ other ∈ rows store, identity other ≠ identity row)
    (pending : visible row = ⟨.pending, "", 1, 0⟩) :
    Shown store (edit.apply store) ⟨kind, identity row⟩
      (logged store ⟨kind, identity row⟩ .created .pending 1 "" time) := by
  have unseen : store.visible ⟨kind, identity row⟩ = none := by
    rw [shows, lookup_eq_none_iff.mpr fresh]
    rfl
  refine shows.shown (some row) logs unseen ?_ (congrArg some pending) nofun
  rw [added]
  exact lookup_append fresh

theorem replaced (shows : Shows kind identity rows visible)
    {replacement : Row} {event : Event}
    (logs : Logs store edit ⟨kind, identity row⟩ event)
    (put : rows (edit.apply store) =
      replace identity replacement (rows store))
    (same : identity replacement = identity row)
    (unique : Unique identity (rows store)) (member : row ∈ rows store)
    (observed : some (visible replacement) =
      Event.observe (some (visible row)) event)
    (changed : visible replacement ≠ visible row) :
    Shown store (edit.apply store) ⟨kind, identity row⟩ event := by
  refine shows.shown (some replacement) logs (shows.of_mem unique member) ?_
    observed (by simpa using changed)
  rw [put]
  exact lookup_replace unique member replacement same

theorem removed (shows : Shows kind identity rows visible) {event : Event}
    (logs : Logs store edit ⟨kind, identity row⟩ event)
    (gone : rows (edit.apply store) =
      remove identity (identity row) (rows store))
    (unique : Unique identity (rows store)) (member : row ∈ rows store)
    (deleted : event.action = .deleted) :
    Shown store (edit.apply store) ⟨kind, identity row⟩ event := by
  refine shows.shown none logs (shows.of_mem unique member) ?_ ?_ nofun
  · rw [gone]
    exact lookup_remove unique _
  · rw [Event.observe, deleted]
    rfl

end Shows

theorem Visible.observe_status (visible : Visible) {event : Event}
    {state : State} {reason : String} {succeeded requested : Bool}
    (status : EngineStatus state reason succeeded requested)
    (action : event.action = .status) (shown : event.state = state.text)
    (generation : event.generation = visible.generation)
    (message : event.message = reason) :
    some { visible with
        state := state.text, reason
        observed := if succeeded then visible.generation
          else visible.observed } =
      Event.observe (some visible) event := by
  simp only [Event.observe, action, shown, generation, message]
  rcases status with ⟨rfl, rfl, rfl, -⟩ | ⟨rfl, rfl⟩ <;> rfl

theorem InstanceRow.observe_status {row : InstanceRow} {event : Event}
    {status : InstanceState} {reason : String} {observed : Bool}
    (issued : IssuedStatus status reason observed)
    (action : event.action = .status) (shown : event.state = status.text)
    (generation : event.generation = row.generation)
    (message : event.message = reason) :
    some (row.withStatus status reason observed).visible =
      Event.observe (some row.visible) event := by
  simp only [Event.observe, action, shown, generation, message]
  rcases issued with ⟨rfl, rfl, rfl⟩ | ⟨rfl, rfl⟩ <;> rfl

theorem VPC.visible_status_ne {row : VPC} {state : State} {reason : String}
    {succeeded : Bool} (changes : row.withStatus state reason succeeded ≠ row) :
    (row.withStatus state reason succeeded).visible ≠ row.visible := by
  intro same
  apply changes
  rw [VPC.withStatus_eq_iff]
  simp only [VPC.visible, VPC.withStatus, Visible.mk.injEq] at same
  exact ⟨(State.text_injective same.1).symm, same.2.1.symm, same.2.2.2.symm⟩

theorem Subnet.visible_status_ne {row : Subnet} {state : State}
    {reason : String} {succeeded : Bool}
    (changes : row.withStatus state reason succeeded ≠ row) :
    (row.withStatus state reason succeeded).visible ≠ row.visible := by
  intro same
  apply changes
  rw [Subnet.withStatus_eq_iff]
  simp only [Subnet.visible, Subnet.withStatus, Visible.mk.injEq] at same
  exact ⟨(State.text_injective same.1).symm, same.2.1.symm, same.2.2.2.symm⟩

theorem InstanceRow.visible_status_ne {row : InstanceRow}
    {status : InstanceState} {reason : String} {observed : Bool}
    (changes : row.withStatus status reason observed ≠ row) :
    (row.withStatus status reason observed).visible ≠ row.visible := by
  intro same
  apply changes
  rw [InstanceRow.withStatus_eq_iff]
  simp only [InstanceRow.visible, InstanceRow.withStatus,
    Visible.mk.injEq] at same
  exact ⟨(InstanceState.text_injective same.1).symm, same.2.1.symm,
    same.2.2.2.symm⟩

/-- An edit of a resource logs the event that describes it, and any other
edit does not show. -/
theorem Edit.Allowed.shown {store : Store} {edit : Edit}
    (allowed : edit.Allowed store) (issued : edit.Issued)
    (keyed : store.Keyed) :
    (edit.touched = none ∧ Hidden store (edit.apply store)) ∨
      ∃ resource event, edit.touched = some resource ∧
        Shown store (edit.apply store) resource event := by
  cases allowed with
  | createVPC fresh block unused index =>
      refine .inr ⟨_, _, rfl, shows_vpcs.created ⟨rfl, rfl, rfl, rfl, rfl⟩ rfl
        (keyed.vpcs.fresh unused) ?_⟩
      rw [VPC.visible, fresh.state, fresh.reason, fresh.generation,
        fresh.observed]
      rfl
  | markVPC member live childless =>
      exact .inr ⟨_, _, rfl, shows_vpcs.replaced ⟨rfl, rfl, rfl, rfl, rfl⟩ rfl
        rfl keyed.vpcs.unique member rfl (by simp [VPC.visible, VPC.marked])⟩
  | @vpcStatus row state reason succeeded time member changes status =>
      exact .inr ⟨_, _, rfl, shows_vpcs.replaced ⟨rfl, rfl, rfl, rfl, rfl⟩ rfl
        rfl keyed.vpcs.unique member (row.visible.observe_status status rfl rfl rfl rfl)
        (VPC.visible_status_ne changes)⟩
  | removeVPC member requested childless =>
      exact .inr ⟨_, _, rfl, shows_vpcs.removed ⟨rfl, rfl, rfl, rfl, rfl⟩ rfl
        keyed.vpcs.unique member rfl⟩
  | createSubnet parent parentID parentLive fresh block range disjoint unused
      index =>
      refine .inr ⟨_, _, rfl, shows_subnets.created
        ⟨rfl, rfl, rfl, rfl, rfl⟩ rfl (keyed.subnets.fresh unused) ?_⟩
      rw [Subnet.visible, fresh.state, fresh.reason, fresh.generation,
        fresh.observed]
      rfl
  | markSubnet member live childless =>
      exact .inr ⟨_, _, rfl, shows_subnets.replaced
        ⟨rfl, rfl, rfl, rfl, rfl⟩ rfl rfl keyed.subnets.unique member rfl
        (by simp [Subnet.visible, Subnet.marked])⟩
  | @subnetStatus row state reason succeeded time member changes status =>
      exact .inr ⟨_, _, rfl, shows_subnets.replaced
        ⟨rfl, rfl, rfl, rfl, rfl⟩ rfl rfl keyed.subnets.unique member
        (row.visible.observe_status status rfl rfl rfl rfl)
        (Subnet.visible_status_ne changes)⟩
  | removeSubnet member requested =>
      exact .inr ⟨_, _, rfl, shows_subnets.removed
        ⟨rfl, rfl, rfl, rfl, rfl⟩ rfl keyed.subnets.unique member rfl⟩
  | createInstance parent parentID parentLive fresh eniFresh owner single
      eniSubnet lease is4 mac unused eniUnused distinct index eniIndex =>
      refine .inr ⟨_, _, rfl, shows_instances.created
        ⟨rfl, rfl, rfl, rfl, rfl⟩ rfl (keyed.instances.fresh unused) ?_⟩
      rw [InstanceRow.visible, fresh.state, fresh.reason, fresh.generation,
        fresh.observed]
      rfl
  | markInstance member live =>
      exact .inr ⟨_, _, rfl, shows_instances.replaced
        ⟨rfl, rfl, rfl, rfl, rfl⟩ rfl rfl keyed.instances.unique member rfl
        (by simp [InstanceRow.visible, InstanceRow.marked])⟩
  | instanceStatus member eniMember owner changes accepted =>
      exact .inr ⟨_, _, rfl, shows_instances.replaced
        ⟨rfl, rfl, rfl, rfl, rfl⟩ rfl rfl keyed.instances.unique member
        (InstanceRow.observe_status issued rfl rfl rfl rfl)
        (InstanceRow.visible_status_ne changes)⟩
  | removeInstance member eniMember owner requested =>
      exact .inr ⟨_, _, rfl, shows_instances.removed
        ⟨rfl, rfl, rfl, rfl, rfl⟩ rfl keyed.instances.unique member rfl⟩
  | @setRuntimeID row runtimeID member unset nonempty =>
      refine .inl ⟨rfl, rfl, rfl, ?_⟩
      rintro ⟨kind, id⟩
      cases kind with
      | inst =>
          have change := lookup_replace keyed.instances.unique member
            { row with runtimeID := some runtimeID } rfl id
          rw [shows_instances, shows_instances]
          refine (congrArg _ change).trans ?_
          split
          · rename_i same
            rw [← same, (lookup_eq_some_iff keyed.instances.unique).mpr
              ⟨member, rfl⟩]
            rfl
          · rfl
      | _ => rfl
  | saveReplay workspace replaced =>
      exact .inl ⟨rfl, rfl, rfl, fun _ => rfl⟩

/-- The log is numbered in the order of its commits. -/
structure Store.Numbered (store : Store) : Prop where
  increasing : store.events.Pairwise fun left right => left.id < right.id
  bounded : ∀ event ∈ store.events,
    0 < event.id ∧ event.id ≤ store.eventSequence
  sequence : 0 ≤ store.eventSequence

theorem Store.Numbered.empty : Store.empty.Numbered := by
  constructor <;> simp [Store.empty]

theorem Store.Numbered.append {store next : Store} (numbered : store.Numbered)
    {event : Event} (number : event.id = store.eventSequence + 1)
    (appended : next.events = store.events ++ [event])
    (sequence : next.eventSequence = store.eventSequence + 1) :
    next.Numbered where
  increasing := by
    rw [appended, List.pairwise_append]
    refine ⟨numbered.increasing, List.pairwise_singleton _ _, ?_⟩
    intro old oldMember new newMember
    rw [List.mem_singleton.mp newMember, number]
    have bound := (numbered.bounded old oldMember).2
    omega
  bounded := by
    rw [appended]
    apply forall_append
    · intro old member
      have bound := numbered.bounded old member
      omega
    · have positive := numbered.sequence
      omega
  sequence := by
    have positive := numbered.sequence
    omega

theorem Store.Numbered.same {store next : Store} (numbered : store.Numbered)
    (events : next.events = store.events)
    (sequence : next.eventSequence = store.eventSequence) :
    next.Numbered := by
  obtain ⟨increasing, bounded, positive⟩ := numbered
  rw [← events] at increasing bounded
  rw [← sequence] at bounded positive
  exact ⟨increasing, bounded, positive⟩

/-- What a run of edits adds to the log, seen from one resource. -/
structure LogStep (store final : Store) (touched : List Resource)
    (added : List Event) : Prop where
  appended : final.events = store.events ++ added
  numbered : store.Numbered → final.Numbered
  counted : ∀ resource,
    (added.filter fun event => event.about = resource).length =
      if resource ∈ touched then 1 else 0
  changed : ∀ resource, final.visible resource ≠ store.visible resource ↔
    resource ∈ touched
  folded : ∀ resource, final.visible resource =
    (added.filter fun event => event.about = resource).foldl Event.observe
      (store.visible resource)

namespace LogStep

variable {store middle final : Store} {touched : List Resource}
  {added : List Event}

theorem refl (store : Store) : LogStep store store [] [] where
  appended := (List.append_nil _).symm
  numbered := id
  counted := by simp
  changed := by simp
  folded := by simp

theorem hidden (first : Hidden store middle)
    (rest : LogStep middle final touched added) :
    LogStep store final touched added where
  appended := by rw [rest.appended, first.events]
  numbered numbered := rest.numbered
    (numbered.same first.events first.sequence)
  counted := rest.counted
  changed resource := by rw [← first.visible]; exact rest.changed resource
  folded resource := by rw [← first.visible]; exact rest.folded resource

/-- An event about a resource that the rest of the run leaves alone. -/
theorem shown {resource : Resource} {event : Event}
    (first : Shown store middle resource event)
    (rest : LogStep middle final touched added)
    (alone : resource ∉ touched) :
    LogStep store final (resource :: touched) (event :: added) where
  appended := by
    rw [rest.appended, first.appended, List.append_assoc]
    rfl
  numbered numbered := rest.numbered
    (numbered.append first.number first.appended first.sequence)
  counted other := by
    by_cases same : other = resource
    · subst same
      simp [first.about, rest.counted, alone]
    · have apart : event.about ≠ other := fun about =>
        same (about.symm.trans first.about)
      simp [apart, rest.counted, same]
  changed other := by
    by_cases same : other = resource
    · subst same
      have kept : final.visible other = middle.visible other := by
        by_contra changes
        exact alone ((rest.changed other).mp changes)
      simp [kept, first.changed]
    · rw [← first.others other same, rest.changed]
      simp [same]
  folded other := by
    by_cases same : other = resource
    · subst same
      rw [rest.folded, first.observed]
      simp [first.about]
    · have apart : event.about ≠ other := fun about =>
        same (about.symm.trans first.about)
      rw [rest.folded, first.others other same]
      simp [apart]

end LogStep

/-- Edits of different resources log one event for each of them. -/
theorem edits_run_logStep {store final : Store} {labels : List Edit}
    (run : edits.Run store labels final)
    (issued : ∀ edit ∈ labels, edit.Issued) (keyed : store.Keyed)
    (distinct : (labels.filterMap Edit.touched).Nodup) :
    ∃ added,
      LogStep store final (labels.filterMap Edit.touched) added := by
  induction run with
  | nil state => exact ⟨[], .refl state⟩
  | @cons state middle final edit labels step _ induction =>
      obtain ⟨allowed, rfl⟩ := step
      rw [List.forall_mem_cons] at issued
      rcases allowed.shown issued.1 keyed with
        ⟨untouched, first⟩ | ⟨resource, event, touches, first⟩
      · rw [List.filterMap_cons_none untouched] at distinct ⊢
        obtain ⟨added, rest⟩ :=
          induction issued.2 (allowed.keyed keyed) distinct
        exact ⟨added, .hidden first rest⟩
      · rw [List.filterMap_cons_some touches] at distinct ⊢
        obtain ⟨alone, restDistinct⟩ := List.nodup_cons.mp distinct
        obtain ⟨added, rest⟩ :=
          induction issued.2 (allowed.keyed keyed) restDistinct
        exact ⟨event :: added, .shown first rest alone⟩

theorem Write.logStep {store : Store} (keyed : store.Keyed) (write : Write)
    (issued : write.Issued) :
    ∃ touched added, LogStep store (write.apply store) touched added := by
  obtain ⟨labels, run, distinct, all⟩ := write.edited keyed
  obtain ⟨added, step⟩ := edits_run_logStep run
    (fun edit member => (all edit member).issued issued) keyed distinct
  exact ⟨_, added, step⟩

/-- The log of a database tells what is stored. -/
structure Store.Told (store : Store) : Prop where
  sound : store.Sound
  numbered : store.Numbered
  folded : ∀ resource, store.visible resource =
    (store.events.filter fun event => event.about = resource).foldl
      Event.observe none

theorem Store.Told.step {store : Store} (told : store.Told) {write : Write}
    (issued : write.Issued) : (write.apply store).Told := by
  obtain ⟨touched, added, step⟩ := write.logStep told.sound.keyed issued
  obtain ⟨labels, run, -⟩ := write.edited told.sound.keyed
  refine ⟨edits_run_sound run told.sound, step.numbered told.numbered, ?_⟩
  intro resource
  rw [step.folded, told.folded, step.appended, List.filter_append,
    List.foldl_append]

theorem issuedDatabase_reachable_told {store : Store}
    (reachable : issuedDatabase.Reachable store) : store.Told := by
  apply reachable.invariant Store.Told
  · rintro start rfl
    refine ⟨⟨.empty, .empty⟩, .empty, fun resource => ?_⟩
    obtain ⟨kind, id⟩ := resource
    cases kind <;> rfl
  · rintro state write next told ⟨rfl, issued⟩
    exact told.step issued

/-- A client that folds all events in the order of their numbers knows what
is stored, and the next transaction adds one event for each resource it
changes and none for any other. -/
theorem issuedDatabase_eventLog {store : Store}
    (reachable : issuedDatabase.Reachable store) :
    (∀ resource,
        clientView store.events resource = store.visible resource) ∧
      ∀ write : Write, write.Issued →
        ∃ added, (write.apply store).events = store.events ++ added ∧
          ∀ resource,
            (added.filter fun event => event.about = resource).length =
              if (write.apply store).visible resource ≠
                store.visible resource then 1 else 0 := by
  have told := issuedDatabase_reachable_told reachable
  constructor
  · intro resource
    have sorted : store.events.Pairwise fun left right =>
        left.id ≤ right.id :=
      told.numbered.increasing.imp fun less => Int.le_of_lt less
    rw [clientView, sorted.insertionSort_eq, told.folded]
  · intro write issued
    obtain ⟨touched, added, step⟩ := write.logStep told.sound.keyed issued
    refine ⟨added, step.appended, fun resource => ?_⟩
    rw [step.counted]
    simp only [step.changed]

theorem firstStore_eventLog :
    firstStore.events.length = 3 ∧
      ∀ resource,
        clientView firstStore.events resource = firstStore.visible resource :=
  ⟨by decide +kernel, (issuedDatabase_eventLog firstStore_issued).1⟩

end Nephos
