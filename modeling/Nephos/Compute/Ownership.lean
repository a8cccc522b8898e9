import Nephos.Compute.Podman
import Nephos.Reconcile.Moves

/-!
# The containers that the daemon touches

`Start`, `Delete` and `Exec` check that a container is one of Nephos, not that
it is the one of the instance they work for.  That follows from the rows: an
identity gets into a row only from `Create`, which returns the container with
the name of the instance, and it is not used for another container later.  It
may become the name of another one, which only the check tells apart.
-/

namespace Nephos

open Effects Transaction

/-- The identity that a write gives to an instance. -/
def Write.binds : Write → Option (ID × RuntimeID)
  | .recordRuntimeID instanceID _ runtimeID
  | .retainTerminatingRuntimeID instanceID runtimeID =>
      some (instanceID, runtimeID)
  | _ => none

section Rows

variable {store final : Store}

theorem Edit.Allowed.runtime_source {edit : Edit}
    (allowed : edit.Allowed store) {row : InstanceRow}
    (member : row ∈ (edit.apply store).instances) {id : RuntimeID}
    (stored : row.runtimeID = some id) :
    (∃ old ∈ store.instances, old.id = row.id ∧ old.runtimeID = some id) ∨
      ∃ bound, edit = .setRuntimeID bound id ∧ bound.id = row.id := by
  by_cases foreign : edit.Foreign
  · rcases (allowed.instancesKept foreign).source row member with
      ⟨-, unset⟩ | ⟨old, origin, evolves, same⟩
    · cases unset.symm.trans stored
    · exact .inl ⟨old, origin, evolves.sameID.symm, same.symm.trans stored⟩
  · cases allowed with
    | removeInstance =>
        exact .inl ⟨row, (mem_remove_iff.mp member).1, rfl, stored⟩
    | @setRuntimeID bound runtimeID origin =>
        have sameID : ({ bound with runtimeID := some runtimeID } :
          InstanceRow).id = bound.id := rfl
        rcases (mem_replace_iff origin sameID).mp member with rfl | ⟨old, -⟩
        · cases stored
          exact .inr ⟨bound, rfl, rfl⟩
        · exact .inl ⟨row, old, rfl, stored⟩
    | _ => exact absurd trivial foreign

theorem edits_run_runtime_source {labels : List Edit}
    (run : edits.Run store labels final) {row : InstanceRow}
    (member : row ∈ final.instances) {id : RuntimeID}
    (stored : row.runtimeID = some id) :
    (∃ old ∈ store.instances, old.id = row.id ∧ old.runtimeID = some id) ∨
      ∃ bound, .setRuntimeID bound id ∈ labels ∧ bound.id = row.id := by
  induction run with
  | nil => exact .inl ⟨row, member, rfl, stored⟩
  | cons step _ induction =>
      obtain ⟨allowed, rfl⟩ := step
      rcases induction member with ⟨old, inside, same, known⟩ | later
      · rcases allowed.runtime_source inside known with
          ⟨first, origin, sameID, first_known⟩ | ⟨bound, rfl, sameID⟩
        · exact .inl ⟨first, origin, sameID.trans same, first_known⟩
        · exact .inr ⟨bound, List.mem_cons_self, sameID.trans same⟩
      · obtain ⟨bound, inside, sameID⟩ := later
        exact .inr ⟨bound, List.mem_cons_of_mem _ inside, sameID⟩

theorem Write.runtime_source (sound : store.Sound) (write : Write)
    {row : InstanceRow} (member : row ∈ (write.apply store).instances)
    {id : RuntimeID} (stored : row.runtimeID = some id) :
    (∃ old ∈ store.instances, old.id = row.id ∧ old.runtimeID = some id) ∨
      write.binds = some (row.id, id) := by
  obtain ⟨labels, run, -, all⟩ := write.edited sound.keyed
  rcases edits_run_runtime_source run member stored with
    old | ⟨bound, inside, same⟩
  · exact .inl old
  · have makes := all _ inside
    cases write <;> try exact makes.elim
    case recordRuntimeID =>
      obtain ⟨rfl, -, -, rfl⟩ := makes
      exact .inr (congrArg some (Prod.ext same rfl))
    case retainTerminatingRuntimeID =>
      obtain ⟨rfl, -, rfl⟩ := makes
      exact .inr (congrArg some (Prod.ext same rfl))

end Rows

namespace Podman

/-- A container of Nephos for the instance. -/
structure ContainerInspect.BelongsTo (doc : ContainerInspect) (id : ID) :
    Prop where
  name : doc.name = id
  label : valueOf doc.labels instanceLabel = id
  annotation : valueOf doc.annotations instanceLabel = id
  managed : valueOf doc.labels managedLabel = "true"
  workspace : valueOf doc.labels workspaceLabel = "default"

/-- An identity has no dash. -/
theorem isRuntimeID_ne {id name : String} (identity : isRuntimeID id = true)
    (named : isInstanceID name = true) : id ≠ name := by
  rintro rfl
  unfold isInstanceID at named
  split at named
  · rename_i digits same
    simp only [isRuntimeID, same, Bool.and_eq_true, List.all_cons] at identity
    exact absurd identity.2.1 (by decide)
  · cases named

theorem owned_ok {doc : ContainerInspect} (accepted : owned doc = .ok ()) :
    doc.id ≠ doc.name ∧ doc.BelongsTo doc.name := by
  unfold owned at accepted
  split at accepted
  · cases accepted
  · rename_i checked
    simp only [Bool.or_eq_true, not_or, Bool.not_eq_true, Bool.not_eq_false',
      bne_eq_false_iff_eq] at checked
    obtain ⟨⟨⟨⟨⟨named, identity⟩, managed⟩, workspace⟩, label⟩, annotation⟩ :=
      checked
    exact ⟨isRuntimeID_ne identity named, rfl, label, annotation, managed,
      workspace⟩

/-- The containers that exist were made, with identities of their own. -/
structure Engine.Formed (engine : Engine) : Prop where
  kept : ∀ doc ∈ engine.containers, doc.identity ∈ engine.made
  fresh : Unique ContainerInspect.id engine.made

/-- The container that was made with the identity belongs to the instance,
and the identity is not its name. -/
def Engine.Owns (engine : Engine) (id : RuntimeID) (instanceID : ID) : Prop :=
  id ≠ instanceID ∧
    ∃ doc ∈ engine.made, doc.id = id ∧ doc.BelongsTo instanceID

/-- No container is forgotten. -/
def Engine.Grows (engine after : Engine) : Prop :=
  ∀ doc ∈ engine.made, doc ∈ after.made

section Engines

variable {engine after : Engine} {request : Request} {turn : Turn}
  {id : RuntimeID} {instanceID : ID}

theorem Engine.Owns.grow (owns : engine.Owns id instanceID)
    (grows : engine.Grows after) : after.Owns id instanceID := by
  obtain ⟨apart, doc, made, same, belongs⟩ := owns
  exact ⟨apart, doc, grows doc made, same, belongs⟩

theorem Engine.Owns.unique (formed : engine.Formed)
    (owns : engine.Owns id instanceID) {other : ID}
    (again : engine.Owns id other) : instanceID = other := by
  obtain ⟨-, doc, made, same, belongs⟩ := owns
  obtain ⟨-, second, secondMade, secondSame, secondBelongs⟩ := again
  cases formed.fresh.eq_of_mem made secondMade (same.trans secondSame.symm)
  exact belongs.name.symm.trans secondBelongs.name

/-- An identity that was given to a container of the instance leads to other
containers only as their name. -/
theorem Engine.Owns.reaches_iff (owns : engine.Owns id instanceID)
    (formed : engine.Formed) :
    (∀ doc ∈ engine.containers, doc.Answers id → doc.BelongsTo instanceID) ↔
      ∀ doc ∈ engine.containers, doc.name ≠ id := by
  obtain ⟨apart, made, isMade, same, belongs⟩ := owns
  constructor
  · intro all doc inside named
    exact apart (named.symm.trans (all doc inside (.inr named)).name)
  · rintro plain doc inside (rfl | named)
    · cases formed.fresh.eq_of_mem isMade (formed.kept doc inside) same
      exact ⟨belongs.name, belongs.label, belongs.annotation, belongs.managed,
        belongs.workspace⟩
    · exact absurd named (plain doc inside)

theorem Engine.add_some {doc : ContainerInspect}
    (added : engine.add doc = some after) :
    (∀ old ∈ engine.made, old.id ≠ doc.id) ∧
      after = ⟨engine.containers ++ [doc], engine.made ++ [doc.identity]⟩ := by
  unfold Engine.add at added
  split at added
  · rename_i free
    exact ⟨free.1, (Option.some.inj added).symm⟩
  · cases added

theorem Engine.add_formed (formed : engine.Formed) {doc : ContainerInspect}
    (added : engine.add doc = some after) :
    after.Formed ∧ engine.Grows after := by
  obtain ⟨unused, rfl⟩ := Engine.add_some added
  refine ⟨⟨?_, formed.fresh.append_row ?_⟩,
    fun old made => List.mem_append_left _ made⟩
  · intro other member
    rcases List.mem_append.mp member with old | new
    · exact List.mem_append_left _ (formed.kept other old)
    · cases List.mem_singleton.mp new
      exact List.mem_append_right _ (List.mem_singleton_self _)
  · exact fun old made => unused old made

theorem Engine.setRunning_formed (formed : engine.Formed) (running : Bool) :
    (engine.setRunning id running).Formed := by
  refine ⟨?_, formed.fresh⟩
  intro doc member
  obtain ⟨old, origin, rfl⟩ := List.mem_map.mp member
  have kept := formed.kept old origin
  split
  · exact kept
  · exact kept

theorem Engine.remove_formed (formed : engine.Formed) :
    (engine.remove id).Formed :=
  ⟨fun doc member => formed.kept doc (List.mem_filter.mp member).1,
    formed.fresh⟩

theorem Engine.effect_formed (formed : engine.Formed)
    (took : engine.effect id request = some after) :
    after.Formed ∧ engine.Grows after := by
  cases request with
  | createContainer spec => exact Engine.add_formed formed took
  | startContainer reference =>
      obtain ⟨-, same⟩ := Option.ite_none_right_eq_some.mp took
      cases same
      exact ⟨Engine.setRunning_formed formed true, fun _ made => made⟩
  | removeContainer reference =>
      obtain ⟨-, same⟩ := Option.ite_none_right_eq_some.mp took
      cases same
      exact ⟨Engine.remove_formed formed, fun _ made => made⟩
  | inspectContainer | imageExists | createExec =>
      cases took
      exact ⟨formed, fun _ made => made⟩

/-- The request can come out with the result. -/
def Engine.Behaves (engine : Engine) (request : Request)
    (result : Except RequestError request.Answer) (after : Engine) : Prop :=
  ∃ turn, engine.exec request turn = some (result, after)

theorem Engine.succeed_formed (formed : engine.Formed)
    {outcome : request.Answer × Engine}
    (ran : engine.succeed request turn = some outcome) :
    outcome.2.Formed ∧ engine.Grows outcome.2 := by
  cases request with
  | inspectContainer reference =>
      cases turn <;> simp only [Engine.succeed, Option.ite_none_right_eq_some,
        reduceCtorEq] at ran
      obtain ⟨-, ran⟩ := ran
      cases ran
      exact ⟨formed, fun _ made => made⟩
  | createContainer | startContainer | removeContainer =>
      cases turn <;> simp only [Engine.succeed, reduceCtorEq] at ran
      obtain ⟨after, took, rfl⟩ := Option.map_eq_some_iff.mp ran
      exact Engine.effect_formed formed took
  | imageExists =>
      cases turn <;> cases ran
      exact ⟨formed, fun _ made => made⟩
  | createExec reference command =>
      cases turn <;> simp only [Engine.succeed, Option.ite_none_right_eq_some,
        reduceCtorEq] at ran
      obtain ⟨-, ran⟩ := ran
      cases ran
      exact ⟨formed, fun _ made => made⟩

/-- A request fails, with or without its effect, or succeeds. -/
theorem Engine.Behaves.cases {result : Except RequestError request.Answer}
    (behaves : engine.Behaves request result after) :
    (∃ error, result = .error error ∧
      (after = engine ∨ ∃ id, engine.effect id request = some after)) ∨
    ∃ turn value, result = .ok value ∧
      engine.succeed request turn = some (value, after) := by
  have succeeds : ∀ {turn}, (engine.succeed request turn).map
      (fun outcome => (Except.ok outcome.1, outcome.2)) =
        some (result, after) →
      ∃ turn value, result = .ok value ∧
        engine.succeed request turn = some (value, after) := by
    intro turn ran
    obtain ⟨⟨value, final⟩, answered, same⟩ := Option.map_eq_some_iff.mp ran
    cases same
    exact ⟨turn, value, rfl, answered⟩
  obtain ⟨turn, ran⟩ := behaves
  cases turn with
  | fails effect error =>
      cases effect with
      | none =>
          cases ran
          exact .inl ⟨error, rfl, .inl rfl⟩
      | some id =>
          obtain ⟨final, took, same⟩ := Option.map_eq_some_iff.mp ran
          cases same
          exact .inl ⟨error, rfl, .inr ⟨id, took⟩⟩
  | found | reached | entered | done => exact .inr (succeeds ran)

theorem Engine.Behaves.formed {result : Except RequestError request.Answer}
    (behaves : engine.Behaves request result after)
    (formed : engine.Formed) : after.Formed ∧ engine.Grows after := by
  rcases behaves.cases with ⟨_, -, rfl | ⟨id, took⟩⟩ | ⟨turn, value, -, ran⟩
  · exact ⟨formed, fun _ made => made⟩
  · exact Engine.effect_formed formed took
  · exact Engine.succeed_formed formed ran

theorem Engine.Behaves.inspected {reference : String} {doc : ContainerInspect}
    (behaves : engine.Behaves (.inspectContainer reference) (.ok doc) after) :
    doc ∈ engine.containers ∧ after = engine := by
  rcases behaves.cases with ⟨_, impossible, -⟩ | ⟨turn, value, same, ran⟩
  · cases impossible
  · cases same
    cases turn <;> simp only [Engine.succeed, Option.ite_none_right_eq_some,
      reduceCtorEq] at ran
    obtain ⟨inside, ran⟩ := ran
    cases ran
    exact ⟨inside.1, rfl⟩

theorem Engine.Behaves.created {spec : ContainerSpec}
    (behaves : engine.Behaves (.createContainer spec) (.ok id) after) :
    ∃ doc ∈ after.made, doc.id = id ∧ doc.name = spec.name ∧
      doc.labels = spec.labels ∧ doc.annotations = spec.annotations := by
  rcases behaves.cases with ⟨_, impossible, -⟩ | ⟨turn, value, same, ran⟩
  · cases impossible
  · cases same
    cases turn <;> simp only [Engine.succeed, reduceCtorEq] at ran
    obtain ⟨final, took, same⟩ := Option.map_eq_some_iff.mp ran
    cases same
    obtain ⟨-, rfl⟩ := Engine.add_some took
    exact ⟨_, List.mem_append_right _ (List.mem_singleton_self _), rfl, rfl,
      rfl, rfl⟩

end Engines

structure Scene where
  world : World
  engine : Engine

/-- Every recorded identity is that of a container of its instance. -/
structure Scene.Linked (scene : Scene) : Prop where
  sound : scene.world.store.Sound
  formed : scene.engine.Formed
  recorded : ∀ row ∈ scene.world.store.instances, ∀ id,
    row.runtimeID = some id → scene.engine.Owns id row.id

def Scene.Grows (scene later : Scene) : Prop :=
  scene.engine.Grows later.engine

def Scene.Behaves (scene : Scene) :
    (op : SiteOp) → op.Result → Scene → Prop
  | .daemon op, result, after =>
      scene.world.Behaves op result after.world ∧ after.engine = scene.engine
  | .request sent, result, after =>
      scene.engine.Behaves sent result after.engine ∧
        after.world = scene.world

def SiteOp.target : SiteOp → Option String
  | .daemon _ => none
  | .request sent => sent.target

/-- The requests of a thread that works for an instance are about containers
of that instance. -/
def siteContract (instanceID : ID) :
    Contract SiteOp SiteOp.Result Scene where
  invariant := Scene.Linked
  change _ := Scene.Grows
  behaviour := Scene.Behaves
  outstanding op scene := ∀ id, op.target = some id →
    scene.engine.Owns id instanceID
  refl _ _ _ made := made
  trans first second doc made := second doc (first doc made)

/-- The runtime as the controller sees it: what `Create` returns belongs to
the instance, and only containers of the instance are started and deleted. -/
def runtimeContract (instanceID : ID) : Contract Op Op.Result Scene where
  invariant := Scene.Linked
  change _ := Scene.Grows
  behaviour scene op result after :=
    match op with
    | .answer (.create inst) => scene.Grows after ∧ after.Linked ∧
        ∀ id, result = .ok id → after.engine.Owns id inst.id
    | .act (.ensureImage _) | .act (.create _) | .act (.start _)
    | .act (.delete _) | .act (.inspect _) | .answer (.ensureImage _)
    | .answer (.start _) | .answer (.delete _) | .answer (.inspect _) =>
        scene.Grows after ∧ after.Linked
    | op => scene.world.Behaves op result after.world ∧
        after.engine = scene.engine
  outstanding op scene :=
    match op with
    | .answer (.start id) | .answer (.delete id) =>
        scene.engine.Owns id instanceID
    | _ => True
  refl _ _ _ made := made
  trans first second doc made := second doc (first doc made)

section Client

variable {α : Type} {scene origin after : Scene} {instanceID : ID}

theorem Scene.Grows.trans {later : Scene} (first : scene.Grows later)
    (second : later.Grows after) : scene.Grows after :=
  fun doc made => second doc (first doc made)

theorem Scene.Linked.engine (linked : scene.Linked)
    (formed : after.engine.Formed) (grows : scene.Grows after)
    (world : after.world = scene.world) : after.Linked := by
  refine ⟨world ▸ linked.sound, formed, ?_⟩
  rw [world]
  intro row member id stored
  exact (linked.recorded row member id stored).grow grows

/-- A request about a container of the instance, or about none. -/
theorem safe_send {post : α → Scene → Prop} {request : Request}
    {rest : Except RequestError request.Answer → Agent α}
    (grown : origin.Grows scene)
    (owns : ∀ id, request.target = some id →
      scene.engine.Owns id instanceID)
    (continues : ∀ {result} {later after : Scene}, later.Linked →
      later.engine.Behaves request result after.engine → after.Linked →
      origin.Grows after →
      (siteContract instanceID).Safe post (rest result) after) :
    (siteContract instanceID).Safe post (send request >>= rest) scene := by
  intro later linked change
  refine ⟨fun id isTarget => (owns id isTarget).grow change, ?_⟩
  rintro result after ⟨behaves, world⟩
  obtain ⟨formed, grows⟩ := behaves.formed linked.formed
  have still := linked.engine formed grows world
  exact ⟨still, continues linked behaves still
    ((grown.trans change).trans grows)⟩

/-- What every function of the client leaves. -/
def Kept (origin : Scene) (_ : α) (after : Scene) : Prop :=
  origin.Grows after ∧ after.Linked

/-- What the functions leave that look a container up. -/
def Finds (origin : Scene) (name : ID)
    (result : Except RequestError RuntimeID) (after : Scene) : Prop :=
  Kept origin result after ∧
    ∀ id, result = .ok id → after.engine.Owns id name

theorem inspectOwned_safe {id : RuntimeID} (grown : origin.Grows scene)
    (linked : scene.Linked) :
    (siteContract instanceID).Safe (Kept origin) (inspectOwned id) scene := by
  unfold inspectOwned
  split
  · exact ⟨grown, linked⟩
  · refine safe_send grown nofun fun {result later after} _ _ kept onward => ?_
    split
    · exact ⟨onward, kept⟩
    · split
      · exact ⟨onward, kept⟩
      · split <;> exact ⟨onward, kept⟩

theorem ensureImage_safe {reference : String} (grown : origin.Grows scene)
    (linked : scene.Linked) :
    (siteContract instanceID).Safe (Kept origin) (ensureImage reference)
      scene := by
  unfold ensureImage
  split
  · exact ⟨grown, linked⟩
  · refine safe_send grown nofun fun {result later after} _ _ kept onward => ?_
    split <;> exact ⟨onward, kept⟩

theorem discover_safe {name : ID} (grown : origin.Grows scene) :
    (siteContract instanceID).Safe (Finds origin name) (discover name)
      scene := by
  unfold discover
  refine safe_send grown nofun
    fun {result later after} linked behaves kept onward => ?_
  split
  · exact ⟨⟨onward, kept⟩, nofun⟩
  · rename_i doc
    obtain ⟨member, same⟩ := behaves.inspected
    split
    · exact ⟨⟨onward, kept⟩, nofun⟩
    · rename_i accepted
      obtain ⟨apart, belongs⟩ := owned_ok accepted
      split
      · exact ⟨⟨onward, kept⟩, nofun⟩
      · rename_i named
        rw [not_not] at named
        refine ⟨⟨onward, kept⟩, ?_⟩
        rintro id ⟨⟩
        have made := linked.formed.kept doc member
        rw [named] at belongs apart
        exact ⟨apart, doc.identity, same ▸ made, rfl, belongs.name,
          belongs.label, belongs.annotation, belongs.managed,
          belongs.workspace⟩

theorem containerSpec_belongs {inst : Instance} {doc : ContainerInspect}
    (name : doc.name = (containerSpec inst).name)
    (labels : doc.labels = (containerSpec inst).labels)
    (annotations : doc.annotations = (containerSpec inst).annotations) :
    doc.BelongsTo inst.id := by
  refine ⟨name, ?_, ?_, ?_, ?_⟩
  · rw [labels]
    rfl
  · rw [annotations]
    rfl
  · rw [labels]
    rfl
  · rw [labels]
    rfl

theorem createNew_safe {inst : Instance} (grown : origin.Grows scene)
    (named : isInstanceID inst.id = true) :
    (siteContract instanceID).Safe (Finds origin inst.id) (createNew inst)
      scene := by
  unfold createNew
  refine safe_send grown nofun
    fun {result later after} _ behaves kept onward => ?_
  split
  · split
    · exact discover_safe onward
    · exact ⟨⟨onward, kept⟩, nofun⟩
  · split
    · exact ⟨⟨onward, kept⟩, nofun⟩
    · rename_i checked
      refine ⟨⟨onward, kept⟩, ?_⟩
      rintro id ⟨⟩
      rw [Bool.not_eq_true', Bool.not_eq_false] at checked
      obtain ⟨doc, made, same, name, labels, annotations⟩ := behaves.created
      exact ⟨isRuntimeID_ne checked named, doc, made, same,
        containerSpec_belongs name labels annotations⟩

theorem create_safe {inst : Instance} (grown : origin.Grows scene)
    (linked : scene.Linked) :
    (siteContract instanceID).Safe (Finds origin inst.id) (create inst)
      scene := by
  unfold create
  split
  · exact ⟨⟨grown, linked⟩, nofun⟩
  · rename_i checked
    have named : isInstanceID inst.id = true := by
      simp only [Bool.or_eq_true, not_or, Bool.not_eq_true,
        Bool.not_eq_false'] at checked
      exact checked.1.1
    refine (discover_safe grown).bind linked
      fun {result later} _ found => ?_
    split
    · rename_i id
      exact ⟨found.1, fun other same => found.2 other same⟩
    · split
      · exact ⟨found.1, nofun⟩
      · exact createNew_safe found.1.1 named

theorem start_safe {id : RuntimeID} (grown : origin.Grows scene)
    (linked : scene.Linked) (owns : origin.engine.Owns id instanceID) :
    (siteContract instanceID).Safe (Kept origin) (start id) scene := by
  unfold start
  refine (inspectOwned_safe grown linked).bind linked
    fun {result later} _ kept => ?_
  split
  · exact kept
  · refine safe_send kept.1 ?_ fun _ _ still onward => ⟨onward, still⟩
    rintro _ ⟨⟩
    exact owns.grow kept.1

theorem delete_safe {id : RuntimeID} (grown : origin.Grows scene)
    (linked : scene.Linked) (owns : origin.engine.Owns id instanceID) :
    (siteContract instanceID).Safe (Kept origin) (delete id) scene := by
  unfold delete
  refine (inspectOwned_safe grown linked).bind linked
    fun {result later} _ kept => ?_
  split
  · split <;> exact kept
  · refine safe_send kept.1 ?_
      fun {result later after} _ _ still onward => ?_
    · rintro _ ⟨⟩
      exact owns.grow kept.1
    · split
      · split <;> exact ⟨onward, still⟩
      · exact ⟨onward, still⟩

theorem inspect_safe {id : RuntimeID} (grown : origin.Grows scene)
    (linked : scene.Linked) :
    (siteContract instanceID).Safe (Kept origin) (inspect id) scene := by
  unfold inspect
  refine (inspectOwned_safe grown linked).bind linked
    fun {result later} _ kept => ?_
  split <;> exact kept

theorem exec_safe {id : RuntimeID} {request : Console.ExecRequest}
    (grown : origin.Grows scene) (linked : scene.Linked)
    (owns : origin.engine.Owns id instanceID) :
    (siteContract instanceID).Safe (Kept origin) (exec id request) scene := by
  unfold exec
  split
  · exact ⟨grown, linked⟩
  · refine (inspectOwned_safe grown linked).bind linked
      fun {result later} _ kept => ?_
    split
    · exact kept
    · split
      · exact kept
      · refine safe_send kept.1 ?_
          fun {result later after} _ _ still onward => ?_
        · rintro _ ⟨⟩
          exact owns.grow kept.1
        · split
          · exact ⟨onward, still⟩
          · split <;> exact ⟨onward, still⟩

theorem texts_safe {program : Agent (Except RequestError α)}
    (linked : scene.Linked)
    (safe : (siteContract instanceID).Safe (Kept origin) program scene) :
    (siteContract instanceID).Safe (Kept origin) (texts program) scene := by
  refine safe.bind linked fun {result later} _ kept => ?_
  split <;> exact kept

end Client

/-- The client is a runtime as the controller sees it. -/
theorem client_carries (instanceID : ID) :
    (siteContract instanceID).Carries (runtimeContract instanceID)
      carryOut := by
  intro op scene linked ready
  have same : scene.Grows scene := fun _ made => made
  have asks : (∀ {later result final}, later.Behaves (.daemon op) result final →
      (runtimeContract instanceID).behaviour later op result final) →
      (siteContract instanceID).Safe (fun result final => ∃ middle,
        (runtimeContract instanceID).invariant middle ∧
        (runtimeContract instanceID).change op scene middle ∧
        (runtimeContract instanceID).behaviour middle op result final)
        (ask op) scene := by
    intro behaviour later kept change
    refine ⟨nofun, fun result final behaves => ?_⟩
    exact ⟨(ready later kept change).2 result final (behaviour behaves),
      later, kept, change, behaviour behaves⟩
  have calls : ∀ {α : Type} {program : Agent (Except RequestError α)},
      (siteContract instanceID).Safe (Kept scene) program scene →
      (siteContract instanceID).Safe (fun _ final => ∃ middle : Scene,
        middle.Linked ∧ scene.Grows middle ∧ middle.Grows final ∧
          final.Linked) (texts program) scene := by
    intro α program safe
    exact (texts_safe linked safe).mono linked fun _ kept =>
      ⟨scene, linked, same, kept⟩
  cases op with
  | act call =>
      cases call with
      | ensureImage | create | start | delete | inspect =>
          exact ⟨scene, linked, same, same, linked⟩
      | _ => exact asks id
  | answer call =>
      cases call with
      | ensureImage => exact calls (ensureImage_safe same linked)
      | inspect => exact calls (inspect_safe same linked)
      | start =>
          exact calls (start_safe same linked (ready scene linked same).1)
      | delete =>
          exact calls (delete_safe same linked (ready scene linked same).1)
      | create inst =>
          refine (create_safe same linked).bind linked
            fun {result later} _ found => ?_
          split
          · exact ⟨scene, linked, same, found.1.1, found.1.2, nofun⟩
          · refine ⟨scene, linked, same, found.1.1, found.1.2, ?_⟩
            rintro _ ⟨⟩
            exact found.2 _ rfl
      | _ => exact asks id
  | _ => exact asks id

/-- The calls that neither name a container nor need one of the instance. -/
def Ordinary : Op → Prop
  | .recordRuntimeID _ _ _ | .retainTerminatingRuntimeID _ _
  | .answer (.start _) | .answer (.delete _) => False
  | _ => True

section Pass

open InstanceController

variable {scene after : Scene} {instanceID : ID} {α : Type}

theorem Ordinary.binds {op : Op} (ordinary : Ordinary op) {write : Write}
    (writes : op.Writes write) : write.binds = none := by
  cases op <;> try exact writes.elim
  case recordRuntimeID | retainTerminatingRuntimeID => exact ordinary.elim
  all_goals
    obtain ⟨now, rfl⟩ := writes
    rfl

/-- What a write leaves that names no container, or one of its instance. -/
theorem Scene.Linked.write (linked : scene.Linked) {allowed : Write → Prop}
    (store : scene.world.store.Within allowed after.world.store)
    (engine : after.engine = scene.engine)
    (owned : ∀ write, allowed write → ∀ owner id,
      write.binds = some (owner, id) → scene.engine.Owns id owner) :
    after.Linked := by
  refine ⟨store.sound linked.sound, engine ▸ linked.formed, ?_⟩
  rw [engine]
  rcases store with same | ⟨write, allows, same⟩
  · rw [same]
    exact linked.recorded
  · rw [same]
    intro row member id stored
    rcases write.runtime_source linked.sound member stored with
      ⟨old, origin, sameID, known⟩ | bound
    · exact sameID ▸ linked.recorded old origin id known
    · exact owned write allows row.id id bound

theorem Ordinary.harmless {op : Op} (ordinary : Ordinary op) :
    (runtimeContract instanceID).Harmless op := by
  have daemon : ∀ {scene after : Scene} {result : op.Result}, scene.Linked →
      scene.world.Behaves op result after.world ∧
        after.engine = scene.engine → after.Linked := by
    rintro scene after result linked ⟨behaves, engine⟩
    refine linked.write behaves.store_within engine ?_
    intro write writes owner id bound
    cases (ordinary.binds writes).symm.trans bound
  intro scene linked
  refine ⟨?_, fun result after behaves => ?_⟩
  · cases op with
    | answer call =>
        cases call <;> first | exact ordinary.elim | trivial
    | _ => trivial
  · cases op with
    | act call =>
        cases call with
        | ensureImage | create | start | delete | inspect => exact behaves.2
        | _ => exact daemon linked behaves
    | answer call =>
        cases call with
        | create => exact behaves.2.1
        | ensureImage | start | delete | inspect => exact behaves.2
        | _ => exact daemon linked behaves
    | _ => exact daemon linked behaves

theorem fail_ordinary (inst : Instance) (cause : String) :
    (fail inst cause).Uses Ordinary := by
  refine uses_invoke trivial fun cancelled => ?_
  cases cancelled with
  | true => trivial
  | false =>
      refine uses_invoke trivial fun result => ?_
      split
      · exact uses_invoke trivial fun _ => trivial
      · trivial
      · exact uses_invoke trivial fun _ => trivial

theorem ready_ordinary (inst : Instance) : (ready inst).Uses Ordinary := by
  refine uses_external trivial trivial fun called => ?_
  split
  · trivial
  · refine uses_invoke trivial fun subnet => ?_
    split
    · trivial
    · refine uses_invoke trivial fun vpc => ?_
      split <;> trivial

theorem releaseENI_ordinary (inst : Instance) :
    (releaseENI inst).Uses Ordinary := by
  refine uses_invoke trivial fun subnet => ?_
  split
  · exact fail_ordinary _ _
  · refine uses_invoke trivial fun vpc => ?_
    split
    · exact fail_ordinary _ _
    · refine uses_external trivial trivial fun deleted => ?_
      split
      · exact fail_ordinary _ _
      · refine uses_invoke trivial fun finished => ?_
        split
        · exact uses_invoke trivial fun _ => trivial
        · trivial
        · exact uses_invoke trivial fun _ => trivial

theorem ordinary_safe {program : Call α} (uses : program.Uses Ordinary) :
    (runtimeContract instanceID).Keeps program scene :=
  .uses (uses.mono fun _ ordinary => ordinary.harmless)

/-- A call to the runtime that tells nothing about containers. -/
theorem safe_external {call : External}
    {rest : Except String call.Value → Call α}
    (acts : ∀ {scene result after},
      (runtimeContract instanceID).behaviour scene (.act call) result after →
        scene.Grows after ∧ after.Linked)
    (answers : ∀ {scene result after},
      (runtimeContract instanceID).behaviour scene (.answer call) result
        after → scene.Grows after ∧ after.Linked)
    (free : ∀ later, (runtimeContract instanceID).outstanding (.act call)
      later)
    (outstanding : ∀ later, scene.Grows later →
      (runtimeContract instanceID).outstanding (.answer call) later)
    (continues : ∀ {result after}, after.Linked → scene.Grows after →
      (runtimeContract instanceID).Keeps (rest result)
        after) :
    (runtimeContract instanceID).Keeps
      (external call >>= rest) scene := by
  rw [external_bind]
  intro later _ change
  refine ⟨free later, fun _ middle behaves => ?_⟩
  obtain ⟨grows, kept⟩ := acts behaves
  refine ⟨kept, fun last _ onward => ?_⟩
  have grown : scene.Grows last := (Scene.Grows.trans change grows).trans onward
  refine ⟨outstanding last grown, fun result final answered => ?_⟩
  obtain ⟨further, linked⟩ := answers answered
  exact ⟨linked, continues linked (grown.trans further)⟩

theorem safe_delete {id : RuntimeID} {rest : Except String Unit → Call α}
    (owns : scene.engine.Owns id instanceID)
    (continues : ∀ {result after}, after.Linked → scene.Grows after →
      (runtimeContract instanceID).Keeps (rest result)
        after) :
    (runtimeContract instanceID).Keeps
      (external (.delete id) >>= rest) scene :=
  safe_external (fun behaves => behaves) (fun behaves => behaves)
    (fun _ => trivial) (fun _ grows => owns.grow grows) continues

theorem terminate_owned {inst : Instance}
    (owns : inst.runtimeID ≠ "" →
      scene.engine.Owns inst.runtimeID instanceID) :
    (runtimeContract instanceID).Keeps (terminate inst)
      scene := by
  unfold terminate
  split
  · rename_i named
    refine safe_delete (owns named) fun {result after} _ _ => ?_
    split
    · exact ordinary_safe (fail_ordinary _ _)
    · exact ordinary_safe (releaseENI_ordinary _)
  · exact ordinary_safe (releaseENI_ordinary _)

theorem discard_owned {inst : Instance} {id : RuntimeID} {failure : Failure}
    (owns : scene.engine.Owns id instanceID) :
    (runtimeContract instanceID).Keeps
      (discard inst id failure) scene := by
  refine safe_delete owns fun {result after} _ _ => ?_
  split
  · trivial
  · exact ordinary_safe (uses_invoke trivial fun _ => trivial)

theorem createdDuringStateChange_owned {inst : Instance} {id : RuntimeID}
    {failure : Failure} (owns : scene.engine.Owns id inst.id) :
    (runtimeContract inst.id).Keeps
      (createdDuringStateChange inst id failure) scene := by
  unfold createdDuringStateChange
  split
  · rw [invoke_bind]
    refine .call (fun later => later.engine.Owns id inst.id) owns
      (fun _ change held => held.grow change) (fun _ _ => trivial)
      fun {later result after} linked held behaves => ?_
    obtain ⟨behaves, engine⟩ := behaves
    have still : after.engine.Owns id inst.id := engine ▸ held
    refine ⟨linked.write behaves.store_within engine ?_, ?_⟩
    · rintro _ rfl owner bound ⟨⟩
      exact held
    · split
      · refine safe_delete still fun {result after} _ _ => ?_
        split
        · apply ordinary_safe
          refine uses_invoke trivial fun current => ?_
          split
          · trivial
          · exact fail_ordinary _ _
        · exact ordinary_safe (uses_invoke trivial fun _ => trivial)
      · exact discard_owned still
  · exact discard_owned owns

theorem start_owned {id : RuntimeID}
    (owns : scene.engine.Owns id instanceID) :
    (runtimeContract instanceID).Keeps
      (InstanceController.start instanceID id) scene := by
  unfold InstanceController.start
  rw [invoke_bind]
  refine .call (fun later => later.engine.Owns id instanceID) owns
    (fun _ change held => held.grow change) (fun _ _ => trivial)
    fun {later result after} linked held behaves => ?_
  have kept : after.Linked := by
    have ordinary : Ordinary (.getInstance instanceID) := trivial
    exact (ordinary.harmless later linked).2 result after behaves
  refine ⟨kept, ?_⟩
  have still : after.engine.Owns id instanceID := behaves.2 ▸ held
  split
  · trivial
  · split
    · exact ordinary_safe (uses_invoke trivial fun _ => trivial)
    · refine safe_external (fun behaves => behaves) (fun behaves => behaves)
        (fun _ => trivial) (fun _ grows => still.grow grows)
        fun {started after} _ _ => ?_
      split
      · exact ordinary_safe (fail_ordinary _ _)
      · apply ordinary_safe
        refine uses_external trivial trivial fun inspected => ?_
        split
        · exact fail_ordinary _ _
        · exact fail_ordinary _ _
        · refine uses_invoke trivial fun recorded => ?_
          split
          · exact uses_invoke trivial fun _ => trivial
          · trivial
          · exact uses_invoke trivial fun _ => trivial

theorem launch_owned (inst : Instance) :
    (runtimeContract inst.id).Keeps (launch inst)
      scene := by
  unfold launch
  refine safe_external (fun behaves => behaves) (fun behaves => behaves)
    (fun _ => trivial) (fun _ _ => trivial) fun {image after} _ _ => ?_
  split
  · exact ordinary_safe (fail_ordinary _ _)
  · rw [external_bind]
    intro later _ _
    refine ⟨trivial, fun _ middle acted => ⟨acted.2, fun last _ _ => ?_⟩⟩
    refine ⟨trivial, fun created made answered => ⟨answered.2.1, ?_⟩⟩
    cases created with
    | error cause => exact ordinary_safe (fail_ordinary _ _)
    | ok id =>
        have owns : made.engine.Owns id inst.id := answered.2.2 id rfl
        dsimp only
        rw [invoke_bind]
        refine .call (fun later => later.engine.Owns id inst.id) owns
          (fun _ change held => held.grow change) (fun _ _ => trivial)
          fun {later result after} linked held behaves => ?_
        obtain ⟨behaves, engine⟩ := behaves
        have still : after.engine.Owns id inst.id := engine ▸ held
        refine ⟨linked.write behaves.store_within engine ?_, ?_⟩
        · rintro _ rfl owner bound ⟨⟩
          exact held
        · split
          · exact createdDuringStateChange_owned still
          · exact start_owned still

theorem converge_owned (inst : Instance) (linked : scene.Linked) :
    (runtimeContract inst.id).Keeps
      (converge inst.id inst) scene := by
  unfold converge
  refine (ordinary_safe (ready_ordinary inst)).bind linked
    fun {ready later} _ _ => ?_
  split
  · exact ordinary_safe (fail_ordinary _ _)
  · trivial
  · split
    · refine safe_external (fun behaves => behaves) (fun behaves => behaves)
        (fun _ => trivial) (fun _ _ => trivial) fun {inspected after} _ _ => ?_
      split
      · exact ordinary_safe (uses_invoke trivial fun _ => trivial)
      · exact ordinary_safe (fail_ordinary _ _)
      · exact launch_owned inst
    · exact launch_owned inst

/-- What a look at an instance tells about its container. -/
theorem Scene.Linked.looked (linked : scene.Linked) {id : ID}
    {inst : Instance}
    (found : scene.world.store.getInstance defaultWorkspace id = .ok inst) :
    inst.id = id ∧ (inst.runtimeID ≠ "" →
      scene.engine.Owns inst.runtimeID id) := by
  obtain ⟨row, member, eni, -, rfl, -, -, -, rfl⟩ := Store.getInstance_ok found
  refine ⟨rfl, fun named => ?_⟩
  cases stored : row.runtimeID with
  | none =>
      rw [InstanceRow.snapshot, stored] at named
      exact absurd rfl named
  | some known =>
      rw [InstanceRow.snapshot, stored]
      exact linked.recorded row member known stored

theorem reconcileLocked_owned (id : ID) :
    (runtimeContract id).Keeps (reconcileLocked id)
      scene := by
  have ordinary : Ordinary (.getInstance id) := trivial
  rw [reconcileLocked, invoke_bind]
  refine .harmless ordinary.harmless fun {later result after} _ behaves kept => ?_
  obtain ⟨behaves, engine⟩ := behaves
  obtain ⟨rfl, sameWorld⟩ := behaves.getInstance
  split
  · exact ordinary_safe (uses_invoke trivial fun _ => trivial)
  · trivial
  · rename_i inst found
    rw [← sameWorld] at found
    obtain ⟨rfl, owns⟩ := kept.looked found
    split
    · exact terminate_owned owns
    · exact converge_owned inst kept

end Pass

end Podman

end Nephos
