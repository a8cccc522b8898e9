import Nephos.Appliance.Lifecycle

/-!
# One appliance, and nothing foreign

What is true of the two objects whenever the manager makes a call, and from it
what any sequence of commands does to them.
-/

namespace Nephos.Appliance

open Effects

/-- Objects stay, and a container stays the same one. -/
def Docker.Keeps (before after : Docker) : Prop :=
  (∀ c, before.container = some c → ∃ same, after.container = some same ∧
      same.identity = c.identity) ∧
    ∀ volume, before.volume = some volume → after.volume = some volume

theorem Docker.Keeps.refl (docker : Docker) : docker.Keeps docker :=
  ⟨fun c found => ⟨c, found, rfl⟩, fun _ found => found⟩

theorem Docker.Keeps.trans {first second third : Docker}
    (left : first.Keeps second) (right : second.Keeps third) :
    first.Keeps third := by
  refine ⟨fun c found => ?_, fun volume found => right.2 _ (left.2 _ found)⟩
  obtain ⟨middle, foundMiddle, same⟩ := left.1 c found
  obtain ⟨last, foundLast, also⟩ := right.1 middle foundMiddle
  exact ⟨last, foundLast, also.trans same⟩

theorem Docker.SameObjects.keeps {before after : Docker}
    (same : before.SameObjects after) : before.Keeps after := by
  obtain ⟨volumes, containers⟩ := same
  refine ⟨fun c found => ?_, fun volume found => volumes.trans found⟩
  rw [found, Option.map_some] at containers
  exact Option.map_eq_some_iff.mp containers

theorem Docker.SameObjects.container_none {before after : Docker}
    (same : before.SameObjects after) (absent : before.container = none) :
    after.container = none := by
  have containers := same.2
  rw [absent, Option.map_none] at containers
  exact Option.map_eq_none_iff.mp containers

section Answers

variable {host : HostInfo} {image : Bool} {before after : Docker}

theorem Docker.Answers.keeps {call : EngineCall}
    {result : Except EngineError call.Value}
    (answers : before.Answers host image call result after) :
    before.Keeps after := by
  cases call with
  | ping | info | imageExists =>
      obtain ⟨-, rfl⟩ := answers
      exact .refl _
  | inspect | inspectVolume | copyFile =>
      obtain ⟨rfl, -⟩ := answers
      exact .refl _
  | createVolume =>
      obtain ⟨-, rfl⟩ := answers
      refine ⟨fun c found => ⟨c, found, rfl⟩, fun volume found => ?_⟩
      simp [found]
  | create limits =>
      cases present : before.container with
      | some c =>
          simp only [Answers, present] at answers
          obtain ⟨-, rfl⟩ := answers
          exact .refl _
      | none =>
          simp only [Answers, present] at answers
          obtain ⟨-, rfl⟩ := answers
          refine ⟨fun c found => ?_, fun volume found => ?_⟩
          · rw [present] at found
            cases found
          · simp [found]
  | start | stop =>
      cases present : before.container with
      | some c =>
          simp only [Answers, present] at answers
          obtain ⟨-, rfl⟩ := answers
          refine ⟨fun other found => ?_, fun volume found => found⟩
          cases present.symm.trans found
          exact ⟨_, rfl, rfl⟩
      | none =>
          simp only [Answers, present] at answers
          obtain ⟨-, rfl⟩ := answers
          exact .refl _

theorem Docker.Behaves.keeps {op : ManagerOp} {result : op.Result}
    (behaves : before.Behaves host image op result after) :
    before.Keeps after := by
  cases op with
  | engine call =>
      rcases behaves with ⟨-, rfl⟩ | answers
      · exact .refl _
      · exact answers.keeps
  | checkHealth | save archive =>
      obtain rfl := behaves
      exact .refl _

end Answers

/-- The container is the appliance's own. -/
def Docker.Genuine (docker : Docker) : Prop :=
  ∃ c, docker.container = some c ∧ verifyContainer c = .ok ()

/-- The volume is the appliance's own. -/
def Docker.HasVolume (docker : Docker) : Prop :=
  ∃ volume, docker.volume = some volume ∧ volume.owned = true

theorem verifyContainer_congr {left right : ContainerState}
    (same : left.identity = right.identity) :
    verifyContainer left = verifyContainer right := by
  cases left
  cases right
  cases same
  rfl

theorem Docker.Genuine.keeps {before after : Docker}
    (genuine : before.Genuine) (keeps : before.Keeps after) :
    after.Genuine := by
  obtain ⟨c, found, verified⟩ := genuine
  obtain ⟨same, foundSame, identity⟩ := keeps.1 c found
  exact ⟨same, foundSame, (verifyContainer_congr identity).trans verified⟩

theorem Docker.HasVolume.keeps {before after : Docker}
    (owned : before.HasVolume) (keeps : before.Keeps after) :
    after.HasVolume := by
  obtain ⟨volume, found, label⟩ := owned
  exact ⟨volume, keeps.2 volume found, label⟩

section Rules

variable {host : HostInfo} {image : Bool}
  {allowed : ManagerOp → Docker → Prop} {docker : Docker}

theorem succeeds_attempt {op : ManagerOp} (holds : Docker → Prop)
    {ends : op.Result → Docker → Prop} (now : holds docker)
    (stable : ∀ {before after}, before.SameObjects after → holds before →
      holds after)
    (issued : ∀ {later}, holds later → allowed op later)
    (answered : ∀ {later result after}, holds later →
      later.Behaves host image op result after → ends result after) :
    ((setting host image).issuing allowed).Safe (Task.OnSuccess ends)
      (Task.attempt op : ManagerTask op.Result).run docker := by
  intro later _ others
  have held := stable others now
  refine ⟨issued held, fun result after behaves => ⟨trivial, ?_⟩⟩
  rintro _ ⟨⟩
  exact answered held behaves

theorem succeeds_engine {call : EngineCall} (holds : Docker → Prop)
    {ends : call.Value → Docker → Prop} (now : holds docker)
    (stable : ∀ {before after}, before.SameObjects after → holds before →
      holds after)
    (issued : ∀ {later}, holds later → allowed (.engine call) later)
    (answered : ∀ {later value after}, holds later →
      later.Answers host image call (.ok value) after → ends value after) :
    ((setting host image).issuing allowed).Safe (Task.OnSuccess ends)
      (engine call).run docker := by
  have first : ((setting host image).issuing allowed).Safe
      (Task.OnSuccess fun (result : Except EngineError call.Value) after =>
        ∀ value, result = .ok value → ends value after)
      (Task.attempt (ManagerOp.engine call) :
        ManagerTask (Except EngineError call.Value)).run docker := by
    refine succeeds_attempt holds now stable issued ?_
    rintro later _ after held behaves value rfl
    rcases behaves with ⟨⟨text, failed⟩, -⟩ | answers
    · cases failed
    · exact answered held answers
  refine Task.succeeds_bind first trivial fun {result later} _ reached => ?_
  match result with
  | .ok value => exact Task.succeeds_pure (reached value rfl)
  | .error failure => exact Task.succeeds_throw

/-- A call that is always allowed, for what lasts. -/
theorem keeps_engine {call : EngineCall} {holds : Docker → Prop}
    (now : holds docker)
    (lasting : ∀ {before after}, before.Keeps after → holds before →
      holds after)
    (issued : ∀ {later}, holds later → allowed (.engine call) later) :
    ((setting host image).issuing allowed).Safe
      (Task.OnSuccess fun _ => holds) (engine call).run docker :=
  succeeds_engine holds now (fun same => lasting same.keeps) issued
    fun held answers => lasting answers.keeps held

theorem succeeds_orRefuse {check : Except ManagerError Unit}
    {holds : Docker → Prop} (now : check = .ok () → holds docker) :
    ((setting host image).issuing allowed).Safe
      (Task.OnSuccess fun _ => holds) (orRefuse check).run docker := by
  match check, now with
  | .ok (), now => exact Task.succeeds_pure (now rfl)
  | .error failure, _ => exact Task.succeeds_throw

/-- What comes after a check only happens if it passes. -/
theorem succeeds_orRefuse_bind {β : Type} {check : Except ManagerError Unit}
    {rest : Unit → ManagerTask β} {ends : β → Docker → Prop}
    (onward : check = .ok () →
      ((setting host image).issuing allowed).Safe (Task.OnSuccess ends)
        (rest ()).run docker) :
    ((setting host image).issuing allowed).Safe (Task.OnSuccess ends)
      (orRefuse check >>= rest).run docker := by
  match check, onward with
  | .ok (), onward => exact onward rfl
  | .error failure, _ => exact Task.succeeds_throw

end Rules

/-- When a command makes a call. -/
def Issuable (host : HostInfo) (command : Command) :
    ManagerOp → Docker → Prop
  | .engine .createVolume, docker => docker.volume = none ∧
      ∃ patience limits, command = .up patience limits ∧
        preflight host limits = .ok ()
  | .engine (.create limits), docker => docker.container = none ∧
      docker.HasVolume ∧ (∃ patience, command = .up patience limits) ∧
        preflight host limits = .ok ()
  | .engine .start, docker | .engine .copyFile, docker =>
      docker.Genuine ∧ docker.HasVolume
  | .engine .stop, docker => docker.Genuine
  | _, _ => True

section Up

variable {host : HostInfo} {image : Bool} {docker : Docker}
  {patience : Patience} {limits : Limits}

/-- What an inspection says of the container. -/
def Seen (result : Except EngineError ContainerState) (docker : Docker) :
    Prop :=
  match result with
  | .ok c => docker.container = some c
  | .error .notFound => docker.container = none
  | .error (.failed _) => True

theorem succeeds_inspect {allowed : ManagerOp → Docker → Prop}
    {holds : Docker → Prop} (now : holds docker)
    (lasting : ∀ {before after}, before.Keeps after → holds before →
      holds after)
    (issued : ∀ {later}, holds later → allowed (.engine .inspect) later) :
    ((setting host image).issuing allowed).Safe
      (Task.OnSuccess fun result later => holds later ∧ Seen result later)
      (Task.attempt (ManagerOp.engine .inspect) :
        ManagerTask (Except EngineError ContainerState)).run docker := by
  refine succeeds_attempt holds now (fun same => lasting same.keeps) issued ?_
  rintro later result after held (⟨⟨text, rfl⟩, rfl⟩ | ⟨rfl, rfl⟩)
  · exact ⟨held, trivial⟩
  · refine ⟨held, ?_⟩
    unfold Seen
    cases after.container with
    | some c => rfl
    | none => rfl

theorem provideVolume_safe (absent : docker.container = none)
    (fits : preflight host limits = .ok ()) :
    ((setting host image).issuing (Issuable host (.up patience limits))).Safe
      (Task.OnSuccess fun _ later =>
        later.container = none ∧ later.HasVolume) provideVolume.run
      docker := by
  have first : ((setting host image).issuing
      (Issuable host (.up patience limits))).Safe
      (Task.OnSuccess fun (result : Except EngineError VolumeState) later =>
        later.container = none ∧ match result with
          | .ok volume => later.volume = some volume
          | .error .notFound => later.volume = none
          | .error (.failed _) => True)
      (Task.attempt (ManagerOp.engine .inspectVolume) :
        ManagerTask (Except EngineError VolumeState)).run docker := by
    refine succeeds_attempt (fun docker => docker.container = none) absent
      (fun same => same.container_none) (fun _ => trivial) ?_
    rintro later result after held (⟨⟨text, rfl⟩, rfl⟩ | ⟨rfl, rfl⟩)
    · exact ⟨held, trivial⟩
    · refine ⟨held, ?_⟩
      cases after.volume with
      | some volume => rfl
      | none => rfl
  refine Task.succeeds_bind first trivial fun {result later} _ seen => ?_
  match result, seen with
  | .ok volume, ⟨still, found⟩ =>
      refine succeeds_orRefuse fun owned => ⟨still, volume, found, ?_⟩
      unfold ownedVolume at owned
      split at owned
      · assumption
      · cases owned
  | .error .notFound, ⟨still, missing⟩ =>
      refine succeeds_engine
        (fun docker => docker.container = none ∧ docker.volume = none)
        ⟨still, missing⟩
        (fun same held =>
          ⟨same.container_none held.1, same.1.trans held.2⟩)
        (fun held => ⟨held.2, patience, limits, rfl, fits⟩) ?_
      rintro later value after held ⟨-, rfl⟩
      exact ⟨held.1, { owned := true }, by rw [held.2]; rfl, rfl⟩
  | .error (.failed text), _ => exact Task.succeeds_throw

theorem createContainer_safe (absent : docker.container = none) :
    ((setting host image).issuing (Issuable host (.up patience limits))).Safe
      (Task.OnSuccess fun _ later => later.Genuine)
      (createContainer host limits).run docker := by
  refine succeeds_orRefuse_bind fun fits => ?_
  refine Task.succeeds_bind (provideVolume_safe absent fits) trivial ?_
  intro _ later _ ready
  have created : ((setting host image).issuing
      (Issuable host (.up patience limits))).Safe
      (Task.OnSuccess fun _ later => later.Genuine)
      (engine (.create limits)).run later := by
    refine succeeds_engine
      (fun docker => docker.container = none ∧ docker.HasVolume) ready
      (fun same held =>
        ⟨same.container_none held.1, held.2.keeps same.keeps⟩)
      (fun held => ⟨held.1, held.2, ⟨patience, rfl⟩, fits⟩) ?_
    intro later value after held answers
    simp only [Docker.Answers, held.1] at answers
    obtain ⟨-, rfl⟩ := answers
    exact ⟨_, rfl, rfl⟩
  exact Task.succeeds_bind created trivial fun _ genuine =>
    Task.succeeds_pure genuine

/-- The container is the one that the result describes. -/
theorem provideContainer_safe :
    ((setting host image).issuing (Issuable host (.up patience limits))).Safe
      (Task.OnSuccess fun found later =>
        verifyContainer found.2 = .ok () → later.Genuine)
      (provideContainer host limits).run docker := by
  have inspected : ((setting host image).issuing
      (Issuable host (.up patience limits))).Safe
      (Task.OnSuccess fun result later => True ∧ Seen result later)
      (Task.attempt (ManagerOp.engine .inspect) :
        ManagerTask (Except EngineError ContainerState)).run docker :=
    succeeds_inspect trivial (fun _ _ => trivial) fun _ => trivial
  refine Task.succeeds_bind inspected trivial fun {result later} _ seen => ?_
  match result, seen with
  | .ok c, ⟨_, found⟩ =>
      exact Task.succeeds_pure fun verified => ⟨c, found, verified⟩
  | .error .notFound, ⟨_, absent⟩ =>
      exact Task.succeeds_bind (createContainer_safe absent) trivial
        fun _ genuine => Task.succeeds_pure fun _ => genuine
  | .error (.failed text), _ => exact Task.succeeds_throw

/-- Both objects are the appliance's own. -/
def Docker.Ready (docker : Docker) : Prop := docker.Genuine ∧ docker.HasVolume

theorem Docker.Ready.keeps {before after : Docker} (keeps : before.Keeps after)
    (ready : before.Ready) : after.Ready :=
  ⟨ready.1.keeps keeps, ready.2.keeps keeps⟩

theorem checkVolume_safe (genuine : docker.Genuine) :
    ((setting host image).issuing (Issuable host (.up patience limits))).Safe
      (Task.OnSuccess fun _ => Docker.Ready) checkVolume.run docker := by
  have inspected : ((setting host image).issuing
      (Issuable host (.up patience limits))).Safe
      (Task.OnSuccess fun (volume : VolumeState) later =>
        later.Genuine ∧ later.volume = some volume)
      (engine .inspectVolume).run docker := by
    refine succeeds_engine Docker.Genuine genuine
      (fun same held => held.keeps same.keeps) (fun _ => trivial) ?_
    rintro later volume after held ⟨rfl, same⟩
    refine ⟨held, ?_⟩
    cases found : after.volume with
    | some other =>
        rw [found] at same
        cases same
        rfl
    | none =>
        rw [found] at same
        cases same
  refine Task.succeeds_bind inspected trivial fun {volume later} _ seen => ?_
  refine succeeds_orRefuse fun owned => ⟨seen.1, volume, seen.2, ?_⟩
  unfold ownedVolume at owned
  split at owned
  · assumption
  · cases owned

theorem startUnlessRunning_safe (c : ContainerState) (ready : docker.Ready) :
    ((setting host image).issuing (Issuable host (.up patience limits))).Safe
      (Task.OnSuccess fun _ => Docker.Ready) (startUnlessRunning c).run
      docker := by
  unfold startUnlessRunning
  by_cases running : c.running = true
  · rw [if_pos running]
    exact Task.succeeds_pure ready
  · rw [if_neg running]
    exact keeps_engine ready Docker.Ready.keeps fun held => held

theorem checkHealth_safe (ready : docker.Ready) :
    ((setting host image).issuing (Issuable host (.up patience limits))).Safe
      (Task.OnSuccess fun _ => Docker.Ready)
      (Task.attempt ManagerOp.checkHealth :
        ManagerTask (HealthState × Option String)).run docker :=
  succeeds_attempt Docker.Ready ready (fun same => Docker.Ready.keeps same.keeps)
    (fun _ => trivial) fun held behaves => Docker.Ready.keeps behaves.keeps held

theorem waitReady_safe (cause : String) (ticks : Nat) (ready : docker.Ready) :
    ((setting host image).issuing (Issuable host (.up patience limits))).Safe
      (Task.OnSuccess fun _ => Docker.Ready) (waitReady cause ticks).run
      docker := by
  induction ticks generalizing docker with
  | zero =>
      refine Task.succeeds_bind (checkHealth_safe ready) trivial ?_
      intro health later _ held
      by_cases up : isReady health = true
      · rw [if_pos up]
        exact Task.succeeds_pure held
      · rw [if_neg up]
        exact Task.succeeds_throw
  | succ ticks induction =>
      refine Task.succeeds_bind (checkHealth_safe ready) trivial ?_
      intro health later _ held
      by_cases up : isReady health = true
      · rw [if_pos up]
        exact Task.succeeds_pure held
      · rw [if_neg up]
        refine Task.succeeds_bind
          (keeps_engine held Docker.Ready.keeps fun _ => trivial) trivial ?_
        intro c later _ held
        exact succeeds_orRefuse_bind fun _ => induction held

theorem saveCredential_safe (ready : docker.Ready) :
    ((setting host image).issuing (Issuable host (.up patience limits))).Safe
      (Task.OnSuccess fun _ => Docker.Ready) saveCredential.run docker := by
  refine Task.succeeds_bind
    (keeps_engine ready Docker.Ready.keeps fun held => held) trivial ?_
  intro archive later _ held
  have saved : ((setting host image).issuing
      (Issuable host (.up patience limits))).Safe
      (Task.OnSuccess fun _ => Docker.Ready)
      (Task.attempt (ManagerOp.save archive) :
        ManagerTask (Option String)).run later :=
    succeeds_attempt Docker.Ready held
      (fun same => Docker.Ready.keeps same.keeps) (fun _ => trivial)
      fun held behaves => Docker.Ready.keeps behaves.keeps held
  refine Task.succeeds_bind saved trivial fun {failure later} _ held => ?_
  match failure with
  | none => exact Task.succeeds_pure held
  | some text => exact Task.succeeds_throw

/-- The rest of `Up` once the container is found. -/
theorem afterChecks_safe {c : ContainerState} (genuine : docker.Genuine) :
    ((setting host image).issuing (Issuable host (.up patience limits))).Safe
      (Task.OnSuccess fun _ => Docker.Ready)
      (do
        checkVolume
        startUnlessRunning c
        waitReady patience.cause patience.ticks
        saveCredential : ManagerTask Unit).run docker := by
  refine Task.succeeds_bind (checkVolume_safe genuine) trivial ?_
  intro _ _ _ ready
  refine Task.succeeds_bind (startUnlessRunning_safe c ready) trivial ?_
  intro _ _ _ ready
  refine Task.succeeds_bind (waitReady_safe _ _ ready) trivial ?_
  intro _ _ _ ready
  exact saveCredential_safe ready

/-- `Up` makes every call where it may, and ends with both objects. -/
theorem up_safe :
    ((setting host image).issuing (Issuable host (.up patience limits))).Safe
      (Task.OnSuccess fun _ => Docker.Ready) (up patience limits).run
      docker := by
  have free {call : EngineCall} {docker : Docker}
      (always : ∀ later,
        Issuable host (.up patience limits) (.engine call) later) :
      ((setting host image).issuing
        (Issuable host (.up patience limits))).Safe
        (Task.OnSuccess fun _ _ => True) (engine call).run docker :=
    keeps_engine trivial (fun _ _ => trivial) fun _ => always _
  refine Task.succeeds_bind (free fun _ => trivial) trivial ?_
  intro _ _ _ _
  have informed {docker : Docker} : ((setting host image).issuing
      (Issuable host (.up patience limits))).Safe
      (Task.OnSuccess fun (value : HostInfo) _ => value = host)
      (engine .info).run docker := by
    refine succeeds_engine (fun _ => True) trivial (fun _ _ => trivial)
      (fun _ => trivial) ?_
    rintro later value after - ⟨same, -⟩
    cases same
    rfl
  refine Task.succeeds_bind informed trivial ?_
  rintro _ _ - rfl
  refine Task.succeeds_bind (free fun _ => trivial) trivial ?_
  intro present _ _ _
  refine succeeds_orRefuse_bind fun _ => ?_
  refine Task.succeeds_bind provideContainer_safe trivial ?_
  intro found _ _ verified
  refine succeeds_orRefuse_bind fun passes => ?_
  exact succeeds_orRefuse_bind fun _ => afterChecks_safe (verified passes)

end Up

theorem down_safe {host : HostInfo} {image : Bool} {docker : Docker} :
    ((setting host image).issuing (Issuable host .down)).Safe
      (Task.OnSuccess fun _ _ => True) down.run docker := by
  have pinged {docker : Docker} : ((setting host image).issuing
      (Issuable host .down)).Safe (Task.OnSuccess fun _ _ => True)
      (engine .ping).run docker :=
    keeps_engine trivial (fun _ _ => trivial) fun _ => trivial
  refine Task.succeeds_bind pinged trivial fun _ _ => ?_
  have inspected {docker : Docker} : ((setting host image).issuing
      (Issuable host .down)).Safe
      (Task.OnSuccess fun result later => True ∧ Seen result later)
      (Task.attempt (ManagerOp.engine .inspect) :
        ManagerTask (Except EngineError ContainerState)).run docker :=
    succeeds_inspect trivial (fun _ _ => trivial) fun _ => trivial
  refine Task.succeeds_bind inspected trivial fun {result later} _ seen => ?_
  match result, seen with
  | .error .notFound, _ => exact Task.succeeds_pure trivial
  | .error (.failed text), _ => exact Task.succeeds_throw
  | .ok c, ⟨_, found⟩ =>
      refine succeeds_orRefuse_bind fun verified => ?_
      by_cases running : c.running = true
      · rw [if_pos running]
        exact succeeds_engine Docker.Genuine ⟨c, found, verified⟩
          (fun same held => held.keeps same.keeps) (fun held => held)
          fun _ _ => trivial
      · rw [if_neg running]
        exact Task.succeeds_pure trivial

/-- The calls that change an object, and the copy of the token. -/
def ManagerOp.Touches : ManagerOp → Prop
  | .engine .createVolume | .engine (.create _) | .engine .start
  | .engine .stop | .engine .copyFile => True
  | _ => False

theorem checkReuse_passes {host : HostInfo} {actual requested : Limits}
    (passes : checkReuse true host actual requested = .ok ()) :
    ¬ actual.Differ requested ∧ preflight host actual = .ok () := by
  rw [checkReuse, if_pos rfl] at passes
  unfold checkRequestedLimits at passes
  split at passes
  · rename_i agrees
    split at agrees
    · cases agrees
    · split at agrees
      · cases agrees
      · exact ⟨‹_›, passes⟩
  · cases passes

/-- `Up` on a container whose limits differ from the requested ones or do not
fit the host fails before it touches anything. -/
theorem up_refuses {host : HostInfo} {image : Bool} {docker : Docker}
    {patience : Patience} {limits : Limits} {c : ContainerState}
    (present : docker.container = some c)
    (unfit : c.limits.Differ limits ∨ preflight host c.limits ≠ .ok ()) :
    ((setting host image).issuing fun op _ => ¬ op.Touches).Safe
      (Task.OnSuccess fun _ _ => False) (up patience limits).run docker := by
  let Limited (docker : Docker) : Prop :=
    ∃ same, docker.container = some same ∧ same.limits = c.limits
  have lasting : ∀ {before after : Docker}, before.Keeps after →
      Limited before → Limited after := by
    rintro before after keeps ⟨found, there, same⟩
    obtain ⟨later, thereLater, identity⟩ := keeps.1 found there
    exact ⟨later, thereLater, (congrArg Identity.limits identity).trans same⟩
  have kept {call : EngineCall} {docker : Docker} (now : Limited docker)
      (free : ¬ (ManagerOp.engine call).Touches) :
      ((setting host image).issuing fun op _ => ¬ op.Touches).Safe
        (Task.OnSuccess fun _ => Limited) (engine call).run docker :=
    keeps_engine now lasting fun _ => free
  have now : Limited docker := ⟨c, present, rfl⟩
  refine Task.succeeds_bind (kept now nofun) trivial fun {_ _} _ now => ?_
  have informed {docker : Docker} (now : Limited docker) :
      ((setting host image).issuing fun op _ => ¬ op.Touches).Safe
        (Task.OnSuccess fun (value : HostInfo) later =>
          value = host ∧ Limited later) (engine .info).run docker := by
    refine succeeds_engine Limited now (fun same => lasting same.keeps)
      (fun _ => nofun) ?_
    rintro later value after held ⟨same, rfl⟩
    cases same
    exact ⟨rfl, held⟩
  refine Task.succeeds_bind (informed now) trivial ?_
  rintro value _ - ⟨same, now⟩
  subst value
  refine Task.succeeds_bind (kept now nofun) trivial fun {_ _} _ now => ?_
  refine succeeds_orRefuse_bind fun _ => ?_
  have inspected {docker : Docker} (now : Limited docker) :
      ((setting host image).issuing fun op _ => ¬ op.Touches).Safe
        (Task.OnSuccess fun found _ =>
          found.1 = true ∧ found.2.limits = c.limits)
        (provideContainer host limits).run docker := by
    have seen : ((setting host image).issuing fun op _ =>
        ¬ op.Touches).Safe
        (Task.OnSuccess fun result later => Limited later ∧ Seen result later)
        (Task.attempt (ManagerOp.engine .inspect) :
          ManagerTask (Except EngineError ContainerState)).run docker :=
      succeeds_inspect now lasting fun _ => nofun
    refine Task.succeeds_bind seen trivial fun {result later} _ seen => ?_
    match result, seen with
    | .ok found, ⟨⟨same, there, limited⟩, sees⟩ =>
        cases there.symm.trans sees
        exact Task.succeeds_pure ⟨rfl, limited⟩
    | .error .notFound, ⟨⟨same, there, limited⟩, sees⟩ =>
        cases there.symm.trans sees
    | .error (.failed text), _ => exact Task.succeeds_throw
  refine Task.succeeds_bind (inspected now) trivial ?_
  rintro ⟨existing, found⟩ later - ⟨rfl, limited⟩
  refine succeeds_orRefuse_bind fun _ => ?_
  refine succeeds_orRefuse_bind fun passes => ?_
  rw [show found.limits = c.limits from limited] at passes
  obtain ⟨agrees, fits⟩ := checkReuse_passes passes
  rcases unfit with differs | unfit
  · exact absurd differs agrees
  · exact absurd fits unfit

/-- The objects that a call acts on are missing or the appliance's own. -/
def SparesForeign : ManagerOp → Docker → Prop
  | .engine .createVolume, docker =>
      ∀ volume, docker.volume = some volume → volume.owned = true
  | .engine (.create _), docker | .engine .start, docker
  | .engine .copyFile, docker =>
      (∀ c, docker.container = some c → verifyContainer c = .ok ()) ∧
        ∀ volume, docker.volume = some volume → volume.owned = true
  | .engine .stop, docker =>
      ∀ c, docker.container = some c → verifyContainer c = .ok ()
  | _, _ => True

theorem Docker.Genuine.verified {docker : Docker} (genuine : docker.Genuine) :
    ∀ c, docker.container = some c → verifyContainer c = .ok () := by
  intro c found
  obtain ⟨other, also, verified⟩ := genuine
  cases found.symm.trans also
  exact verified

theorem Docker.HasVolume.owned {docker : Docker} (has : docker.HasVolume) :
    ∀ volume, docker.volume = some volume → volume.owned = true := by
  intro volume found
  obtain ⟨other, also, owned⟩ := has
  cases found.symm.trans also
  exact owned

theorem Issuable.sparesForeign {host : HostInfo} {command : Command}
    {op : ManagerOp} {docker : Docker}
    (issuable : Issuable host command op docker) :
    SparesForeign op docker := by
  cases op with
  | engine call =>
      cases call with
      | createVolume =>
          intro volume found
          cases found.symm.trans issuable.1
      | create limits =>
          refine ⟨fun c found => ?_, issuable.2.1.owned⟩
          cases found.symm.trans issuable.1
      | start | copyFile => exact ⟨issuable.1.verified, issuable.2.owned⟩
      | stop => exact Docker.Genuine.verified issuable
      | ping | info | imageExists | inspect | inspectVolume => trivial
  | checkHealth | save archive => trivial

theorem Command.issues {command : Command} {host : HostInfo} {image : Bool}
    {docker : Docker} {events : List (Event ManagerOp ManagerOp.Result Docker)}
    {rest : Program ManagerOp ManagerOp.Result (Except ManagerError Unit)}
    (executes : (setting host image).Executes command.program docker events
      rest) :
    ∀ event ∈ events, Issuable host command event.op event.before := by
  cases command with
  | up patience limits => exact (executes.issued up_safe).1
  | down => exact (executes.issued down_safe).1

abbrev ManagerEvent := Event ManagerOp ManagerOp.Result Docker

def containerCreated : ManagerEvent → Bool
  | ⟨_, .engine (.create _), .ok _, _⟩ => true
  | _ => false

def volumeCreated : ManagerEvent → Bool
  | ⟨_, .engine .createVolume, .ok _, _⟩ => true
  | _ => false

/-- How many more containers there can be. -/
def Docker.containerRoom (docker : Docker) : Nat :=
  if docker.container = none then 1 else 0

def Docker.volumeRoom (docker : Docker) : Nat :=
  if docker.volume = none then 1 else 0

theorem Docker.Keeps.containerRoom_le {before after : Docker}
    (keeps : before.Keeps after) :
    after.containerRoom ≤ before.containerRoom := by
  unfold containerRoom
  cases found : before.container with
  | none => split <;> simp
  | some c =>
      obtain ⟨same, there, -⟩ := keeps.1 c found
      simp [there]

theorem Docker.Keeps.volumeRoom_le {before after : Docker}
    (keeps : before.Keeps after) : after.volumeRoom ≤ before.volumeRoom := by
  unfold volumeRoom
  cases found : before.volume with
  | none => split <;> simp
  | some volume => simp [keeps.2 volume found]

section Events

variable {host : HostInfo} {image : Bool} {command : Command}
  {event : ManagerEvent}

theorem containerCreated_room
    (behaves : event.before.Behaves host image event.op event.result
      event.after) :
    (if containerCreated event then 1 else 0) + event.after.containerRoom ≤
      event.before.containerRoom := by
  by_cases created : containerCreated event = true
  · rw [if_pos created]
    unfold containerCreated at created
    split at created
    · rename_i before limits done after
      rcases behaves with ⟨⟨text, failed⟩, -⟩ | answers
      · cases failed
      · cases found : before.container with
        | some c =>
            simp only [Docker.Answers, found] at answers
            obtain ⟨⟨text, failed⟩, -⟩ := answers
            cases failed
        | none =>
            simp only [Docker.Answers, found] at answers
            obtain ⟨-, rfl⟩ := answers
            simp [Docker.containerRoom, found]
    · cases created
  · rw [if_neg created, Nat.zero_add]
    exact behaves.keeps.containerRoom_le

theorem volumeCreated_room
    (behaves : event.before.Behaves host image event.op event.result
      event.after)
    (issuable : Issuable host command event.op event.before) :
    (if volumeCreated event then 1 else 0) + event.after.volumeRoom ≤
      event.before.volumeRoom := by
  by_cases created : volumeCreated event = true
  · rw [if_pos created]
    unfold volumeCreated at created
    split at created
    · rename_i before done after
      dsimp only at behaves issuable ⊢
      rcases behaves with ⟨⟨text, failed⟩, -⟩ | ⟨-, rfl⟩
      · cases failed
      · simp [Docker.volumeRoom, show before.volume = none from issuable.1]
    · cases created
  · rw [if_neg created, Nat.zero_add]
    exact behaves.keeps.volumeRoom_le

end Events

/-- The states of a sequence of commands. -/
def Sequence.states (docker : Docker) (invocations : List Invocation) :
    List Docker :=
  docker :: invocations.flatMap fun invocation =>
    Setting.states invocation.start invocation.events

section Sequences

variable {docker : Docker} {invocations : List Invocation}

/-- Each command executes its program. -/
theorem Sequence.executes (sequence : Sequence docker invocations) :
    ∀ invocation ∈ invocations,
      (setting invocation.host invocation.image).Executes
        invocation.command.program invocation.start invocation.events
        invocation.rest := by
  induction sequence with
  | nil docker => exact List.forall_mem_nil _
  | cons _ executes _ induction =>
      exact List.forall_mem_cons.mpr ⟨executes, induction⟩

theorem Sequence.countP_le {room : Docker → Nat}
    {counted : ManagerEvent → Bool} (sequence : Sequence docker invocations)
    (between : ∀ {before after : Docker}, before.SameObjects after →
      room after ≤ room before)
    (during : ∀ invocation ∈ invocations, ∀ event ∈ invocation.events,
      (if counted event then 1 else 0) + room event.after ≤
        room event.before) :
    (invocations.flatMap Invocation.events).countP counted ≤ room docker := by
  induction sequence with
  | nil docker => simp
  | cons same executes _ induction =>
      rw [List.forall_mem_cons] at during
      rw [List.flatMap_cons, List.countP_append]
      have here := executes.countP_add_le between during.1
      have later := induction during.2
      have before := between same
      omega

theorem Sequence.pairwise (sequence : Sequence docker invocations) :
    (Sequence.states docker invocations).Pairwise Docker.Keeps := by
  induction sequence with
  | nil docker => exact List.pairwise_singleton _ _
  | @cons docker invocation later same executes _ induction =>
      have own : (Setting.states invocation.start invocation.events).Pairwise
          Docker.Keeps :=
        executes.pairwise Docker.Keeps.refl Docker.Keeps.trans
          (fun same => same.keeps) fun behaves => behaves.keeps
      have toFinal : ∀ state ∈
          Setting.states invocation.start invocation.events,
          state.Keeps
            (Setting.finalState invocation.start invocation.events) := by
        intro state member
        rcases List.mem_append.mp member with front | last
        · exact (List.pairwise_append.mp own).2.2 state front _
            (List.mem_singleton_self _)
        · rw [List.mem_singleton.mp last]
          exact .refl _
      obtain ⟨fromFinal, rest⟩ := List.pairwise_cons.mp induction
      have joined := List.pairwise_append.mpr ⟨own, rest,
        fun state member other after =>
          (toFinal state member).trans (fromFinal other after)⟩
      unfold Sequence.states
      rw [List.flatMap_cons]
      refine .cons ?_ joined
      intro state member
      have first : docker.Keeps invocation.start := same.keeps
      rcases List.mem_cons.mp member with rfl | member
      · exact first
      · exact first.trans ((List.pairwise_cons.mp joined).1 state member)

end Sequences

/-- Whatever Docker holds at first and whichever calls fail, a sequence of
commands spares foreign objects, creates nothing that does not fit the host,
creates at most one container and one volume, and keeps a container's limits;
and `Up` on a container with other limits than requested, or with limits that
do not fit the host, fails without touching anything. -/
theorem appliance_managed (docker : Docker) (invocations : List Invocation)
    (sequence : Sequence docker invocations) :
    (∀ invocation ∈ invocations, ∀ event ∈ invocation.events,
        SparesForeign event.op event.before) ∧
      (∀ invocation ∈ invocations, ∀ event ∈ invocation.events,
        (event.op = .engine .createVolume ∨
            ∃ limits, event.op = .engine (.create limits)) →
          ∃ patience limits, invocation.command = .up patience limits ∧
            preflight invocation.host limits = .ok () ∧
            ∀ used, event.op = .engine (.create used) → used = limits) ∧
      (invocations.flatMap Invocation.events).countP containerCreated ≤ 1 ∧
      (invocations.flatMap Invocation.events).countP volumeCreated ≤ 1 ∧
      (Sequence.states docker invocations).Pairwise
        (fun earlier later => ∀ c, earlier.container = some c →
          ∃ same, later.container = some same ∧ same.limits = c.limits) ∧
      (∀ invocation ∈ invocations, ∀ patience limits c,
        invocation.command = .up patience limits →
        invocation.start.container = some c →
        c.limits.Differ limits ∨
          preflight invocation.host c.limits ≠ .ok () →
        (∀ event ∈ invocation.events, ¬ event.op.Touches) ∧
          invocation.rest ≠ .done (.ok ())) := by
  have issues (invocation : Invocation) (member : invocation ∈ invocations) :
      ∀ event ∈ invocation.events,
        Issuable invocation.host invocation.command event.op event.before :=
    Command.issues (sequence.executes invocation member)
  have behaves (invocation : Invocation)
      (member : invocation ∈ invocations) :=
    (sequence.executes invocation member).behaves
  refine ⟨?_, ?_, ?_, ?_, ?_, ?_⟩
  · intro invocation member event inside
    exact (issues invocation member event inside).sparesForeign
  · intro invocation member event inside creates
    have issuable := issues invocation member event inside
    rcases creates with volume | ⟨limits, container⟩
    · rw [volume] at issuable ⊢
      obtain ⟨-, patience, limits, command, fits⟩ := issuable
      exact ⟨patience, limits, command, fits, nofun⟩
    · rw [container] at issuable ⊢
      obtain ⟨-, -, ⟨patience, command⟩, fits⟩ := issuable
      refine ⟨patience, limits, command, fits, ?_⟩
      rintro _ ⟨⟩
      rfl
  · refine (sequence.countP_le (fun same => same.keeps.containerRoom_le)
      fun invocation member event inside =>
        containerCreated_room (behaves invocation member event inside)).trans ?_
    unfold Docker.containerRoom
    split <;> decide
  · refine (sequence.countP_le (fun same => same.keeps.volumeRoom_le)
      fun invocation member event inside =>
        volumeCreated_room (behaves invocation member event inside)
          (issues invocation member event inside)).trans ?_
    unfold Docker.volumeRoom
    split <;> decide
  · refine sequence.pairwise.imp fun keeps c found => ?_
    obtain ⟨same, there, identity⟩ := keeps.1 c found
    exact ⟨same, there, congrArg Identity.limits identity⟩
  · intro invocation member patience limits c command present unfit
    have executes := sequence.executes invocation member
    rw [command] at executes
    obtain ⟨untouched, ends⟩ := executes.issued (up_refuses present unfit)
    exact ⟨untouched, fun finished => ends _ finished _ rfl⟩

def exampleHost : HostInfo :=
  { rootless := false, cgroupVersion := "2", kernelVersion := "5.15.0-100"
    osType := "linux", architecture := "x86_64", memTotal := 8 * 2 ^ 30
    cpus := 4, memoryLimit := true, pidsLimit := true, cpuQuota := true }

def exampleLimits : Limits :=
  { memoryBytes := 4 * 2 ^ 30, nanoCPUs := 2000000000, pids := 4096
    explicit := { memory := false, cpus := false, pids := false } }

/-- An engine with neither object, with the volume, and with both. -/
def noObjects : Docker := { container := none, volume := none }

def onlyVolume : Docker :=
  { container := none, volume := some { owned := true } }

def bothObjects : Docker :=
  { container := some (Docker.newContainer exampleLimits)
    volume := some { owned := true } }

def foreignObject : Docker :=
  { container := none, volume := some { owned := false } }

/-- More memory, which the command line asks for. -/
def otherLimits : Limits :=
  { exampleLimits with
    memoryBytes := 5 * 2 ^ 30
    explicit := { memory := true, cpus := false, pids := false } }

/-- The calls with which a start begins. -/
def startCalls (docker : Docker) : List ManagerEvent :=
  [⟨docker, .engine .ping, .ok (), docker⟩,
    ⟨docker, .engine .info, .ok exampleHost, docker⟩,
    ⟨docker, .engine .imageExists, .ok true, docker⟩]

/-- A start with its calls and what is left of it. -/
def startOf (limits : Limits) (docker : Docker) (events : List ManagerEvent)
    (rest : Program ManagerOp ManagerOp.Result (Except ManagerError Unit)) :
    Invocation :=
  { command := .up ⟨0, ""⟩ limits, host := exampleHost, image := true
    start := docker, events := startCalls docker ++ events, rest }

/-- A first start that is interrupted after it has created both objects. -/
theorem firstStart_executes : ∃ rest, Sequence noObjects
    [startOf exampleLimits noObjects
      [⟨noObjects, .engine .inspect, .error .notFound, noObjects⟩,
        ⟨noObjects, .engine .inspectVolume, .error .notFound, noObjects⟩,
        ⟨noObjects, .engine .createVolume, .ok (), onlyVolume⟩,
        ⟨onlyVolume, .engine (.create exampleLimits), .ok (), bothObjects⟩]
      rest,
    startOf otherLimits bothObjects
      [⟨bothObjects, .engine .inspect,
        .ok (Docker.newContainer exampleLimits), bothObjects⟩]
      (.done (.error (.limitsDiffer exampleLimits)))] := by
  refine ⟨_, .cons (.refl _) (.call (.refl _) (.inr ⟨rfl, rfl⟩)
    (.call (.refl _) (.inr ⟨rfl, rfl⟩) (.call (.refl _) (.inr ⟨rfl, rfl⟩)
      (.call (.refl _) (.inr ⟨rfl, rfl⟩) (.call (.refl _) (.inr ⟨rfl, rfl⟩)
        (.call (.refl _) (.inr ⟨rfl, rfl⟩) (.call (.refl _)
          (.inr ⟨rfl, rfl⟩) (.stop _ _)))))))) (.cons (.refl _) ?_ (.nil _))⟩
  exact .call (.refl _) (.inr ⟨rfl, rfl⟩) (.call (.refl _) (.inr ⟨rfl, rfl⟩)
    (.call (.refl _) (.inr ⟨rfl, rfl⟩) (.call (.refl _) (.inr ⟨rfl, rfl⟩)
      (.stop _ _))))

theorem foreignObject_executes : Sequence foreignObject
    [startOf exampleLimits foreignObject
      [⟨foreignObject, .engine .inspect, .error .notFound, foreignObject⟩,
        ⟨foreignObject, .engine .inspectVolume, .ok { owned := false },
          foreignObject⟩]
      (.done (.error foreignVolume))] :=
  .cons (.refl _) (.call (.refl _) (.inr ⟨rfl, rfl⟩) (.call (.refl _)
    (.inr ⟨rfl, rfl⟩) (.call (.refl _) (.inr ⟨rfl, rfl⟩) (.call (.refl _)
      (.inr ⟨rfl, rfl⟩) (.call (.refl _) (.inr ⟨rfl, rfl⟩)
        (.stop _ _)))))) (.nil _)

/-- A first start creates both objects, a second one that asks for other
limits touches neither, and a start that finds a volume of somebody else
spares it. -/
theorem firstStart_managed :
    (∃ first again, Sequence noObjects [first, again] ∧
      ([first, again].flatMap Invocation.events).countP containerCreated =
        1 ∧
      ([first, again].flatMap Invocation.events).countP volumeCreated = 1 ∧
      again.rest = .done (.error (.limitsDiffer exampleLimits)) ∧
      ∀ event ∈ again.events, ¬ event.op.Touches) ∧
    ∃ refused, Sequence foreignObject [refused] ∧
      refused.rest = .done (.error foreignVolume) ∧
      ∀ event ∈ refused.events, SparesForeign event.op event.before := by
  obtain ⟨rest, sequence⟩ := firstStart_executes
  obtain ⟨-, -, -, -, -, refuses⟩ := appliance_managed _ _ sequence
  obtain ⟨untouched, -⟩ := refuses _ (.tail _ (.head _)) ⟨0, ""⟩ otherLimits
    (Docker.newContainer exampleLimits) rfl rfl (.inl (.inl (by decide)))
  obtain ⟨spares, -⟩ := appliance_managed _ _ foreignObject_executes
  exact ⟨⟨_, _, sequence, rfl, rfl, rfl, untouched⟩, _,
    foreignObject_executes, rfl, spares _ (.head _)⟩

end Nephos.Appliance
