import Nephos.Appliance.Token
import Nephos.Library.Machine
import Nephos.Model
import Nephos.Text

/-!
# The life of the appliance

`Up` starts or reuses the one appliance container and its data volume, and
`Down` stops it.  Both look at the two objects before they touch them.  The
Docker engine has the two objects and nothing else; its calls may fail, and a
container may stop or start by itself.
-/

namespace Nephos.Appliance

open Effects

def volumeName : String := "nephos-data"
def imageName : String := "nephos-appliance:dev"

/-- The limits that the command line overrides. -/
structure LimitSelection where
  memory : Bool
  cpus : Bool
  pids : Bool
deriving DecidableEq, Repr

structure Limits where
  memoryBytes : Int
  nanoCPUs : Int
  pids : Int
  explicit : LimitSelection
deriving DecidableEq, Repr

structure HostInfo where
  rootless : Bool
  cgroupVersion : String
  kernelVersion : String
  osType : String
  architecture : String
  memTotal : Int
  cpus : Int
  memoryLimit : Bool
  pidsLimit : Bool
  cpuQuota : Bool
deriving DecidableEq, Repr

structure ContainerState where
  running : Bool
  owned : Bool
  status : String
  image : String
  volume : String
  limits : Limits
  healthStatus : String
deriving DecidableEq, Repr

structure VolumeState where
  owned : Bool
deriving DecidableEq, Repr

inductive HealthState where
  | starting
  | ready
  | unhealthy
deriving DecidableEq, Repr

inductive EngineError where
  /-- An error that wraps `ErrNotFound`. -/
  | notFound
  | failed (text : String)
deriving DecidableEq, Repr

/-- The errors of the manager.  Those whose texts contain rounded numbers or
durations are given by the numbers. -/
inductive ManagerError where
  | engine (failure : EngineError)
  | refused (text : String)
  | limitsDiffer (actual : Limits)
  | lowMemory (memTotal memoryBytes : Int)
  | notReady (last : HealthState) (cause : String)
deriving DecidableEq, Repr

def verifyContainer (c : ContainerState) : Except ManagerError Unit :=
  if ¬ c.owned ∨ c.volume ≠ volumeName ∨ c.image ≠ imageName then
    .error (.refused ("docker container \"nephos\" exists but does not " ++
      "match the Nephos appliance"))
  else .ok ()

/-- An explicitly requested limit is not the actual one. -/
def Limits.Differ (actual requested : Limits) : Prop :=
  (requested.explicit.memory ∧ actual.memoryBytes ≠ requested.memoryBytes) ∨
    (requested.explicit.cpus ∧ actual.nanoCPUs ≠ requested.nanoCPUs) ∨
    (requested.explicit.pids ∧ actual.pids ≠ requested.pids)

instance (actual requested : Limits) :
    Decidable (actual.Differ requested) := by
  unfold Limits.Differ
  infer_instance

def checkRequestedLimits (actual requested : Limits) :
    Except ManagerError Unit :=
  if actual.memoryBytes ≤ 0 ∨ actual.nanoCPUs ≤ 0 ∨ actual.pids ≤ 0 then
    .error (.refused ("existing appliance has missing Docker resource " ++
      "limits; inspect its configuration before restarting"))
  else if actual.Differ requested then .error (.limitsDiffer actual)
  else .ok ()

def kernelAtLeast (release : String) (wantMajor wantMinor : Int) : Bool :=
  match release.toList.splitOn '.' with
  | first :: second :: _ =>
      match parseInt64 (String.ofList first),
        parseInt64 (String.ofList second) with
      | some major, some minor =>
          wantMajor < major || (major == wantMajor && wantMinor ≤ minor)
      | _, _ => false
  | _ => false

def preflight (host : HostInfo) (limits : Limits) : Except ManagerError Unit :=
  if limits.memoryBytes < 3 * 2 ^ 30 ∨ limits.nanoCPUs ≤ 0 ∨
      limits.pids ≤ 0 then
    .error (.refused ("invalid appliance limits: memory must be at least " ++
      "3 GiB and CPU/PIDs positive"))
  else if host.rootless then
    .error (.refused
      "rootless Docker cannot run the privileged Nephos appliance")
  else if host.osType ≠ "linux" ∨ host.cgroupVersion ≠ "2" then
    .error (.refused "nephos needs Linux Docker with cgroup v2")
  else if host.architecture ∉ ["x86_64", "amd64", "aarch64", "arm64"] then
    .error (.refused ("unsupported Docker architecture " ++
      Text.quote host.architecture ++ "; use amd64 or arm64"))
  else if ¬ kernelAtLeast host.kernelVersion 5 15 then
    .error (.refused ("nephos needs Linux kernel 5.15 or newer; Docker " ++
      "reports " ++ Text.quote host.kernelVersion))
  else if host.memTotal < limits.memoryBytes then
    .error (.lowMemory host.memTotal limits.memoryBytes)
  else if ¬ host.memoryLimit ∨ ¬ host.pidsLimit ∨ ¬ host.cpuQuota then
    .error (.refused "docker must support memory, pids, and CPU limits")
  else if host.cpus <
      (int64 (limits.nanoCPUs + 1000000000 - 1)).tdiv 1000000000 then
    .error (.refused "docker exposes too few CPUs for the appliance limit")
  else .ok ()

inductive EngineCall where
  | ping
  | info
  | imageExists
  | inspect
  | inspectVolume
  | createVolume
  | create (limits : Limits)
  | start
  | stop
  | copyFile
deriving DecidableEq, Repr

@[reducible] def EngineCall.Value : EngineCall → Type
  | .info => HostInfo
  | .imageExists => Bool
  | .inspect => ContainerState
  | .inspectVolume => VolumeState
  | .copyFile => Archive
  | .ping | .createVolume | .create _ | .start | .stop => Unit

inductive ManagerOp where
  | engine (call : EngineCall)
  /-- `Health.Check`, which returns a state and maybe an error. -/
  | checkHealth
  /-- `Credentials.Save`. -/
  | save (archive : Archive)

@[reducible] def ManagerOp.Result : ManagerOp → Type
  | .engine call => Except EngineError call.Value
  | .checkHealth => HealthState × Option String
  | .save _ => Option String

abbrev ManagerTask (α : Type) :=
  Effects.Task ManagerError ManagerOp ManagerOp.Result α

/-- A call whose error is returned. -/
def engine (call : EngineCall) : ManagerTask call.Value := do
  match ← Task.attempt (ManagerOp.engine call) with
  | .ok value => return value
  | .error failure => throw (.engine failure)

def orRefuse : Except ManagerError Unit → ManagerTask Unit
  | .ok () => return ()
  | .error failure => throw failure

def foreignVolume : ManagerError :=
  .refused "docker volume \"nephos-data\" exists but is not owned by Nephos"

def ownedVolume (volume : VolumeState) : Except ManagerError Unit :=
  if volume.owned then .ok () else .error foreignVolume

/-- The volume of a new container. -/
def provideVolume : ManagerTask Unit := do
  match ← Task.attempt (ManagerOp.engine .inspectVolume) with
  | .error .notFound => engine .createVolume
  | .error (.failed text) => throw (.engine (.failed text))
  | .ok volume => orRefuse (ownedVolume volume)

def createContainer (host : HostInfo) (limits : Limits) :
    ManagerTask ContainerState := do
  orRefuse (preflight host limits)
  provideVolume
  engine (.create limits)
  return { running := false, owned := true, status := "", image := imageName
           volume := volumeName, limits, healthStatus := "" }

/-- The container, and whether it was there before. -/
def provideContainer (host : HostInfo) (limits : Limits) :
    ManagerTask (Bool × ContainerState) := do
  match ← Task.attempt (ManagerOp.engine .inspect) with
  | .ok c => return (true, c)
  | .error .notFound =>
      let c ← createContainer host limits
      return (false, c)
  | .error (.failed text) => throw (.engine (.failed text))

/-- A reused container keeps its own limits. -/
def checkReuse (existing : Bool) (host : HostInfo)
    (actual requested : Limits) : Except ManagerError Unit :=
  if existing then
    match checkRequestedLimits actual requested with
    | .ok () => preflight host actual
    | .error failure => .error failure
  else .ok ()

def checkVolume : ManagerTask Unit := do
  let volume ← engine .inspectVolume
  orRefuse (ownedVolume volume)

def startUnlessRunning (c : ContainerState) : ManagerTask Unit :=
  if c.running then return () else engine .start

/-- How often the ticker fires before the deadline or the end of the context,
and the error of the context then. -/
structure Patience where
  ticks : Nat
  cause : String

def stillRunning (c : ContainerState) : Except ManagerError Unit :=
  if c.running then .ok ()
  else .error (.refused ("appliance stopped during startup (state " ++
    c.status ++ "); inspect Docker logs"))

def isReady (health : HealthState × Option String) : Bool :=
  health.2.isNone && health.1 == .ready

def waitReady (cause : String) : Nat → ManagerTask Unit
  | 0 => do
      let health ← Task.attempt ManagerOp.checkHealth
      if isReady health then return () else throw (.notReady health.1 cause)
  | ticks + 1 => do
      let health ← Task.attempt ManagerOp.checkHealth
      if isReady health then return ()
      else do
        let c ← engine .inspect
        orRefuse (stillRunning c)
        waitReady cause ticks

def saveCredential : ManagerTask Unit := do
  let archive ← engine .copyFile
  match ← Task.attempt (ManagerOp.save archive) with
  | none => return ()
  | some text => throw (.refused ("save appliance credential: " ++ text))

def imagePresent (present : Bool) : Except ManagerError Unit :=
  if present then .ok ()
  else .error (.refused ("appliance image is missing; run make dev-ami && " ++
    "make appliance"))

def up (patience : Patience) (limits : Limits) : ManagerTask Unit := do
  engine .ping
  let host ← engine .info
  let present ← engine .imageExists
  orRefuse (imagePresent present)
  let (existing, c) ← provideContainer host limits
  orRefuse (verifyContainer c)
  orRefuse (checkReuse existing host c.limits limits)
  checkVolume
  startUnlessRunning c
  waitReady patience.cause patience.ticks
  saveCredential

def down : ManagerTask Unit := do
  engine .ping
  match ← Task.attempt (ManagerOp.engine .inspect) with
  | .error .notFound => return ()
  | .error (.failed text) => throw (.engine (.failed text))
  | .ok c =>
      orRefuse (verifyContainer c)
      if c.running then engine .stop else return ()

inductive Command where
  | up (patience : Patience) (limits : Limits)
  | down

def Command.program :
    Command → Program ManagerOp ManagerOp.Result (Except ManagerError Unit)
  | .up patience limits => (Appliance.up patience limits).run
  | .down => Appliance.down.run

/-- The two objects with the appliance's names. -/
structure Docker where
  container : Option ContainerState
  volume : Option VolumeState
deriving DecidableEq, Repr

/-- What does not change by itself of a container. -/
structure Identity where
  owned : Bool
  image : String
  volume : String
  limits : Limits
deriving DecidableEq

def ContainerState.identity (c : ContainerState) : Identity :=
  { owned := c.owned, image := c.image, volume := c.volume, limits := c.limits }

namespace Docker

/-- The containers and volumes are the same; a container may have stopped or
started. -/
def SameObjects (before after : Docker) : Prop :=
  after.volume = before.volume ∧
    after.container.map ContainerState.identity =
      before.container.map ContainerState.identity

/-- A container as Docker stores it, which does not know what was explicit. -/
def newContainer (limits : Limits) : ContainerState :=
  { running := false, owned := true, status := "created", image := imageName
    volume := volumeName
    limits := { limits with
      explicit := { memory := false, cpus := false, pids := false } }
    healthStatus := "" }

/-- What a call that reaches the engine answers and does. -/
def Answers (host : HostInfo) (image : Bool) (before : Docker) :
    (call : EngineCall) → Except EngineError call.Value → Docker → Prop
  | .ping, result, after => result = .ok () ∧ after = before
  | .info, result, after => result = .ok host ∧ after = before
  | .imageExists, result, after => result = .ok image ∧ after = before
  | .inspect, result, after => after = before ∧
      result = match before.container with
        | some c => .ok c
        | none => .error .notFound
  | .inspectVolume, result, after => after = before ∧
      result = match before.volume with
        | some volume => .ok volume
        | none => .error .notFound
  | .createVolume, result, after => result = .ok () ∧
      after = { before with
        volume := some (before.volume.getD { owned := true }) }
  -- Docker itself makes a volume that is missing, without the label.
  | .create limits, result, after =>
      match before.container with
      | some _ => (∃ text, result = .error (.failed text)) ∧ after = before
      | none => result = .ok () ∧
          after = { container := some (newContainer limits)
                    volume := some (before.volume.getD { owned := false }) }
  | .start, result, after =>
      match before.container with
      | some c => result = .ok () ∧ after = { before with
          container := some { c with running := true, status := "running" } }
      | none => result = .error .notFound ∧ after = before
  | .stop, result, after =>
      match before.container with
      | some c => result = .ok () ∧ after = { before with
          container := some { c with running := false, status := "exited" } }
      | none => result = .error .notFound ∧ after = before
  | .copyFile, result, after => after = before ∧
      match before.container with
      | some _ => ∃ archive, result = .ok archive
      | none => result = .error .notFound

/-- A call fails without an effect, or reaches the engine. -/
def Behaves (host : HostInfo) (image : Bool) (before : Docker) :
    (op : ManagerOp) → op.Result → Docker → Prop
  | .engine call, result, after =>
      ((∃ text, result = .error (.failed text)) ∧ after = before) ∨
        before.Answers host image call result after
  | .checkHealth, _, after => after = before
  | .save _, _, after => after = before

end Docker

theorem Docker.SameObjects.refl (docker : Docker) :
    docker.SameObjects docker :=
  ⟨rfl, rfl⟩

theorem Docker.SameObjects.trans {first second third : Docker}
    (left : first.SameObjects second) (right : second.SameObjects third) :
    first.SameObjects third :=
  ⟨right.1.trans left.1, right.2.trans left.2⟩

def setting (host : HostInfo) (image : Bool) :
    Setting ManagerOp ManagerOp.Result Docker where
  others := Docker.SameObjects
  behaviour := Docker.Behaves host image
  refl := Docker.SameObjects.refl
  trans := Docker.SameObjects.trans

/-- A command with the host it finds, what it has done and what is left of
it.  It may be interrupted. -/
structure Invocation where
  command : Command
  host : HostInfo
  image : Bool
  start : Docker
  events : List (Event ManagerOp ManagerOp.Result Docker)
  rest : Program ManagerOp ManagerOp.Result (Except ManagerError Unit)

/-- A sequence of commands, one after the other. -/
inductive Sequence : Docker → List Invocation → Prop where
  | nil (docker : Docker) : Sequence docker []
  | cons {docker : Docker} {invocation : Invocation}
      {later : List Invocation} :
      docker.SameObjects invocation.start →
      (setting invocation.host invocation.image).Executes
        invocation.command.program invocation.start invocation.events
        invocation.rest →
      Sequence (Setting.finalState invocation.start invocation.events)
        later →
      Sequence docker (invocation :: later)

end Nephos.Appliance
