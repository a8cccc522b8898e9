import Nephos.Console.Server
import Nephos.Library.Lowering
import Nephos.Reconcile.Controllers

/-!
# The Podman client

The runtime of the instances is a client of the libpod API.  Its functions are
programs of requests; a request may fail at any time, with or without its
effect.  The engine may also hold containers of others, under any names and
with any labels.
-/

namespace Nephos

namespace Podman

open Effects

/-- `containerInspect`. -/
structure ContainerInspect where
  id : RuntimeID
  name : String
  labels : List (String × String)
  annotations : List (String × String)
  running : Bool
deriving DecidableEq, Repr

/-- The value of a key in a map, which is empty for a key that is not
there. -/
def valueOf (entries : List (String × String)) (key : String) : String :=
  (entries.lookup key).getD ""

def image : String := "nephos-ubuntu:dev"

def instanceLabel : String := "io.nephos.instance-id"

def managedLabel : String := "io.nephos.managed"

def workspaceLabel : String := "io.nephos.workspace-id"

def isLowerHex (char : Char) : Bool :=
  ('0' ≤ char && char ≤ '9') || ('a' ≤ char && char ≤ 'f')

/-- `instanceIDPattern`. -/
def isInstanceID (text : String) : Bool :=
  match text.toList with
  | 'i' :: '-' :: digits => digits.length == 17 && digits.all isLowerHex
  | _ => false

/-- `runtimeIDPattern`. -/
def isRuntimeID (text : String) : Bool :=
  text.toList.length == 64 && text.toList.all isLowerHex

/-- What a request to make a container says of it.  The limits, namespaces
and capabilities are the same for every instance. -/
structure ContainerSpec where
  name : String
  image : String
  labels : List (String × String)
  annotations : List (String × String)
deriving DecidableEq, Repr

inductive Request where
  | inspectContainer (reference : String)
  | imageExists (reference : String)
  | createContainer (spec : ContainerSpec)
  | startContainer (reference : String)
  | removeContainer (reference : String)
  | createExec (reference : String) (request : Console.ExecRequest)

@[reducible] def Request.Answer : Request → Type
  | .inspectContainer _ => ContainerInspect
  | .createContainer _ => RuntimeID
  | .createExec _ _ => String
  | _ => Unit

/-- How a request refers to the container that it changes or enters. -/
def Request.target : Request → Option String
  | .startContainer reference | .removeContainer reference
  | .createExec reference _ => some reference
  | _ => none

/-- An error of the client, with the status if it is an `APIError`. -/
structure RequestError where
  status : Option Nat
  text : String
deriving DecidableEq, Repr

def RequestError.isStatus (error : RequestError) (status : Nat) : Bool :=
  error.status == some status

def plainError (text : String) : RequestError := ⟨none, text⟩

/-- The containers that exist, and the ones that were ever made. -/
structure Engine where
  containers : List ContainerInspect
  made : List ContainerInspect

/-- What does not change while a container exists. -/
def ContainerInspect.identity (doc : ContainerInspect) : ContainerInspect :=
  { doc with running := false }

/-- The engine takes the identity of a container or its name. -/
def ContainerInspect.Answers (doc : ContainerInspect) (reference : String) :
    Prop :=
  doc.id = reference ∨ doc.name = reference

instance (doc : ContainerInspect) (reference : String) :
    Decidable (doc.Answers reference) :=
  inferInstanceAs (Decidable (_ ∨ _))

/-- How a request comes out, with the identity of the container that is made
or reached. -/
inductive Turn where
  | found (doc : ContainerInspect)
  | reached (id : RuntimeID)
  | entered (id : RuntimeID) (session : String)
  | done
  | fails (effect : Option RuntimeID) (error : RequestError)

namespace Engine

variable (engine : Engine)

/-- Identities are not used again, and names are unique. -/
def add (doc : ContainerInspect) : Option Engine :=
  if (∀ old ∈ engine.made, old.id ≠ doc.id) ∧
      ∀ other ∈ engine.containers, other.name ≠ doc.name then
    some
      { containers := engine.containers ++ [doc]
        made := engine.made ++ [doc.identity] }
  else none

def setRunning (id : RuntimeID) (running : Bool) : Engine :=
  { engine with
    containers := engine.containers.map fun doc =>
      if doc.id = id then { doc with running } else doc }

def remove (id : RuntimeID) : Engine :=
  { engine with containers := engine.containers.filter (·.id ≠ id) }

/-- The reference can lead to the container with the identity. -/
def Resolves (reference : String) (id : RuntimeID) : Prop :=
  ∃ doc ∈ engine.containers, doc.id = id ∧ doc.Answers reference

instance (reference : String) (id : RuntimeID) :
    Decidable (engine.Resolves reference id) :=
  inferInstanceAs (Decidable (∃ doc ∈ engine.containers, _))

/-- The effect of a request on the container with the identity. -/
def effect (id : RuntimeID) : Request → Option Engine
  | .createContainer spec => engine.add
      { id, name := spec.name, labels := spec.labels
        annotations := spec.annotations, running := false }
  | .startContainer reference =>
      if engine.Resolves reference id then some (engine.setRunning id true)
      else none
  | .removeContainer reference =>
      if engine.Resolves reference id then some (engine.remove id) else none
  | _ => some engine

/-- A request that succeeds, with its answer. -/
def succeed : (request : Request) → Turn → Option (request.Answer × Engine)
  | .inspectContainer reference, .found doc =>
      if doc ∈ engine.containers ∧ doc.Answers reference then
        some (doc, engine)
      else none
  | .imageExists _, .done => some ((), engine)
  | .createContainer spec, .reached id =>
      (engine.effect id (.createContainer spec)).map fun after => (id, after)
  | .startContainer reference, .reached id =>
      (engine.effect id (.startContainer reference)).map fun after =>
        ((), after)
  | .removeContainer reference, .reached id =>
      (engine.effect id (.removeContainer reference)).map fun after =>
        ((), after)
  | .createExec reference _, .entered id session =>
      if engine.Resolves reference id then some (session, engine) else none
  | _, _ => none

def exec (request : Request) :
    Turn → Option (Except RequestError request.Answer × Engine)
  | .fails none error => some (.error error, engine)
  | .fails (some id) error =>
      (engine.effect id request).map fun after => (.error error, after)
  | turn => (engine.succeed request turn).map fun outcome =>
      (.ok outcome.1, outcome.2)

end Engine

/-- The calls of the daemon, with requests in place of the runtime's. -/
inductive SiteOp where
  | daemon (op : Op)
  | request (sent : Request)

@[reducible] def SiteOp.Result : SiteOp → Type
  | .daemon op => op.Result
  | .request sent => Except RequestError sent.Answer

abbrev Agent (α : Type) := Program SiteOp SiteOp.Result α

def send (request : Request) : Agent (Except RequestError request.Answer) :=
  Program.perform (SiteOp.request request)

def ask (op : Op) : Agent op.Result := Program.perform (SiteOp.daemon op)

def owned (doc : ContainerInspect) : Except RequestError Unit :=
  if !isInstanceID doc.name || !isRuntimeID doc.id ||
      valueOf doc.labels managedLabel != "true" ||
      valueOf doc.labels workspaceLabel != "default" ||
      valueOf doc.labels instanceLabel != doc.name ||
      valueOf doc.annotations instanceLabel != doc.name then
    .error (plainError
      ("refusing foreign Podman container " ++ Text.quote doc.name))
  else .ok ()

def inspectOwned (id : RuntimeID) :
    Agent (Except RequestError ContainerInspect) := do
  if !isRuntimeID id then return .error (plainError "invalid runtime ID")
  else
    match ← send (.inspectContainer id) with
    | .error error => return .error error
    | .ok doc =>
        match owned doc with
        | .error error => return .error error
        | .ok _ =>
            if doc.id ≠ id then
              return .error (plainError "runtime identity changed")
            else return .ok doc

def ensureImage (reference : String) : Agent (Except RequestError Unit) := do
  if reference ≠ image then
    return .error (plainError
      ("unsupported M1 image " ++ Text.quote reference))
  else
    match ← send (.imageExists reference) with
    | .error error =>
        return .error { error with
          text := "development AMI must be built and imported locally: " ++
            error.text }
    | .ok _ => return .ok ()

def discover (name : String) : Agent (Except RequestError RuntimeID) := do
  match ← send (.inspectContainer name) with
  | .error error => return .error error
  | .ok doc =>
      match owned doc with
      | .error error => return .error error
      | .ok _ =>
          if doc.name ≠ name then
            return .error (plainError "foreign container name collision")
          else return .ok doc.id

def containerSpec (inst : Instance) : ContainerSpec where
  name := inst.id
  image := image
  labels := [(managedLabel, "true"), (instanceLabel, inst.id),
    (workspaceLabel, "default")]
  annotations := [(instanceLabel, inst.id)]

/-- The part of `Create` for a container that was not there. -/
def createNew (inst : Instance) : Agent (Except RequestError RuntimeID) := do
  match ← send (.createContainer (containerSpec inst)) with
  | .error error =>
      if error.isStatus 409 then discover inst.id
      else return .error error
  | .ok id =>
      if !isRuntimeID id then
        return .error (plainError "podman returned an invalid container ID")
      else return .ok id

def create (inst : Instance) : Agent (Except RequestError RuntimeID) := do
  if !isInstanceID inst.id || inst.workspaceID != "default" ||
      inst.instanceType != "t3.micro" then
    return .error (plainError "invalid M1 instance runtime request")
  else
    match ← discover inst.id with
    | .ok id => return .ok id
    | .error error =>
        if !error.isStatus 404 then return .error error
        else createNew inst

def start (id : RuntimeID) : Agent (Except RequestError Unit) := do
  match ← inspectOwned id with
  | .error error => return .error error
  | .ok _ => send (.startContainer id)

def delete (id : RuntimeID) : Agent (Except RequestError Unit) := do
  match ← inspectOwned id with
  | .error error =>
      if error.isStatus 404 then return .ok () else return .error error
  | .ok _ =>
      match ← send (.removeContainer id) with
      | .error error =>
          if error.isStatus 404 then return .ok () else return .error error
      | .ok _ => return .ok ()

def inspect (id : RuntimeID) : Agent (Except RequestError Bool) := do
  match ← inspectOwned id with
  | .error error => return .error error
  | .ok doc => return .ok doc.running

/-- `validateExec`: the text of the error. -/
def validateExec (request : Console.ExecRequest) : Option String :=
  if request.command.head?.getD [] = [] then
    some "exec requires a nonempty command"
  else if request.command.any fun arg => arg.contains 0 then
    some "exec arguments cannot contain NUL"
  else if request.tty ∧ (request.rows = 0 ∨ request.cols = 0) then
    some "TTY requires nonzero dimensions"
  else if ¬ request.tty ∧ (request.rows ≠ 0 ∨ request.cols ≠ 0) then
    some "non-TTY exec cannot have dimensions"
  else none

/-- `Exec` up to the identity of the session. -/
def exec (id : RuntimeID) (request : Console.ExecRequest) :
    Agent (Except RequestError String) := do
  match validateExec request with
  | some text => return .error (plainError text)
  | none =>
      match ← inspectOwned id with
      | .error error => return .error error
      | .ok doc =>
          if !doc.running then
            return .error (plainError "instance is not running")
          else
            match ← send (.createExec id request) with
            | .error error => return .error error
            | .ok session =>
                if session = "" ∨ session.toList.any
                    (fun char => char ∈ ['/', '?', '#', '\x00']) then
                  return .error (plainError "invalid exec session ID")
                else return .ok session

/-- The error of a call as its caller sees it. -/
def texts {α : Type} (program : Agent (Except RequestError α)) :
    Agent (Except String α) := do
  match ← program with
  | .error error => return .error error.text
  | .ok value => return .ok value

/-- How the daemon's calls are carried out: those of the runtime by the
client. -/
def carryOut : (op : Op) → Agent op.Result
  | .act (.ensureImage _) | .act (.create _) | .act (.start _)
  | .act (.delete _) | .act (.inspect _) => return ()
  | .answer (.ensureImage reference) => texts (ensureImage reference)
  | .answer (.create inst) => texts (create inst)
  | .answer (.start id) => texts (start id)
  | .answer (.delete id) => texts (delete id)
  | .answer (.inspect id) => texts (inspect id)
  | op => ask op

end Podman

/-- `consoleReady`. -/
def Instance.consoleReady (inst : Instance) : Bool :=
  !inst.deletionRequested && inst.state == .running &&
    inst.observedGeneration == inst.generation && inst.runtimeID != ""

namespace Podman

/-- The calls of `GetInstanceConsole`: a look at the instance before the
connection is accepted, another after the start has been read, and the
command. -/
def openConsole (id : ID) (request : Console.ExecRequest) :
    Agent (Except String String) := do
  match ← ask (.getInstance id) with
  | .error failure => return .error failure.text
  | .ok inst =>
      if !inst.consoleReady then return .error "instance is not running"
      else
        match ← ask (.getInstance id) with
        | .error _ => return .error "instance is no longer running"
        | .ok inst =>
            if !inst.consoleReady then
              return .error "instance is no longer running"
            else texts (exec inst.runtimeID request)

end Podman

end Nephos
