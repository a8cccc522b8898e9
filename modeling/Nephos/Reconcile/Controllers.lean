import Nephos.Reconcile.Calls

/-!
# The reconcilers and the hook

The two controllers and the handler of the hook as programs over the calls
of the daemon.  Where the source returns early, the rest of the function is a
definition of its own.
-/

namespace Nephos

open Effects

abbrev Call (α : Type) := Program Op Op.Result α

/-- A reconcile pass, whose error stops the controller. -/
abbrev Pass := Call (Except Failure Unit)

def invoke (op : Op) : Call op.Result := Program.perform op

/-- A call to the runtime or to the engine. -/
def external (call : External) : Call (Except String call.Value) := do
  invoke (.act call)
  invoke (.answer call)

def Failure.text : Failure → String
  | .service error =>
      if error.resourceID ≠ "" then
        error.code ++ ": " ++ error.message ++ " (" ++ error.resourceID ++ ")"
      else error.code ++ ": " ++ error.message
  | .noRows => "sql: no rows in result set"
  | .staleSnapshot => 
      "desired resource snapshot changed during reconciliation"
  | .constraint _ => "constraint failed"
  | .other message => message

/-- The failure at the end of a longer text. -/
def Failure.wrap (failure : Failure) (context : String) : Failure :=
  .other (context ++ ": " ++ failure.text)

def contextCanceled : Failure := .other "context canceled"

namespace InstanceController

/-- Record a failure and retry with a delay. -/
def fail (inst : Instance) (cause : String) : Pass := do
  if ← invoke .contextErr then return .error contextCanceled
  else
    match ← invoke (.recordInstance inst .failed cause false) with
    | .error .staleSnapshot =>
        invoke (.enqueue .inst inst.id)
        return .ok ()
    | .error failure =>
        return .error (failure.wrap
          ("persist instance " ++ inst.id ++ " failure"))
    | .ok _ =>
        invoke (.retry .inst inst.id)
        return .ok ()

/-- The two reads of `instanceNetwork.Ready`. -/
def prerequisites (inst : Instance) : Call (Except Failure Bool) := do
  match ← invoke (.getSubnet inst.workspaceID inst.subnetID) with
  | .error failure => return .error failure
  | .ok subnet =>
      match ← invoke (.getVPC inst.workspaceID subnet.vpcID) with
      | .error failure => return .error failure
      | .ok vpc =>
          return .ok (!subnet.deletionRequested && !vpc.deletionRequested &&
            subnet.state == .available && vpc.state == .available &&
            subnet.observedGeneration == subnet.generation &&
            vpc.observedGeneration == vpc.generation)

/-- `InstanceNetwork.Ready`, which may fail whatever its reads would give. -/
def ready (inst : Instance) : Call (Except Failure Bool) := do
  match ← external (.ready inst) with
  | .error cause => return .error (.other cause)
  | .ok _ => prerequisites inst

/-- Delete a container whose identity could not be recorded. -/
def discard (inst : Instance) (runtimeID : RuntimeID)
    (recordErr : Failure) : Pass := do
  match ← external (.delete runtimeID) with
  | .error cause =>
      return .error (.other ("record runtime " ++ inst.id ++ ": " ++
        recordErr.text ++ "; cleanup failed: " ++ cause))
  | .ok _ =>
      invoke (.enqueue .inst inst.id)
      return .ok ()

def createdDuringStateChange (inst : Instance) (runtimeID : RuntimeID)
    (recordErr : Failure) : Pass := do
  if recordErr = .staleSnapshot then
    match ← invoke (.retainTerminatingRuntimeID inst.id runtimeID) with
    | .ok _ =>
        match ← external (.delete runtimeID) with
        | .error cause =>
            match ← invoke (.getInstance inst.id) with
            | .error failure =>
                return .error (.other ("cleanup raced runtime " ++ inst.id ++
                  ": " ++ cause ++ " (load: " ++ failure.text ++ ")"))
            | .ok current => fail current cause
        | .ok _ =>
            invoke (.enqueue .inst inst.id)
            return .ok ()
    | .error _ => discard inst runtimeID recordErr
  else discard inst runtimeID recordErr

/-- The part of `terminate` after the container is gone. -/
def releaseENI (inst : Instance) : Pass := do
  match ← invoke (.getSubnet inst.workspaceID inst.subnetID) with
  | .error failure => fail inst failure.text
  | .ok subnet =>
      match ← invoke (.getVPC inst.workspaceID subnet.vpcID) with
      | .error failure => fail inst failure.text
      | .ok vpc =>
          match ← external (.deleteENI vpc inst.eni) with
          | .error cause => fail inst cause
          | .ok _ =>
              match ← invoke (.finishInstanceTermination inst) with
              | .error .staleSnapshot =>
                  invoke (.enqueue .inst inst.id)
                  return .ok ()
              | .error failure => return .error failure
              | .ok _ =>
                  invoke (.clearRetry .inst inst.id)
                  return .ok ()

def terminate (inst : Instance) : Pass := do
  if inst.runtimeID ≠ "" then
    match ← external (.delete inst.runtimeID) with
    | .error cause => fail inst cause
    | .ok _ => releaseENI inst
  else releaseENI inst

def notRunning : String :=
  "runtime did not report a running instance after start"

/-- The part of `reconcileLocked` after the identity is recorded. -/
def start (id : ID) (runtimeID : RuntimeID) : Pass := do
  match ← invoke (.getInstance id) with
  | .error failure =>
      return .error (failure.wrap ("reload instance " ++ id ++ " after create"))
  | .ok inst =>
      if inst.deletionRequested then
        invoke (.enqueue .inst id)
        return .ok ()
      else
        match ← external (.start runtimeID) with
        | .error cause => fail inst cause
        | .ok _ =>
            match ← external (.inspect runtimeID) with
            | .error cause => fail inst cause
            | .ok false => fail inst notRunning
            | .ok true =>
                match ← invoke (.recordInstance inst .running "" true) with
                | .error .staleSnapshot =>
                    invoke (.enqueue .inst id)
                    return .ok ()
                | .error failure => return .error failure
                | .ok _ =>
                    invoke (.clearRetry .inst id)
                    return .ok ()

/-- The part of `reconcileLocked` for an instance that is not running. -/
def launch (inst : Instance) : Pass := do
  match ← external (.ensureImage "nephos-ubuntu:dev") with
  | .error cause => fail inst cause
  | .ok _ =>
      match ← external (.create inst) with
      | .error cause => fail inst cause
      | .ok runtimeID =>
          match ← invoke (.recordRuntimeID inst.id inst.generation
              runtimeID) with
          | .error failure => createdDuringStateChange inst runtimeID failure
          | .ok _ => start inst.id runtimeID

/-- The part of `reconcileLocked` for an instance without a deletion
request. -/
def converge (id : ID) (inst : Instance) : Pass := do
  match ← ready inst with
  | .error failure => fail inst failure.text
  | .ok false => return .ok ()
  | .ok true =>
      if inst.state = .running ∧ inst.observedGeneration = inst.generation ∧
          inst.runtimeID ≠ "" then
        match ← external (.inspect inst.runtimeID) with
        | .ok true =>
            invoke (.clearRetry .inst id)
            return .ok ()
        | .error cause => fail inst cause
        | .ok false => launch inst
      else launch inst

def reconcileLocked (id : ID) : Pass := do
  match ← invoke (.getInstance id) with
  | .error .noRows =>
      invoke (.clearRetry .inst id)
      return .ok ()
  | .error failure => return .error (failure.wrap ("load instance " ++ id))
  | .ok inst =>
      if inst.deletionRequested then terminate inst else converge id inst

def reconcilePage : List Instance → Pass
  | [] => return .ok ()
  | inst :: page => do
      match ← reconcileLocked inst.id with
      | .error failure => return .error failure
      | .ok _ => reconcilePage page

/-- A sweep of at most `pages` pages, as if its context ended then. -/
def sweep : Nat → ID → Pass
  | 0, _ => return .error contextCanceled
  | pages + 1, afterID => do
      match ← invoke (.listInstancePage afterID) with
      | .error failure => return .error (failure.wrap "list desired instances")
      | .ok [] => return .ok ()
      | .ok (first :: rest) =>
          match ← reconcilePage (first :: rest) with
          | .error failure => return .error failure
          | .ok _ => sweep pages ((first :: rest).getLast (by simp)).id

end InstanceController

namespace VPCController

/-- Record what the engine did. -/
def record (vpc : VPC) (subnets : List Subnet) (effectErr : Option String) :
    Pass := do
  if ← invoke .contextErr then return .error contextCanceled
  else
    match ← invoke (.recordTopology vpc subnets effectErr) with
    | .error .staleSnapshot =>
        invoke (.enqueue .vpc vpc.id)
        return .ok ()
    | .error failure =>
        return .error (failure.wrap
          ("persist VPC " ++ vpc.id ++ " reconciliation"))
    | .ok _ =>
        if effectErr.isSome then invoke (.retry .vpc vpc.id)
        else invoke (.clearRetry .vpc vpc.id)
        return .ok ()

def effectError (result : Except String Unit) : Option String :=
  match result with
  | .error cause => some cause
  | .ok _ => none

def reconcileLocked (id : ID) : Pass := do
  match ← invoke (.getVPC defaultWorkspace id) with
  | .error .noRows =>
      invoke (.clearRetry .vpc id)
      return .ok ()
  | .error failure => return .error (failure.wrap ("load VPC " ++ id))
  | .ok vpc =>
      match ← invoke (.listSubnetsByVPC id) with
      | .error failure => return .error failure
      | .ok subnets =>
          if vpc.deletionRequested then
            if subnets ≠ [] then
              return .error (.other ("deleting VPC " ++ id ++ " still has " ++
                toString subnets.length ++ " subnets"))
            else
              let result ← external (.deleteVPC vpc.id vpc.shortIndex)
              record vpc subnets (effectError result)
          else
            let active := subnets.filter fun subnet =>
              !subnet.deletionRequested
            let result ← external (.ensureVPC vpc active)
            record vpc subnets (effectError result)

/-- The namespace that a sweep keeps for a VPC. -/
def sweepName (vpc : VPC) : Except Failure String :=
  (netnsName vpc.shortIndex).mapError fun failure =>
    .other ("VPC " ++ vpc.id ++ " namespace name: " ++ failure.text)

/-- The pages of a sweep, with the names and the VPCs read so far. -/
def readPages : Nat → ID → List String → List VPC →
    Call (Except Failure (List String × List VPC))
  | 0, _, _, _ => return .error contextCanceled
  | pages + 1, afterID, wanted, vpcs => do
      match ← invoke (.listVPCPage afterID) with
      | .error failure => return .error failure
      | .ok [] => return .ok (wanted, vpcs)
      | .ok (first :: rest) =>
          match (first :: rest).mapM sweepName with
          | .error failure => return .error failure
          | .ok names =>
              readPages pages ((first :: rest).getLast (by simp)).id
                (wanted ++ names) (vpcs ++ first :: rest)

/-- Delete the owned namespaces that no VPC wants. -/
def removeOrphans (wanted : List String) : List String → Pass
  | [] => return .ok ()
  | name :: names =>
      if name ∈ wanted then removeOrphans wanted names
      else
        match ownedIndex name with
        | none => removeOrphans wanted names
        | some index => do
            match ← external (.deleteVPC name index) with
            | .error cause =>
                return .error (.other ("remove orphan VPC namespace " ++
                  name ++ ": " ++ cause))
            | .ok _ => removeOrphans wanted names

def reconcileAll : List VPC → Pass
  | [] => return .ok ()
  | vpc :: vpcs => do
      match ← reconcileLocked vpc.id with
      | .error failure => return .error failure
      | .ok _ => reconcileAll vpcs

def sweep (pages : Nat) : Pass := do
  match ← readPages pages "" [] [] with
  | .error failure => return .error failure
  | .ok (wanted, vpcs) =>
      match ← external .listVPCNames with
      | .error cause =>
          return .error (.other ("list VPC namespace orphans: " ++ cause))
      | .ok names =>
          match ← removeOrphans wanted names with
          | .error failure => return .error failure
          | .ok _ => reconcileAll vpcs

end VPCController

/-- A request of the hook for the namespace of a container. -/
structure PlumbRequest where
  instanceID : ID
  containerID : RuntimeID
  pid : Nat

/-- `NewHandler`: the status of the response to a plumbing request. -/
def plumb (request : PlumbRequest) : Call Nat := do
  match ← invoke (.loadPlumbing request.instanceID request.containerID) with
  | .error _ => return 409
  | .ok (inst, subnet, vpc) =>
      match ← external (.openInstance request.pid request.containerID) with
      | .error _ => return 403
      | .ok _ =>
          match ← external (.ensureENI vpc subnet inst.eni) with
          | .error _ => return 500
          | .ok _ =>
              match ← invoke (.getInstance inst.id) with
              | .error _ => return 409
              | .ok current =>
                  if current.generation ≠ inst.generation ∨
                      current.deletionRequested ∨
                      current.runtimeID ≠ request.containerID then
                    return 409
                  else return 204

end Nephos
