import Nephos.Store.Queries

/-!
# Store operations

The guarded writes of the two reconcilers and the insertion of an instance.
A body of type `Tx` is the closure the source hands to `WithTx`; the two
runtime identity updates are single statements outside any transaction.
-/

namespace Nephos

open Transaction

/-- `Store.WithTx`. -/
def Store.withTx {α : Type} (body : Tx α) (store : Store) :
    Except Failure α × Store :=
  commit body store

def insertInstanceWithENI (inst : Instance) (eni : ENI) : Tx Unit := do
  if eni.instanceID ≠ inst.id ∨ eni.subnetID ≠ inst.subnetID ∨
      eni.workspaceID ≠ inst.workspaceID then
    throw (.other ("insert instance " ++ inst.id
      ++ ": primary ENI identity mismatch"))
  if ¬ eni.privateIP.is4 then
    throw (.other ("insert ENI " ++ eni.id ++ ": invalid IPv4 address"))
  match validENIMAC eni.macAddress with
  | .error failure => throw failure
  | .ok _ =>
      insertInstance
        { id := inst.id, workspaceID := inst.workspaceID
          subnetID := inst.subnetID, shortIndex := inst.shortIndex
          name := inst.name, state := .pending, stateReason := ""
          generation := 1, observedGeneration := 0
          deletionRequested := false, runtimeID := none }
      insertENI eni

namespace Store

/-- Bind a created container to the unchanged, live generation.  A repeated
identity is accepted; another one never replaces it. -/
def recordRuntimeID (instanceID : ID) (generation : Int)
    (runtimeID : RuntimeID) (store : Store) : Except Failure Unit × Store :=
  if runtimeID = "" then
    (.error (.other ("record instance " ++ instanceID
      ++ " runtime: empty ID")), store)
  else
    let chosen (row : InstanceRow) : Prop :=
      row.id = instanceID ∧ row.generation = generation ∧
        row.deletionRequested = false ∧
        (row.runtimeID = none ∨ row.runtimeID = some runtimeID)
    let count := (store.instances.filter fun row => chosen row).length
    (if count = 1 then .ok () else .error .staleSnapshot,
      { store with
        instances := update chosen
          (fun row => { row with runtimeID := some runtimeID })
          store.instances })

/-- Keep the identity of a container that lost a race with termination. -/
def retainTerminatingRuntimeID (instanceID : ID) (runtimeID : RuntimeID)
    (store : Store) : Except Failure Unit × Store :=
  if runtimeID = "" then
    (.error (.other "cannot retain an empty runtime ID"), store)
  else
    let chosen (row : InstanceRow) : Prop :=
      row.id = instanceID ∧ row.deletionRequested = true ∧
        row.runtimeID = none
    let count := (store.instances.filter fun row => chosen row).length
    (if count = 1 then .ok () else .error .staleSnapshot,
      { store with
        instances := update chosen
          (fun row => { row with runtimeID := some runtimeID })
          store.instances })

end Store

def sameInstanceDecision (current snapshot : Instance) : Prop :=
  current.id = snapshot.id ∧ current.workspaceID = snapshot.workspaceID ∧
    current.generation = snapshot.generation ∧
    current.deletionRequested = snapshot.deletionRequested ∧
    current.subnetID = snapshot.subnetID ∧
    current.shortIndex = snapshot.shortIndex ∧
    current.runtimeID = snapshot.runtimeID ∧
    current.eni.id = snapshot.eni.id ∧
    current.eni.shortIndex = snapshot.eni.shortIndex ∧
    current.eni.privateIP = snapshot.eni.privateIP

instance (current snapshot : Instance) :
    Decidable (sameInstanceDecision current snapshot) :=
  inferInstanceAs (Decidable (_ ∧ _))

/-- The current instance, or a stale snapshot when it is gone. -/
def currentInstance (snapshot : Instance) : Tx Instance := do
  match (← get).getInstance snapshot.workspaceID snapshot.id with
  | .error .noRows => throw .staleSnapshot
  | .error failure => throw failure
  | .ok current => return current

/-- Commit a generation-checked lifecycle status and its event. -/
def recordInstance (snapshot : Instance) (status : InstanceState)
    (reason : String) (observed : Bool) (now : Time) : Tx Unit := do
  if status ≠ .running ∧ status ≠ .failed then
    throw (.other "invalid reconciled instance status")
  if observed ∧ (status ≠ .running ∨ snapshot.runtimeID = "" ∨
      snapshot.deletionRequested) then
    throw (.other ("cannot observe instance " ++ snapshot.id))
  let current ← currentInstance snapshot
  if ¬ sameInstanceDecision current snapshot then throw .staleSnapshot
  let generation :=
    if observed then current.generation else current.observedGeneration
  if current.state = status ∧ current.stateReason = reason ∧
      current.observedGeneration = generation then
    return ()
  updateInstanceStatus current.id current.workspaceID status reason generation
  if ¬ current.deletionRequested then
    updateInstanceENIStatus current.eni.id current.workspaceID
      (if observed then .available else .failed) reason
      (if observed then current.eni.generation
        else current.eni.observedGeneration)
  appendEvent
    { id := 0, workspaceID := current.workspaceID, resourceType := .inst
      resourceID := current.id, action := .status, state := status.text
      generation := current.generation, message := reason
      createdAt := now.unix }

/-- Release the lease and the row after the teardown of runtime and link. -/
def finishInstanceTermination (snapshot : Instance) (now : Time) :
    Tx Unit := do
  let current ← currentInstance snapshot
  if ¬ sameInstanceDecision current snapshot ∨
      ¬ current.deletionRequested then
    throw .staleSnapshot
  deleteInstanceENI current.eni.id current.workspaceID
  deleteInstanceRow current.id current.workspaceID
  appendEvent
    { id := 0, workspaceID := current.workspaceID, resourceType := .inst
      resourceID := current.id, action := .deleted, state := .deleted
      generation := current.generation, message := ""
      createdAt := now.unix }

/-- The positional comparison of two ID-ordered child lists. -/
def sameDesiredChildren : List Subnet → List Subnet → Prop
  | [], [] => True
  | current :: currents, applied :: others =>
      (current.id = applied.id ∧ current.generation = applied.generation ∧
        current.deletionRequested = applied.deletionRequested ∧
        current.shortIndex = applied.shortIndex) ∧
      sameDesiredChildren currents others
  | _, _ => False

instance decidableSameDesiredChildren :
    (current applied : List Subnet) →
      Decidable (sameDesiredChildren current applied)
  | [], [] => .isTrue trivial
  | [], _ :: _ => .isFalse id
  | _ :: _, [] => .isFalse id
  | _ :: currents, _ :: others =>
      have := decidableSameDesiredChildren currents others
      inferInstanceAs (Decidable (_ ∧ _))

def recordVPCStatus (vpc : VPC) (state : State) (reason : String)
    (observed : Bool) (now : Time) : Tx Unit := do
  let generation := if observed then vpc.generation else vpc.observedGeneration
  if vpc.state = state ∧ vpc.stateReason = reason ∧
      vpc.observedGeneration = generation then
    return ()
  updateVPCStatus vpc.id vpc.workspaceID state reason generation
  appendEvent
    { id := 0, workspaceID := vpc.workspaceID, resourceType := .vpc
      resourceID := vpc.id, action := .status, state := state.text
      generation := vpc.generation, message := reason, createdAt := now.unix }

def recordSubnetStatus (subnet : Subnet) (state : State) (reason : String)
    (observed : Bool) (now : Time) : Tx Unit := do
  let generation :=
    if observed then subnet.generation else subnet.observedGeneration
  if subnet.state = state ∧ subnet.stateReason = reason ∧
      subnet.observedGeneration = generation then
    return ()
  updateSubnetStatus subnet.id subnet.workspaceID state reason generation
  appendEvent
    { id := 0, workspaceID := subnet.workspaceID, resourceType := .subnet
      resourceID := subnet.id, action := .status, state := state.text
      generation := subnet.generation, message := reason
      createdAt := now.unix }

/-- One child of a recorded VPC: complete its deletion or note its state. -/
def recordChild (state : State) (reason : String) (succeeded : Bool)
    (now : Time) (child : Subnet) : Tx Unit := do
  if child.deletionRequested ∧ succeeded then
    deleteSubnetRow child.id child.workspaceID
    appendEvent
      { id := 0, workspaceID := child.workspaceID, resourceType := .subnet
        resourceID := child.id, action := .deleted, state := .deleted
        generation := child.generation, message := ""
        createdAt := now.unix }
  else recordSubnetStatus child state reason succeeded now

/-- Record the outcome of one engine operation, `none` for success. -/
def recordTopology (vpc : VPC) (subnets : List Subnet)
    (effectErr : Option String) (now : Time) : Tx Unit := do
  match (← get).getVPC vpc.workspaceID vpc.id with
  | .error .noRows => throw .staleSnapshot
  | .error failure => throw failure
  | .ok current =>
      if current.generation ≠ vpc.generation ∨
          current.deletionRequested ≠ vpc.deletionRequested ∨
          current.shortIndex ≠ vpc.shortIndex then
        throw .staleSnapshot
      match (← get).listSubnetsByVPC vpc.id with
      | .error failure => throw failure
      | .ok children =>
          if ¬ sameDesiredChildren children subnets then throw .staleSnapshot
          if vpc.deletionRequested ∧ effectErr = none then
            if children ≠ [] then
              throw (.other ("cannot delete VPC " ++ vpc.id
                ++ " with subnets"))
            deleteVPCRow vpc.id vpc.workspaceID
            appendEvent
              { id := 0, workspaceID := vpc.workspaceID, resourceType := .vpc
                resourceID := vpc.id, action := .deleted, state := .deleted
                generation := vpc.generation, message := ""
                createdAt := now.unix }
          else
            let state := if effectErr = none then State.available else .failed
            let reason := effectErr.getD ""
            recordVPCStatus current state reason effectErr.isNone now
            each (recordChild state reason effectErr.isNone now) children

end Nephos
