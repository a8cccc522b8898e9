import Nephos.Library.Transition
import Nephos.Service.Addressing
import Nephos.Service.Instances

/-!
# Edits

What a transaction can do to the database, without how it decides to.  An
`Edit` changes at most one resource and logs at most one event; every
committed transaction is a sequence of edits on different resources (the
refinement is proved in `Nephos.Writes`).  The guards of `Edit.Allowed` are
what the code has established when it makes the edit, so that an invariant
of the database has to be checked once for each kind of edit.
-/

namespace Nephos

open Transaction

structure Resource where
  kind : ResourceKind
  id : ID
deriving DecidableEq, Repr

/-- One change of the database, with the rows it is about as they were
before it.  The last argument of a logged edit is its timestamp. -/
inductive Edit where
  | createVPC (row : VPC) (time : Int)
  | markVPC (row : VPC) (time : Int)
  | vpcStatus (row : VPC) (state : State) (reason : String)
      (succeeded : Bool) (time : Int)
  | removeVPC (row : VPC) (time : Int)
  | createSubnet (row : Subnet) (time : Int)
  | markSubnet (row : Subnet) (time : Int)
  | subnetStatus (row : Subnet) (state : State) (reason : String)
      (succeeded : Bool) (time : Int)
  | removeSubnet (row : Subnet) (time : Int)
  | createInstance (row : InstanceRow) (eni : ENI) (time : Int)
  | markInstance (row : InstanceRow) (time : Int)
  | instanceStatus (row : InstanceRow) (eni : ENI) (status : InstanceState)
      (reason : String) (observed : Bool) (time : Int)
  | removeInstance (row : InstanceRow) (eni : ENI) (time : Int)
  | setRuntimeID (row : InstanceRow) (runtimeID : RuntimeID)
  | saveReplay (record : Idempotency)
deriving DecidableEq, Repr

/-- The primary key of the `idempotency` table. -/
def Idempotency.slot (record : Idempotency) : ID × Operation × String :=
  (record.workspaceID, record.operation, record.key)

namespace Store

def withIndex (store : Store) (kind : ResourceKind) (resourceID : ID) :
    Store :=
  { store with
    kernelIndexes := store.kernelIndexes ++
      [{ id := store.indexSequence + 1, kind, resourceID }]
    indexSequence := store.indexSequence + 1 }

def withEvent (store : Store) (event : Event) : Store :=
  { store with
    events := store.events ++ [{ event with id := store.eventSequence + 1 }]
    eventSequence := store.eventSequence + 1 }

/-- Log an event of the default workspace. -/
def log (store : Store) (kind : ResourceKind) (id : ID) (action : Action)
    (state : EventState) (generation : Int) (message : String)
    (time : Int) : Store :=
  store.withEvent
    { id := 0, workspaceID := defaultWorkspace, resourceType := kind
      resourceID := id, action, state, generation, message
      createdAt := time }

@[simp] theorem log_subnets (store : Store) (kind : ResourceKind) (id : ID)
    (action : Action) (state : EventState) (generation : Int)
    (message : String) (time : Int) :
    (store.log kind id action state generation message time).subnets =
      store.subnets := rfl

end Store

def VPC.marked (row : VPC) : VPC :=
  { row with
    state := .deleting, stateReason := "", deletionRequested := true
    generation := row.generation + 1 }

def VPC.withStatus (row : VPC) (state : State) (reason : String)
    (succeeded : Bool) : VPC :=
  { row with
    state, stateReason := reason
    observedGeneration :=
      if succeeded then row.generation else row.observedGeneration }

def Subnet.marked (row : Subnet) : Subnet :=
  { row with
    state := .deleting, stateReason := "", deletionRequested := true
    generation := row.generation + 1 }

def Subnet.withStatus (row : Subnet) (state : State) (reason : String)
    (succeeded : Bool) : Subnet :=
  { row with
    state, stateReason := reason
    observedGeneration :=
      if succeeded then row.generation else row.observedGeneration }

def InstanceRow.marked (row : InstanceRow) : InstanceRow :=
  { row with
    state := .shuttingDown, stateReason := "", deletionRequested := true
    generation := row.generation + 1 }

def InstanceRow.withStatus (row : InstanceRow) (state : InstanceState)
    (reason : String) (observed : Bool) : InstanceRow :=
  { row with
    state, stateReason := reason
    observedGeneration :=
      if observed then row.generation else row.observedGeneration }

/-- The interface after a status of its instance, which leaves it alone once
the instance is being terminated. -/
def ENI.withStatus (row : ENI) (terminating : Bool) (reason : String)
    (observed : Bool) : ENI :=
  if terminating then row else
    { row with
      state := if observed then .available else .failed, stateReason := reason
      observedGeneration :=
        if observed then row.generation else row.observedGeneration }

section Status

variable (row : ENI) (terminating : Bool) (reason : String) (observed : Bool)

theorem ENI.withStatus_terminating (isTerminating : terminating = true) :
    row.withStatus terminating reason observed = row := by
  rw [ENI.withStatus, if_pos isTerminating]

theorem ENI.withStatus_live (live : terminating = false) :
    row.withStatus terminating reason observed =
      { row with
        state := if observed then .available else .failed
        stateReason := reason
        observedGeneration :=
          if observed then row.generation else row.observedGeneration } := by
  rw [ENI.withStatus, if_neg (by simp [live])]

@[simp] theorem ENI.withStatus_id :
    (row.withStatus terminating reason observed).id = row.id := by
  cases terminating <;> rfl

@[simp] theorem ENI.withStatus_workspaceID :
    (row.withStatus terminating reason observed).workspaceID =
      row.workspaceID := by
  cases terminating <;> rfl

@[simp] theorem ENI.withStatus_instanceID :
    (row.withStatus terminating reason observed).instanceID =
      row.instanceID := by
  cases terminating <;> rfl

@[simp] theorem ENI.withStatus_subnetID :
    (row.withStatus terminating reason observed).subnetID =
      row.subnetID := by
  cases terminating <;> rfl

@[simp] theorem ENI.withStatus_shortIndex :
    (row.withStatus terminating reason observed).shortIndex =
      row.shortIndex := by
  cases terminating <;> rfl

@[simp] theorem ENI.withStatus_privateIP :
    (row.withStatus terminating reason observed).privateIP =
      row.privateIP := by
  cases terminating <;> rfl

@[simp] theorem ENI.withStatus_macAddress :
    (row.withStatus terminating reason observed).macAddress =
      row.macAddress := by
  cases terminating <;> rfl

end Status

namespace Edit

/-- The resource an edit is about, if it shows. -/
def touched : Edit → Option Resource
  | .createVPC row _ | .markVPC row _ | .vpcStatus row _ _ _ _
  | .removeVPC row _ => some ⟨.vpc, row.id⟩
  | .createSubnet row _ | .markSubnet row _ | .subnetStatus row _ _ _ _
  | .removeSubnet row _ => some ⟨.subnet, row.id⟩
  | .createInstance row _ _ | .markInstance row _
  | .instanceStatus row _ _ _ _ _
  | .removeInstance row _ _ => some ⟨.inst, row.id⟩
  | .setRuntimeID _ _ => none
  | .saveReplay _ => none

def apply (store : Store) : Edit → Store
  | .createVPC row time =>
      { store.withIndex .vpc row.id with vpcs := store.vpcs ++ [row] }.log
        .vpc row.id .created .pending 1 "" time
  | .markVPC row time =>
      { store with vpcs := replace VPC.id row.marked store.vpcs }.log
        .vpc row.id .deleting .deleting (row.generation + 1) "" time
  | .vpcStatus row state reason succeeded time =>
      { store with
        vpcs := replace VPC.id (row.withStatus state reason succeeded)
          store.vpcs }.log
        .vpc row.id .status state.text row.generation reason time
  | .removeVPC row time =>
      { store with vpcs := remove VPC.id row.id store.vpcs }.log
        .vpc row.id .deleted .deleted row.generation "" time
  | .createSubnet row time =>
      { store.withIndex .subnet row.id with
        subnets := store.subnets ++ [row] }.log
        .subnet row.id .created .pending 1 "" time
  | .markSubnet row time =>
      { store with
        subnets := replace Subnet.id row.marked store.subnets }.log
        .subnet row.id .deleting .deleting (row.generation + 1) "" time
  | .subnetStatus row state reason succeeded time =>
      { store with
        subnets := replace Subnet.id (row.withStatus state reason succeeded)
          store.subnets }.log
        .subnet row.id .status state.text row.generation reason time
  | .removeSubnet row time =>
      { store with subnets := remove Subnet.id row.id store.subnets }.log
        .subnet row.id .deleted .deleted row.generation "" time
  | .createInstance row eni time =>
      { (store.withIndex .inst row.id).withIndex .eni eni.id with
        instances := store.instances ++ [row]
        enis := store.enis ++ [eni] }.log
        .inst row.id .created .pending 1 "" time
  | .markInstance row time =>
      { store with
        instances := replace InstanceRow.id row.marked store.instances }.log
        .inst row.id .terminating .shuttingDown (row.generation + 1) ""
        time
  | .instanceStatus row eni status reason observed time =>
      { store with
        instances := replace InstanceRow.id
          (row.withStatus status reason observed) store.instances
        enis := replace ENI.id
          (eni.withStatus row.deletionRequested reason observed)
          store.enis }.log
        .inst row.id .status status.text row.generation reason time
  | .removeInstance row eni time =>
      { store with
        instances := remove InstanceRow.id row.id store.instances
        enis := remove ENI.id eni.id store.enis }.log
        .inst row.id .deleted .deleted row.generation "" time
  | .setRuntimeID row runtimeID =>
      { store with
        instances := replace InstanceRow.id
          { row with runtimeID := some runtimeID } store.instances }
  | .saveReplay record =>
      { store with
        idempotency := remove Idempotency.slot record.slot
          store.idempotency ++ [record] }

end Edit

/-- A row as its creation leaves it. -/
structure VPC.Fresh (row : VPC) : Prop where
  identified : row.id ≠ ""
  workspace : row.workspaceID = defaultWorkspace
  state : row.state = .pending
  reason : row.stateReason = ""
  live : row.deletionRequested = false
  generation : row.generation = 1
  observed : row.observedGeneration = 0

structure Subnet.Fresh (row : Subnet) : Prop where
  workspace : row.workspaceID = defaultWorkspace
  state : row.state = .pending
  reason : row.stateReason = ""
  live : row.deletionRequested = false
  generation : row.generation = 1
  observed : row.observedGeneration = 0

structure InstanceRow.Fresh (row : InstanceRow) : Prop where
  workspace : row.workspaceID = defaultWorkspace
  state : row.state = .pending
  reason : row.stateReason = ""
  live : row.deletionRequested = false
  generation : row.generation = 1
  observed : row.observedGeneration = 0
  runtimeID : row.runtimeID = none

structure ENI.Fresh (row : ENI) : Prop where
  workspace : row.workspaceID = defaultWorkspace
  state : row.state = .pending
  reason : row.stateReason = ""
  generation : row.generation = 1
  observed : row.observedGeneration = 0

/-- The identity was never given to any resource. -/
def Store.Unused (store : Store) (id : ID) : Prop :=
  ∀ index ∈ store.kernelIndexes, index.resourceID ≠ id

/-- A status that an engine result can put on a VPC or a subnet. -/
def EngineStatus (state : State) (reason : String)
    (succeeded requested : Bool) : Prop :=
  (succeeded = true ∧ state = .available ∧ reason = "" ∧
      requested = false) ∨
    (succeeded = false ∧ state = .failed)

/-- A status `RecordInstance` accepts for a row. -/
def RuntimeStatus (row : InstanceRow) (status : InstanceState)
    (observed : Bool) : Prop :=
  (status = .running ∨ status = .failed) ∧
    (observed = true → status = .running ∧ row.deletionRequested = false ∧
      ∃ runtimeID, row.runtimeID = some runtimeID ∧ runtimeID ≠ "")

/-- The address is the allocator's answer to a list that holds every lease of
the subnet. -/
def Leases (store : Store) (subnet : Subnet) (address : Addr) : Prop :=
  ∃ used, nextPrivateIP subnet.cidrBlock used = .ok address ∧
    ∀ eni ∈ store.enis, eni.subnetID = subnet.id → eni.privateIP ∈ used

inductive Edit.Allowed (store : Store) : Edit → Prop where
  | createVPC {row : VPC} {time : Int}
      (fresh : row.Fresh)
      (block : Admissible row.cidrBlock)
      (unused : store.Unused row.id)
      (index : row.shortIndex = store.indexSequence + 1) :
      Allowed store (.createVPC row time)
  | markVPC {row : VPC} {time : Int}
      (member : row ∈ store.vpcs)
      (live : row.deletionRequested = false)
      (childless : ∀ subnet ∈ store.subnets, subnet.vpcID ≠ row.id) :
      Allowed store (.markVPC row time)
  | vpcStatus {row : VPC} {state : State} {reason : String}
      {succeeded : Bool} {time : Int}
      (member : row ∈ store.vpcs)
      (changes : row.withStatus state reason succeeded ≠ row)
      (status : EngineStatus state reason succeeded row.deletionRequested) :
      Allowed store (.vpcStatus row state reason succeeded time)
  | removeVPC {row : VPC} {time : Int}
      (member : row ∈ store.vpcs)
      (requested : row.deletionRequested = true)
      (childless : ∀ subnet ∈ store.subnets, subnet.vpcID ≠ row.id) :
      Allowed store (.removeVPC row time)
  | createSubnet {row : Subnet} {vpc : VPC} {time : Int}
      (parent : vpc ∈ store.vpcs)
      (parentID : row.vpcID = vpc.id)
      (parentLive : vpc.deletionRequested = false)
      (fresh : row.Fresh)
      (block : Admissible row.cidrBlock)
      (range : validateSubnetRange vpc.cidrBlock row.cidrBlock = .ok ())
      (disjoint : ∀ sibling ∈ store.subnets, sibling.vpcID = row.vpcID →
        overlaps row.cidrBlock sibling.cidrBlock = false)
      (unused : store.Unused row.id)
      (index : row.shortIndex = store.indexSequence + 1) :
      Allowed store (.createSubnet row time)
  | markSubnet {row : Subnet} {time : Int}
      (member : row ∈ store.subnets)
      (live : row.deletionRequested = false)
      (childless : ∀ inst ∈ store.instances, inst.subnetID ≠ row.id) :
      Allowed store (.markSubnet row time)
  | subnetStatus {row : Subnet} {state : State} {reason : String}
      {succeeded : Bool} {time : Int}
      (member : row ∈ store.subnets)
      (changes : row.withStatus state reason succeeded ≠ row)
      (status : EngineStatus state reason succeeded row.deletionRequested) :
      Allowed store (.subnetStatus row state reason succeeded time)
  | removeSubnet {row : Subnet} {time : Int}
      (member : row ∈ store.subnets)
      (requested : row.deletionRequested = true) :
      Allowed store (.removeSubnet row time)
  | createInstance {row : InstanceRow} {eni : ENI} {subnet : Subnet}
      {time : Int}
      (parent : subnet ∈ store.subnets)
      (parentID : row.subnetID = subnet.id)
      (parentLive : subnet.deletionRequested = false)
      (fresh : row.Fresh)
      (eniFresh : eni.Fresh)
      (owner : eni.instanceID = row.id)
      (single : ∀ other ∈ store.enis, other.instanceID ≠ row.id)
      (eniSubnet : eni.subnetID = row.subnetID)
      (lease : Leases store subnet eni.privateIP)
      (is4 : eni.privateIP.is4 = true)
      (mac : ∃ bytes, validENIMAC eni.macAddress = .ok bytes)
      (unused : store.Unused row.id)
      (eniUnused : store.Unused eni.id)
      (distinct : row.id ≠ eni.id)
      (index : row.shortIndex = store.indexSequence + 1)
      (eniIndex : eni.shortIndex = store.indexSequence + 2) :
      Allowed store (.createInstance row eni time)
  | markInstance {row : InstanceRow} {time : Int}
      (member : row ∈ store.instances)
      (live : row.deletionRequested = false) :
      Allowed store (.markInstance row time)
  | instanceStatus {row : InstanceRow} {eni : ENI} {status : InstanceState}
      {reason : String} {observed : Bool} {time : Int}
      (member : row ∈ store.instances)
      (eniMember : eni ∈ store.enis)
      (owner : eni.instanceID = row.id)
      (changes : row.withStatus status reason observed ≠ row)
      (accepted : RuntimeStatus row status observed) :
      Allowed store (.instanceStatus row eni status reason observed time)
  | removeInstance {row : InstanceRow} {eni : ENI} {time : Int}
      (member : row ∈ store.instances)
      (eniMember : eni ∈ store.enis)
      (owner : eni.instanceID = row.id)
      (requested : row.deletionRequested = true) :
      Allowed store (.removeInstance row eni time)
  | setRuntimeID {row : InstanceRow} {runtimeID : RuntimeID}
      (member : row ∈ store.instances)
      (unset : row.runtimeID = none)
      (nonempty : runtimeID ≠ "") :
      Allowed store (.setRuntimeID row runtimeID)
  | saveReplay {record : Idempotency}
      (workspace : record.workspaceID = defaultWorkspace)
      (replaced : ∀ old ∈ store.idempotency, old.slot = record.slot →
        old.expiresAt ≤ record.createdAt) :
      Allowed store (.saveReplay record)

/-- The statuses the instance controller records: a running instance that it
has observed, or a failure. -/
def IssuedStatus (status : InstanceState) (reason : String)
    (observed : Bool) : Prop :=
  status = .running ∧ reason = "" ∧ observed = true ∨
    status = .failed ∧ observed = false

/-- An edit the controllers and the services make; the store alone would
accept more instance statuses. -/
def Edit.Issued : Edit → Prop
  | .instanceStatus _ _ status reason observed _ =>
      IssuedStatus status reason observed
  | _ => True

/-- An edit of a VPC or of one of its subnets that records what the engine
did. -/
def Edit.Records (vpcID : ID) : Edit → Prop
  | .vpcStatus row _ _ _ _ | .removeVPC row _ => row.id = vpcID
  | .subnetStatus row _ _ _ _ | .removeSubnet row _ => row.vpcID = vpcID
  | _ => False

/-- The databases and the edits between them. -/
def edits : Transition.System Store Edit where
  Initial store := store = .empty
  Step store edit final := edit.Allowed store ∧ final = edit.apply store

end Nephos
