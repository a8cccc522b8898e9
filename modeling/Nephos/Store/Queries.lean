import Nephos.Store.Schema

/-!
# Statements

The statements of `queries.sql` under their names, with the constraints of
the schema they can violate, and the row decoders of the store.  Reads are
functions of the database; writes are transactions.
-/

namespace Nephos

open Transaction

def vpcFromRow (row : VPC) : Except Failure VPC :=
  if row.cidrBlock.isValid ∧ row.cidrBlock.addr.is4 then .ok row
  else .error (.other ("VPC " ++ row.id ++ " has corrupt CIDR block "
    ++ Text.quote row.cidrBlock.text))

def subnetFromRow (row : Subnet) : Except Failure Subnet :=
  if row.cidrBlock.isValid ∧ row.cidrBlock.addr.is4 then .ok row
  else .error (.other ("subnet " ++ row.id ++ " has corrupt CIDR block "
    ++ Text.quote row.cidrBlock.text))

/-- A locally administered unicast address of six bytes. -/
def validENIMAC (raw : String) : Except Failure (List UInt8) :=
  match parseMAC raw with
  | none => .error (.other ("decode ENI MAC " ++ Text.quote raw))
  | some mac =>
      if mac.length = 6 ∧ (mac.headD 0) &&& 3 = 2 then .ok mac
      else .error (.other ("ENI MAC " ++ Text.quote raw
        ++ " must be locally administered unicast"))

/-- The snapshot of a row and its primary interface. -/
def InstanceRow.snapshot (row : InstanceRow) (eni : ENI) : Instance :=
  { id := row.id, workspaceID := row.workspaceID, subnetID := row.subnetID
    shortIndex := row.shortIndex, name := row.name
    instanceType := "t3.micro", state := row.state
    stateReason := row.stateReason, generation := row.generation
    observedGeneration := row.observedGeneration
    deletionRequested := row.deletionRequested
    runtimeID := row.runtimeID.getD "", eni }

namespace Store

def getPrimaryENI (store : Store) (instanceID workspaceID : ID) :
    Option ENI :=
  store.enis.find? fun row =>
    row.instanceID = instanceID ∧ row.workspaceID = workspaceID

def instanceFromRow (store : Store) (row : InstanceRow) :
    Except Failure Instance :=
  match store.getPrimaryENI row.id row.workspaceID with
  | none => .error .noRows
  | some eni =>
      if ¬ eni.privateIP.is4 then
        .error (.other ("decode ENI " ++ eni.id ++ ": not IPv4"))
      else match validENIMAC eni.macAddress with
        | .error failure => .error failure
        | .ok _ => .ok (row.snapshot eni)

def getVPC (store : Store) (workspaceID id : ID) : Except Failure VPC :=
  match store.vpcs.find? fun row =>
      row.id = id ∧ row.workspaceID = workspaceID with
  | none => .error .noRows
  | some row => vpcFromRow row

def getVPCByName (store : Store) (workspaceID : ID) (name : String) :
    Except Failure VPC :=
  match store.vpcs.find? fun row =>
      row.workspaceID = workspaceID ∧ row.name = name with
  | none => .error .noRows
  | some row => vpcFromRow row

def getSubnet (store : Store) (workspaceID id : ID) :
    Except Failure Subnet :=
  match store.subnets.find? fun row =>
      row.id = id ∧ row.workspaceID = workspaceID with
  | none => .error .noRows
  | some row => subnetFromRow row

def getSubnetByName (store : Store) (workspaceID : ID) (name : String) :
    Except Failure Subnet :=
  match store.subnets.find? fun row =>
      row.workspaceID = workspaceID ∧ row.name = name with
  | none => .error .noRows
  | some row => subnetFromRow row

def getInstance (store : Store) (workspaceID id : ID) :
    Except Failure Instance :=
  match store.instances.find? fun row =>
      row.id = id ∧ row.workspaceID = workspaceID with
  | none => .error .noRows
  | some row => store.instanceFromRow row

def getInstanceByName (store : Store) (workspaceID : ID) (name : String) :
    Except Failure Instance :=
  match store.instances.find? fun row =>
      row.workspaceID = workspaceID ∧ row.name = name with
  | none => .error .noRows
  | some row => store.instanceFromRow row

/-- The children of a VPC in ID order. -/
def listSubnetsByVPC (store : Store) (vpcID : ID) :
    Except Failure (List Subnet) :=
  (orderByID Subnet.id
    (store.subnets.filter fun row => row.vpcID = vpcID)).mapM subnetFromRow

def listVPCPage (store : Store) (workspaceID afterID : ID) (limit : Nat) :
    Except Failure (List VPC) :=
  ((orderByID VPC.id (store.vpcs.filter fun row =>
    row.workspaceID = workspaceID ∧ afterID < row.id)).take limit).mapM
      vpcFromRow

def listSubnetPage (store : Store) (workspaceID afterID : ID)
    (limit : Nat) : Except Failure (List Subnet) :=
  ((orderByID Subnet.id (store.subnets.filter fun row =>
    row.workspaceID = workspaceID ∧ afterID < row.id)).take limit).mapM
      subnetFromRow

def listInstancePage (store : Store) (workspaceID afterID : ID)
    (limit : Nat) : Except Failure (List Instance) :=
  ((orderByID InstanceRow.id (store.instances.filter fun row =>
    row.workspaceID = workspaceID ∧ afterID < row.id)).take limit).mapM
      store.instanceFromRow

def countInstancesInSubnet (store : Store) (subnetID : ID) : Nat :=
  (store.instances.filter fun row => row.subnetID = subnetID).length

def eniAddress (eni : ENI) : Except Failure Addr :=
  if eni.privateIP.is4 then .ok eni.privateIP
  else .error (.other "decode ENI private address: not IPv4")

/-- The leases of a subnet. -/
def eniAddresses (store : Store) (subnetID : ID) :
    Except Failure (List Addr) :=
  (store.enis.filter fun row => row.subnetID = subnetID).mapM eniAddress

def getIdempotency (store : Store) (workspaceID : ID)
    (operation : Operation) (key : String) : Option Idempotency :=
  store.idempotency.find? fun row =>
    row.workspaceID = workspaceID ∧ row.operation = operation ∧ row.key = key

def eventsAfter (store : Store) (id : Int) (limit : Nat) :
    Except Failure (List Event) :=
  if id < 0 ∨ limit < 1 ∨ 100 < limit then
    .error (.other "invalid event cursor or limit")
  else .ok (((store.events.filter fun event => id < event.id).insertionSort
    fun left right => left.id ≤ right.id).take limit)

end Store

/-- `length(name) BETWEEN 1 AND 255`, where `length` stops at a NUL. -/
def nameFits (name : String) : Prop :=
  let counted := (name.toList.takeWhile (· ≠ '\x00')).length
  1 ≤ counted ∧ counted ≤ 255

instance (name : String) : Decidable (nameFits name) :=
  inferInstanceAs (Decidable (_ ∧ _))

def availabilityZones : List String := ["local-1a", "local-1b", "local-1c"]

/-- The generation check of every resource table. -/
def generationsFit (generation observed : Int) : Prop :=
  1 ≤ generation ∧ 0 ≤ observed ∧ observed ≤ generation

instance (generation observed : Int) :
    Decidable (generationsFit generation observed) :=
  inferInstanceAs (Decidable (_ ∧ _ ∧ _))

/-- `INSERT INTO kernel_indexes`: the next number of the sequence.  A full
sequence is an error and never wraps. -/
def allocateIndex (kind : ResourceKind) (resourceID : ID) : Tx Int := do
  let store ← get
  ensure (∀ row ∈ store.kernelIndexes, row.resourceID ≠ resourceID)
    (Failure.constraint .unique)
  ensure (store.indexSequence < 2 ^ 63 - 1)
    (Failure.other "database or disk is full")
  let id := store.indexSequence + 1
  modify fun store => { store with
    kernelIndexes := store.kernelIndexes ++ [{ id, kind, resourceID }]
    indexSequence := id }
  return id

def insertVPC (vpc : VPC) : Tx Unit := do
  let store ← get
  ensure (nameFits vpc.name) (Failure.constraint .check)
  ensure (∀ row ∈ store.vpcs, row.id ≠ vpc.id)
    (Failure.constraint .primaryKey)
  ensure (∀ row ∈ store.vpcs, row.shortIndex ≠ vpc.shortIndex)
    (Failure.constraint .unique)
  ensure (∀ row ∈ store.vpcs,
      ¬ (row.workspaceID = vpc.workspaceID ∧ row.name = vpc.name))
    (Failure.constraint .unique)
  ensure (vpc.workspaceID ∈ workspaces ∧
      ∃ index ∈ store.kernelIndexes, index.id = vpc.shortIndex)
    (Failure.constraint .foreignKey)
  modify fun store => { store with
    vpcs := store.vpcs ++ [{ vpc with
      state := .pending, stateReason := "", deletionRequested := false
      generation := 1, observedGeneration := 0 }] }

def insertSubnet (subnet : Subnet) : Tx Unit := do
  let store ← get
  ensure (nameFits subnet.name ∧
      subnet.availabilityZone ∈ availabilityZones)
    (Failure.constraint .check)
  ensure (∀ row ∈ store.subnets, row.id ≠ subnet.id)
    (Failure.constraint .primaryKey)
  ensure (∀ row ∈ store.subnets, row.shortIndex ≠ subnet.shortIndex)
    (Failure.constraint .unique)
  ensure (∀ row ∈ store.subnets,
      ¬ (row.workspaceID = subnet.workspaceID ∧ row.name = subnet.name))
    (Failure.constraint .unique)
  ensure (subnet.workspaceID ∈ workspaces ∧
      (∃ index ∈ store.kernelIndexes, index.id = subnet.shortIndex) ∧
      ∃ vpc ∈ store.vpcs,
        vpc.id = subnet.vpcID ∧ vpc.workspaceID = subnet.workspaceID)
    (Failure.constraint .foreignKey)
  modify fun store => { store with
    subnets := store.subnets ++ [{ subnet with
      state := .pending, stateReason := "", deletionRequested := false
      generation := 1, observedGeneration := 0 }] }

def insertInstance (row : InstanceRow) : Tx Unit := do
  let store ← get
  ensure (nameFits row.name) (Failure.constraint .check)
  ensure (∀ other ∈ store.instances, other.id ≠ row.id)
    (Failure.constraint .primaryKey)
  ensure (∀ other ∈ store.instances, other.shortIndex ≠ row.shortIndex)
    (Failure.constraint .unique)
  ensure (∀ other ∈ store.instances,
      ¬ (other.workspaceID = row.workspaceID ∧ other.name = row.name))
    (Failure.constraint .unique)
  ensure (row.workspaceID ∈ workspaces ∧
      (∃ index ∈ store.kernelIndexes, index.id = row.shortIndex) ∧
      ∃ subnet ∈ store.subnets,
        subnet.id = row.subnetID ∧ subnet.workspaceID = row.workspaceID)
    (Failure.constraint .foreignKey)
  modify fun store => { store with
    instances := store.instances ++ [{ row with
      state := .pending, stateReason := "", deletionRequested := false
      generation := 1, observedGeneration := 0, runtimeID := none }] }

def insertENI (eni : ENI) : Tx Unit := do
  let store ← get
  ensure (∀ row ∈ store.enis, row.id ≠ eni.id)
    (Failure.constraint .primaryKey)
  ensure (∀ row ∈ store.enis, row.shortIndex ≠ eni.shortIndex ∧
      row.macAddress ≠ eni.macAddress ∧ row.instanceID ≠ eni.instanceID ∧
      ¬ (row.subnetID = eni.subnetID ∧ row.privateIP = eni.privateIP))
    (Failure.constraint .unique)
  ensure (eni.workspaceID ∈ workspaces ∧
      (∃ index ∈ store.kernelIndexes, index.id = eni.shortIndex) ∧
      (∃ row ∈ store.instances,
        row.id = eni.instanceID ∧ row.workspaceID = eni.workspaceID) ∧
      ∃ subnet ∈ store.subnets,
        subnet.id = eni.subnetID ∧ subnet.workspaceID = eni.workspaceID)
    (Failure.constraint .foreignKey)
  modify fun store => { store with
    enis := store.enis ++ [{ eni with
      generation := 1, observedGeneration := 0, state := .pending
      stateReason := "" }] }

def updateVPCStatus (id workspaceID : ID) (state : State) (reason : String)
    (observed : Int) : Tx Unit := do
  let store ← get
  ensure (∀ row ∈ store.vpcs, row.id = id ∧ row.workspaceID = workspaceID →
      generationsFit row.generation observed) (Failure.constraint .check)
  modify fun store => { store with
    vpcs := update (fun row => row.id = id ∧ row.workspaceID = workspaceID)
      (fun row => { row with
        state, stateReason := reason, observedGeneration := observed })
      store.vpcs }

def updateSubnetStatus (id workspaceID : ID) (state : State)
    (reason : String) (observed : Int) : Tx Unit := do
  let store ← get
  ensure (∀ row ∈ store.subnets,
      row.id = id ∧ row.workspaceID = workspaceID →
        generationsFit row.generation observed) (Failure.constraint .check)
  modify fun store => { store with
    subnets := update (fun row => row.id = id ∧ row.workspaceID = workspaceID)
      (fun row => { row with
        state, stateReason := reason, observedGeneration := observed })
      store.subnets }

def updateInstanceStatus (id workspaceID : ID) (state : InstanceState)
    (reason : String) (observed : Int) : Tx Unit := do
  let store ← get
  ensure (∀ row ∈ store.instances,
      row.id = id ∧ row.workspaceID = workspaceID →
        generationsFit row.generation observed) (Failure.constraint .check)
  modify fun store => { store with
    instances := update
      (fun row => row.id = id ∧ row.workspaceID = workspaceID)
      (fun row => { row with
        state, stateReason := reason, observedGeneration := observed })
      store.instances }

def updateInstanceENIStatus (id workspaceID : ID) (state : State)
    (reason : String) (observed : Int) : Tx Unit := do
  let store ← get
  ensure (∀ row ∈ store.enis, row.id = id ∧ row.workspaceID = workspaceID →
      generationsFit row.generation observed) (Failure.constraint .check)
  modify fun store => { store with
    enis := update (fun row => row.id = id ∧ row.workspaceID = workspaceID)
      (fun row => { row with
        state, stateReason := reason, observedGeneration := observed })
      store.enis }

def markVPCDeleting (id workspaceID : ID) : Tx Unit := do
  let store ← get
  ensure (∀ row ∈ store.vpcs,
      row.id = id ∧ row.workspaceID = workspaceID ∧
          row.deletionRequested = false →
        generationsFit (row.generation + 1) row.observedGeneration)
    (Failure.constraint .check)
  modify fun store => { store with
    vpcs := update (fun row => row.id = id ∧ row.workspaceID = workspaceID ∧
        row.deletionRequested = false)
      (fun row => { row with
        state := .deleting, stateReason := "", deletionRequested := true
        generation := row.generation + 1 })
      store.vpcs }

def markSubnetDeleting (id workspaceID : ID) : Tx Unit := do
  let store ← get
  ensure (∀ row ∈ store.subnets,
      row.id = id ∧ row.workspaceID = workspaceID ∧
          row.deletionRequested = false →
        generationsFit (row.generation + 1) row.observedGeneration)
    (Failure.constraint .check)
  modify fun store => { store with
    subnets := update (fun row => row.id = id ∧
        row.workspaceID = workspaceID ∧ row.deletionRequested = false)
      (fun row => { row with
        state := .deleting, stateReason := "", deletionRequested := true
        generation := row.generation + 1 })
      store.subnets }

def markInstanceTerminating (id workspaceID : ID) : Tx Unit := do
  let store ← get
  ensure (∀ row ∈ store.instances,
      row.id = id ∧ row.workspaceID = workspaceID ∧
          row.deletionRequested = false →
        generationsFit (row.generation + 1) row.observedGeneration)
    (Failure.constraint .check)
  modify fun store => { store with
    instances := update (fun row => row.id = id ∧
        row.workspaceID = workspaceID ∧ row.deletionRequested = false)
      (fun row => { row with
        state := .shuttingDown, stateReason := "", deletionRequested := true
        generation := row.generation + 1 })
      store.instances }

def deleteVPCRow (id workspaceID : ID) : Tx Unit := do
  let store ← get
  ensure (∀ subnet ∈ store.subnets,
      ¬ (subnet.vpcID = id ∧ subnet.workspaceID = workspaceID))
    (Failure.constraint .foreignKey)
  modify fun store => { store with
    vpcs := delete (fun row => row.id = id ∧ row.workspaceID = workspaceID)
      store.vpcs }

def deleteSubnetRow (id workspaceID : ID) : Tx Unit := do
  let store ← get
  ensure ((∀ row ∈ store.instances,
        ¬ (row.subnetID = id ∧ row.workspaceID = workspaceID)) ∧
      ∀ eni ∈ store.enis,
        ¬ (eni.subnetID = id ∧ eni.workspaceID = workspaceID))
    (Failure.constraint .foreignKey)
  modify fun store => { store with
    subnets := delete (fun row => row.id = id ∧ row.workspaceID = workspaceID)
      store.subnets }

def deleteInstanceENI (id workspaceID : ID) : Tx Unit :=
  modify fun store => { store with
    enis := delete (fun row => row.id = id ∧ row.workspaceID = workspaceID)
      store.enis }

def deleteInstanceRow (id workspaceID : ID) : Tx Unit := do
  let store ← get
  ensure (∀ eni ∈ store.enis,
      ¬ (eni.instanceID = id ∧ eni.workspaceID = workspaceID))
    (Failure.constraint .foreignKey)
  modify fun store => { store with
    instances := delete
      (fun row => row.id = id ∧ row.workspaceID = workspaceID)
      store.instances }

/-- `INSERT INTO events`; the caller's event number is ignored. -/
def appendEvent (event : Event) : Tx Unit := do
  let store ← get
  ensure (event.workspaceID ∈ workspaces) (Failure.constraint .foreignKey)
  ensure (store.eventSequence < 2 ^ 63 - 1)
    (Failure.other "database or disk is full")
  modify fun store => { store with
    events := store.events ++ [{ event with id := store.eventSequence + 1 }]
    eventSequence := store.eventSequence + 1 }

/-- Insert the record, or replace the one with the same key. -/
def putIdempotency (record : Idempotency) : Tx Unit := do
  ensure (record.workspaceID ∈ workspaces) (Failure.constraint .foreignKey)
  modify fun store => { store with
    idempotency := delete (fun row =>
        row.workspaceID = record.workspaceID ∧
          row.operation = record.operation ∧ row.key = record.key)
      store.idempotency ++ [record] }

end Nephos
