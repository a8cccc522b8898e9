import Nephos.Service.Network

/-!
# Instance requests

`run` reserves the instance, its interface and its address in one
transaction; `terminateSnapshot` records the intent to delete and keeps the
lease.
-/

namespace Nephos

open Transaction

structure RunInstanceInput where
  name : List UInt8
  subnetID : ID

structure RunRequest where
  id : ID
  eniID : ID
  name : String
  subnetID : ID
  key : String
  now : Time

def RunRequest.payload (request : RunRequest) : List String :=
  [request.name, request.subnetID]

def checkRunRequest (input : RunInstanceInput) (key : String)
    (random eniRandom : List UInt8) (now : Time) :
    Except Failure RunRequest := do
  let name ← validateName input.name
  validateIdempotencyKey (Text.utf8 key)
  let id ← newID "i-" random
  let eniID ← newID "eni-" eniRandom
  return { id, eniID, name, subnetID := input.subnetID, key, now }

def Response.inst? : Response → Option Instance
  | .inst snapshot => some snapshot
  | _ => none

/-- Six digest bytes, made a locally administered unicast address. -/
def deriveMAC (eniID : ID) : String :=
  match (Sha256.sum (Text.utf8 eniID)).take 6 with
  | [] => ""
  | first :: rest => hardwareAddrText (((first &&& 0xfc) ||| 0x02) :: rest)

def RunRequest.eni (request : RunRequest) (subnetID : ID)
    (eniIndex : Int) (address : Addr) : ENI :=
  { id := request.eniID, workspaceID := defaultWorkspace
    instanceID := request.id, subnetID, shortIndex := eniIndex
    privateIP := address, macAddress := deriveMAC request.eniID
    generation := 1, observedGeneration := 0, state := .pending
    stateReason := "" }

def RunRequest.snapshot (request : RunRequest) (subnetID : ID)
    (index eniIndex : Int) (address : Addr) : Instance :=
  { id := request.id, workspaceID := defaultWorkspace, subnetID
    shortIndex := index, name := request.name, instanceType := "t3.micro"
    state := .pending, stateReason := "", generation := 1
    observedGeneration := 0, deletionRequested := false, runtimeID := ""
    eni := request.eni subnetID eniIndex address }

def addressLimitExceeded (subnetID : ID) : Failure :=
  .service
    { code := "AddressLimitExceeded"
      message := "subnet has no free private addresses"
      resourceID := subnetID, status := 409 }

/-- Choose the address a new instance leases. -/
def leaseAddress (subnet : Subnet) : Tx Addr := do
  match (← get).eniAddresses subnet.id with
  | .error failure => throw failure
  | .ok used =>
      match nextPrivateIP subnet.cidrBlock used with
      | .error .exhausted => throw (addressLimitExceeded subnet.id)
      | .error .notCanonical => throw (.other
          "IPAM requires a canonical IPv4 /16 through /28 subnet")
      | .ok address => return address

/-- The part of `run` after the subnet and the name are accepted. -/
def insertNewInstance (request : RunRequest) (subnet : Subnet) :
    Tx (Instance × Bool) := do
  let address ← leaseAddress subnet
  let index ← allocateIndex .inst request.id
  let eniIndex ← allocateIndex .eni request.eniID
  let result := request.snapshot subnet.id index eniIndex address
  insertInstanceWithENI result result.eni
  appendEvent (resourceEvent .inst request.id .created
    result.state.text 1 request.now)
  saveReplay .runInstance request.key (hashPayload request.payload)
    request.id (.inst result) request.now
  return (result, true)

def runTx (request : RunRequest) : Tx (Instance × Bool) := do
  match ← loadReplay Response.inst? .runInstance request.key
      (hashPayload request.payload) request.now with
  | some replay => return (replay, false)
  | none =>
      match (← get).getSubnet defaultWorkspace request.subnetID with
      | .error .noRows => throw (subnetNotFound request.subnetID)
      | .error failure => throw failure
      | .ok subnet =>
          if subnet.deletionRequested then
            throw (incorrectInstanceState subnet.id "subnet is being deleted")
          match (← get).getInstanceByName defaultWorkspace request.name with
          | .ok _ => throw (nameConflict "instance" (Text.quote request.name))
          | .error .noRows => insertNewInstance request subnet
          | .error failure => throw failure

def run (input : RunInstanceInput) (key : String)
    (random eniRandom : List UInt8) (now : Time) (store : Store) :
    Outcome Instance :=
  match checkRunRequest input key random eniRandom now with
  | .error failure => .refuse failure store
  | .ok request => .ofTx (runTx request) Instance.id store

def terminateTx (id : ID) (now : Time) : Tx (Instance × Bool) := do
  match (← get).getInstance defaultWorkspace id with
  | .error .noRows => throw (instanceNotFound id)
  | .error failure => throw failure
  | .ok current =>
      if current.deletionRequested then return (current, false)
      markInstanceTerminating id defaultWorkspace
      appendEvent (resourceEvent .inst id .terminating
        InstanceState.shuttingDown.text (current.generation + 1) now)
      return ({ current with
        deletionRequested := true, generation := current.generation + 1
        state := .shuttingDown, stateReason := "" }, true)

def terminateSnapshot (id : ID) (now : Time) (store : Store) :
    Outcome Instance :=
  .ofTx (terminateTx id now) (fun _ => id) store

end Nephos
