import Nephos.Service.Idempotency
import Nephos.Service.Validate

/-!
# VPC and subnet requests

Each create is split as the source is: the checks that need no database, and
the closure that runs inside the transaction on their result.
-/

namespace Nephos

open Transaction

structure CreateVPCInput where
  name : List UInt8
  cidrBlock : String

/-- A VPC request that passed its field checks, with the identity drawn for
it. -/
structure VPCRequest where
  id : ID
  name : String
  cidr : Prefix
  key : String
  now : Time

def VPCRequest.payload (request : VPCRequest) : List String :=
  [request.name, request.cidr.text]

def checkVPCRequest (input : CreateVPCInput) (key : String)
    (random : List UInt8) (now : Time) : Except Failure VPCRequest := do
  let name ← validateName input.name
  let cidr ← parseCIDR input.cidrBlock
  validateIdempotencyKey (Text.utf8 key)
  let id ← newID "vpc-" random
  return { id, name, cidr, key, now }

def Response.vpc? : Response → Option VPC
  | .vpc snapshot => some snapshot
  | _ => none

def VPCRequest.snapshot (request : VPCRequest) (shortIndex : Int) : VPC :=
  { id := request.id, workspaceID := defaultWorkspace, name := request.name
    cidrBlock := request.cidr, shortIndex, state := .pending
    stateReason := "", deletionRequested := false, generation := 1
    observedGeneration := 0 }

/-- The event a service transaction appends for its resource. -/
def resourceEvent (resourceType : ResourceKind) (resourceID : ID)
    (action : Action) (state : EventState) (generation : Int)
    (now : Time) : Event :=
  { id := 0, workspaceID := defaultWorkspace, resourceType, resourceID, action
    state, generation, message := "", createdAt := now.unix }

/-- The transaction of a VPC creation, where `translate` turns an error of the
insertion into one of the request. -/
def createVPCWith (translate : Failure → Failure) (request : VPCRequest) :
    Tx (VPC × Bool) := do
  let hash := hashPayload request.payload
  match ← loadReplay Response.vpc? .createVPC request.key hash request.now with
  | some replay => return (replay, false)
  | none =>
      match (← get).getVPCByName defaultWorkspace request.name with
      | .ok _ => throw (nameConflict "VPC" (Text.quote request.name))
      | .error .noRows =>
          let shortIndex ← allocateIndex .vpc request.id
          let result := request.snapshot shortIndex
          rescue translate (insertVPC result)
          appendEvent (resourceEvent .vpc request.id .created
            result.state.text 1 request.now)
          saveReplay .createVPC request.key hash request.id (.vpc result)
            request.now
          return (result, true)
      | .error failure => throw failure

def createVPCTx (request : VPCRequest) : Tx (VPC × Bool) :=
  createVPCWith (fun failure =>
    if failure = .constraint .unique then
      nameConflict "VPC" (Text.quote request.name)
    else failure) request

def createVPC (input : CreateVPCInput) (key : String) (random : List UInt8)
    (now : Time) (store : Store) : Outcome VPC :=
  match checkVPCRequest input key random now with
  | .error failure => .refuse failure store
  | .ok request => .ofTx (createVPCTx request) VPC.id store

def deleteVPCTx (id : ID) (now : Time) : Tx (VPC × Bool) := do
  match (← get).getVPC defaultWorkspace id with
  | .error .noRows => throw (vpcNotFound id)
  | .error failure => throw failure
  | .ok vpc =>
      match (← get).listSubnetsByVPC id with
      | .error failure => throw failure
      | .ok children =>
          if children ≠ [] then
            throw (dependencyViolation id "VPC still has subnets")
          if vpc.deletionRequested then return (vpc, false)
          markVPCDeleting id defaultWorkspace
          match (← get).getVPC defaultWorkspace id with
          | .error failure => throw failure
          | .ok result =>
              appendEvent (resourceEvent .vpc id .deleting result.state.text
                result.generation now)
              return (result, true)

def deleteVPC (id : ID) (now : Time) (store : Store) : Outcome VPC :=
  .ofTx (deleteVPCTx id now) (fun _ => id) store

structure CreateSubnetInput where
  name : List UInt8
  vpcID : ID
  cidrBlock : String
  availabilityZone : String

structure SubnetRequest where
  id : ID
  name : String
  vpcID : ID
  cidr : Prefix
  availabilityZone : String
  key : String
  now : Time

def SubnetRequest.payload (request : SubnetRequest) : List String :=
  [request.name, request.vpcID, request.cidr.text, request.availabilityZone]

def checkSubnetRequest (input : CreateSubnetInput) (key : String)
    (random : List UInt8) (now : Time) : Except Failure SubnetRequest := do
  let name ← validateName input.name
  let cidr ← parseCIDR input.cidrBlock
  if input.availabilityZone ∉ availabilityZones then
    throw (invalidParameter
      "availability_zone must be local-1a, local-1b, or local-1c")
  validateIdempotencyKey (Text.utf8 key)
  let id ← newID "subnet-" random
  return { id, name, vpcID := input.vpcID, cidr
           availabilityZone := input.availabilityZone, key, now }

def Response.subnet? : Response → Option Subnet
  | .subnet snapshot => some snapshot
  | _ => none

def SubnetRequest.snapshot (request : SubnetRequest) (vpcID : ID)
    (shortIndex : Int) : Subnet :=
  { id := request.id, workspaceID := defaultWorkspace, vpcID
    name := request.name, cidrBlock := request.cidr
    availabilityZone := request.availabilityZone, shortIndex
    state := .pending, stateReason := "", deletionRequested := false
    generation := 1, observedGeneration := 0 }

/-- The part of a subnet creation after its VPC and siblings are accepted. -/
def insertNewSubnet (translate : Failure → Failure)
    (request : SubnetRequest) (vpc : VPC) : Tx (Subnet × Bool) := do
  match (← get).getSubnetByName defaultWorkspace request.name with
  | .ok _ => throw (nameConflict "subnet" (Text.quote request.name))
  | .error .noRows =>
      let shortIndex ← allocateIndex .subnet request.id
      let result := request.snapshot vpc.id shortIndex
      rescue translate (insertSubnet result)
      appendEvent (resourceEvent .subnet request.id .created
        result.state.text 1 request.now)
      saveReplay .createSubnet request.key (hashPayload request.payload)
        request.id (.subnet result) request.now
      return (result, true)
  | .error failure => throw failure

def createSubnetWith (translate : Failure → Failure)
    (request : SubnetRequest) : Tx (Subnet × Bool) := do
  match ← loadReplay Response.subnet? .createSubnet request.key
      (hashPayload request.payload) request.now with
  | some replay => return (replay, false)
  | none =>
      match (← get).getVPC defaultWorkspace request.vpcID with
      | .error .noRows => throw (vpcNotFound request.vpcID)
      | .error failure => throw failure
      | .ok vpc =>
          if vpc.deletionRequested then
            throw (dependencyViolation vpc.id "VPC is deleting")
          match validateSubnetRange vpc.cidrBlock request.cidr with
          | .error failure => throw failure
          | .ok _ =>
              match (← get).listSubnetsByVPC vpc.id with
              | .error failure => throw failure
              | .ok siblings =>
                  match validateSubnetDisjoint request.cidr
                      (siblings.map Subnet.cidrBlock) with
                  | .error failure => throw failure
                  | .ok _ => insertNewSubnet translate request vpc

def createSubnetTx (request : SubnetRequest) : Tx (Subnet × Bool) :=
  createSubnetWith (fun failure =>
    if failure = .constraint .unique then
      nameConflict "subnet" (Text.quote request.name)
    else if failure = .constraint .foreignKey then
      vpcNotFound request.vpcID
    else failure) request

def createSubnet (input : CreateSubnetInput) (key : String)
    (random : List UInt8) (now : Time) (store : Store) : Outcome Subnet :=
  match checkSubnetRequest input key random now with
  | .error failure => .refuse failure store
  | .ok request => .ofTx (createSubnetTx request) Subnet.vpcID store

def deleteSubnetTx (id : ID) (now : Time) : Tx (Subnet × Bool) := do
  match (← get).getSubnet defaultWorkspace id with
  | .error .noRows => throw (subnetNotFound id)
  | .error failure => throw failure
  | .ok subnet =>
      if (← get).countInstancesInSubnet id ≠ 0 then
        throw (dependencyViolation id "subnet still has instances")
      if subnet.deletionRequested then return (subnet, false)
      markSubnetDeleting id defaultWorkspace
      match (← get).getSubnet defaultWorkspace id with
      | .error failure => throw failure
      | .ok result =>
          appendEvent (resourceEvent .subnet id .deleting result.state.text
            result.generation now)
          return (result, true)

def deleteSubnet (id : ID) (now : Time) (store : Store) : Outcome Subnet :=
  .ofTx (deleteSubnetTx id now) Subnet.vpcID store

end Nephos
