import Nephos.Netip

/-!
# Resource snapshots

The immutable values that services, reconcilers and engines exchange.  Row
timestamps are never read back and are left out; event timestamps are kept.
-/

namespace Nephos

abbrev ID := String

/-- A container identity supplied by the runtime. -/
abbrev RuntimeID := String

/-- An instant in nanoseconds since the Unix epoch. -/
abbrev Time := Int

/-- `Time.Unix`: whole seconds, rounded down. -/
def Time.unix (time : Time) : Int := time / 1000000000

def hour : Time := 3600 * 1000000000

/-- The value of a 64-bit integer. -/
def int64 (number : Int) : Int := number.bmod (2 ^ 64)

/-- VPC, subnet and interface states. -/
inductive State where
  | pending
  | available
  | deleting
  | failed
deriving DecidableEq, Repr

inductive InstanceState where
  | pending
  | running
  | shuttingDown
  | failed
deriving DecidableEq, Repr

structure VPC where
  id : ID
  workspaceID : ID
  name : String
  cidrBlock : Prefix
  shortIndex : Int
  state : State
  stateReason : String
  deletionRequested : Bool
  generation : Int
  observedGeneration : Int
deriving DecidableEq, Repr

structure Subnet where
  id : ID
  workspaceID : ID
  vpcID : ID
  name : String
  cidrBlock : Prefix
  availabilityZone : String
  shortIndex : Int
  state : State
  stateReason : String
  deletionRequested : Bool
  generation : Int
  observedGeneration : Int
deriving DecidableEq, Repr

/-- An instance's stable private address and link identity. -/
structure ENI where
  id : ID
  workspaceID : ID
  instanceID : ID
  subnetID : ID
  shortIndex : Int
  privateIP : Addr
  macAddress : String
  generation : Int
  observedGeneration : Int
  state : State
  stateReason : String
deriving DecidableEq, Repr

/-- A desired and observed snapshot with its primary interface.  The runtime
identity is empty while the row holds no such identity. -/
structure Instance where
  id : ID
  workspaceID : ID
  subnetID : ID
  shortIndex : Int
  name : String
  instanceType : String
  state : InstanceState
  stateReason : String
  generation : Int
  observedGeneration : Int
  deletionRequested : Bool
  runtimeID : RuntimeID
  eni : ENI
deriving DecidableEq, Repr

def defaultWorkspace : ID := "default"

/-- A transport-independent resource error. -/
structure ServiceError where
  code : String
  message : String
  resourceID : ID
  status : Nat
deriving DecidableEq, Repr

inductive Constraint where
  | check
  | primaryKey
  | unique
  | foreignKey
deriving DecidableEq, Repr

/-- An error value, up to the texts that `%w` puts around it: `errors.Is` and
`errors.As` see through those, and nothing else reads them. -/
inductive Failure where
  | service (error : ServiceError)
  | noRows
  | staleSnapshot
  | constraint (kind : Constraint)
  | other (message : String)
deriving DecidableEq, Repr

def invalidParameter (message : String) : Failure :=
  .service { code := "InvalidParameterValue", message, resourceID := "",
             status := 400 }

def nameConflict (kind : String) (quotedName : String) : Failure :=
  .service { code := "InvalidParameterValue"
             message := kind ++ " name " ++ quotedName ++ " already exists"
             resourceID := "", status := 409 }

def dependencyViolation (id : ID) (message : String) : Failure :=
  .service { code := "DependencyViolation", message, resourceID := id,
             status := 409 }

def vpcNotFound (id : ID) : Failure :=
  .service { code := "InvalidVpcID.NotFound", message := "VPC does not exist"
             resourceID := id, status := 404 }

def subnetNotFound (id : ID) : Failure :=
  .service { code := "InvalidSubnetID.NotFound"
             message := "subnet does not exist", resourceID := id
             status := 404 }

def instanceNotFound (id : ID) : Failure :=
  .service { code := "InvalidInstanceID.NotFound"
             message := "instance does not exist", resourceID := id
             status := 404 }

def incorrectInstanceState (id : ID) (message : String) : Failure :=
  .service { code := "IncorrectState", message, resourceID := id
             status := 409 }

end Nephos
