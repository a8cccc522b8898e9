import Mathlib.Data.List.Sort
import Nephos.Library.Transaction
import Nephos.Model
import Nephos.Text

/-!
# The state database

One field per table of the migrated schema.  Columns that hold rendered
addresses and prefixes hold the values themselves.  The two `AUTOINCREMENT`
tables keep their `sqlite_sequence` entries, which never go back.
-/

namespace Nephos

inductive ResourceKind where
  | vpc
  | subnet
  | inst
  | eni
deriving DecidableEq, Repr

/-- Allocation history of short kernel names.  It outlives the resources. -/
structure KernelIndex where
  id : Int
  kind : ResourceKind
  resourceID : ID
deriving DecidableEq, Repr

structure InstanceRow where
  id : ID
  workspaceID : ID
  subnetID : ID
  shortIndex : Int
  name : String
  state : InstanceState
  stateReason : String
  generation : Int
  observedGeneration : Int
  deletionRequested : Bool
  runtimeID : Option RuntimeID
deriving DecidableEq, Repr

inductive Action where
  | created
  | deleting
  | terminating
  | status
  | deleted
deriving DecidableEq, Repr

/-- The `state` column of an event, in which the states of all kinds meet. -/
inductive EventState where
  | pending
  | available
  | deleting
  | failed
  | running
  | shuttingDown
  | deleted
deriving DecidableEq, Repr

def State.text : State → EventState
  | .pending => .pending
  | .available => .available
  | .deleting => .deleting
  | .failed => .failed

def InstanceState.text : InstanceState → EventState
  | .pending => .pending
  | .running => .running
  | .shuttingDown => .shuttingDown
  | .failed => .failed

/-- A durable, numbered state change. -/
structure Event where
  id : Int
  workspaceID : ID
  resourceType : ResourceKind
  resourceID : ID
  action : Action
  state : EventState
  generation : Int
  message : String
  createdAt : Int
deriving DecidableEq, Repr

inductive Operation where
  | createVPC
  | createSubnet
  | runInstance
deriving DecidableEq, Repr

/-- The stored response of a keyed create.  The JSON in between is read back
as it was written. -/
inductive Response where
  | vpc (snapshot : VPC)
  | subnet (snapshot : Subnet)
  | inst (snapshot : Instance)
deriving DecidableEq, Repr

structure Idempotency where
  workspaceID : ID
  operation : Operation
  key : String
  payloadHash : String
  resourceID : ID
  response : Response
  createdAt : Int
  expiresAt : Int
deriving DecidableEq, Repr

structure Store where
  kernelIndexes : List KernelIndex
  indexSequence : Int
  vpcs : List VPC
  subnets : List Subnet
  instances : List InstanceRow
  enis : List ENI
  events : List Event
  eventSequence : Int
  idempotency : List Idempotency
deriving DecidableEq, Repr

/-- A freshly migrated database. -/
def Store.empty : Store :=
  { kernelIndexes := [], indexSequence := 0, vpcs := [], subnets := []
    instances := [], enis := [], events := [], eventSequence := 0
    idempotency := [] }

/-- The only row the migrations put into `workspaces`. -/
def workspaces : List ID := [defaultWorkspace]

abbrev Tx (α : Type) := Transaction.Tx Store Failure α

/-- `ORDER BY id`. -/
def orderByID {Row : Type} (column : Row → ID) (rows : List Row) : List Row :=
  rows.insertionSort fun left right => column left ≤ column right

theorem mem_orderByID {Row : Type} {column : Row → ID} {rows : List Row}
    {row : Row} : row ∈ orderByID column rows ↔ row ∈ rows :=
  (List.perm_insertionSort _ rows).mem_iff

end Nephos
