import Mathlib.Data.Finset.Card
import Mathlib.Data.List.AList
import Mathlib.Logic.Function.Basic
import Nephos.Library.Program
import Nephos.Network.Engine
import Nephos.Writes

/-!
# The surroundings of the daemon

The controllers act on three things that outlive them: the database, the
containers of the runtime and the namespaces of the kernel.  A call to the
runtime or to the network engine takes effect at some moment while it is
outstanding, or not at all, and is answered later; whoever calls sees only
the answer.
-/

namespace Nephos

def queueLimit : Nat := 1024

def retryBase : Time := 100 * 1000000

def retryMax : Time := 30 * 1000000000

structure RetryEntry where
  attempt : Int
  due : Time
deriving DecidableEq, Repr

/-- The memory of a controller, which a restart forgets: the ids to work on
and the failures to retry.  Both controllers have the same functions on
it. -/
structure Queue where
  pending : Finset ID
  retries : AList fun _ : ID => RetryEntry

namespace Queue

-- The entries are compared as pairs, whose equality has no cast in it.
instance decidableEq : DecidableEq Queue := fun first second =>
  decidable_of_iff
    (first.pending = second.pending ∧
      first.retries.entries.map (Equiv.sigmaEquivProd ID RetryEntry) =
        second.retries.entries.map (Equiv.sigmaEquivProd ID RetryEntry)) <| by
    rw [(List.map_injective_iff.mpr (Equiv.injective _)).eq_iff,
      ← AList.ext_iff]
    cases first
    cases second
    rw [Queue.mk.injEq]

def empty : Queue := { pending := ∅, retries := ∅ }

/-- What `Enqueue` does before it wakes the loop. -/
def enqueue (id : ID) (queue : Queue) : Queue :=
  if id = "" then queue
  else if queue.pending.card < queueLimit then
    { queue with pending := insert id queue.pending }
  else queue

/-- `pop` of an id that is pending. -/
def pop (id : ID) (queue : Queue) : Queue :=
  { queue with pending := queue.pending.erase id }

/-- The entry of an id, or the zero value. -/
def entry (queue : Queue) (id : ID) : RetryEntry :=
  (queue.retries.lookup id).getD { attempt := 0, due := 0 }

def refuses (queue : Queue) (id : ID) : Bool :=
  queueLimit ≤ queue.retries.keys.length && (queue.entry id).attempt == 0

/-- The loop of `retry` that doubles the delay, with the number of the
iterations that are left. -/
def backoff : Nat → Int → Int
  | 0, delay => delay
  | left + 1, delay =>
      if delay < retryMax then
        let doubled := int64 (delay * 2)
        backoff left (if retryMax < doubled then retryMax else doubled)
      else delay

def retry (now : Time) (id : ID) (queue : Queue) : Queue :=
  if queue.refuses id then queue
  else
    let attempt := int64 ((queue.entry id).attempt + 1)
    let delay := backoff (attempt - 1).toNat retryBase
    { queue with
      retries := queue.retries.insert id { attempt, due := now + delay } }

theorem retry_pending {queue : Queue} {now : Time} {id : ID} :
    (queue.retry now id).pending = queue.pending := by
  unfold retry
  split <;> rfl

def clearRetry (id : ID) (queue : Queue) : Queue :=
  { queue with retries := queue.retries.erase id }

/-- One entry in the loop of `enqueueDueRetries`. -/
def visit (now : Time) (queue : Queue) (id : ID) : Queue :=
  match queue.retries.lookup id with
  | none => queue
  | some entry =>
      if entry.due ≤ now ∧ queue.pending.card < queueLimit then
        { pending := insert id queue.pending
          retries := queue.retries.insert id
            { entry with due := now + retryMax } }
      else queue

/-- The entries are visited in any order. -/
def enqueueDueRetries (now : Time) (order : List ID) (queue : Queue) :
    Queue :=
  order.foldl (visit now) queue

end Queue

/-- The index of a namespace with a canonical name. -/
def ownedIndex (name : String) : Option Int :=
  let marker := "nx-vpc-".toList
  if marker.isPrefixOf name.toList then
    match parseInt64 (String.ofList (name.toList.drop marker.length)) with
    | none => none
    | some index =>
        match netnsName index with
        | .ok canonical => if canonical = name then some index else none
        | .error _ => none
  else none

/-- The router's address in a subnet. -/
def Subnet.gateway (subnet : Subnet) : Addr := subnet.cidrBlock.addr.next

/-- The router's end of an interface in the namespace of a VPC. -/
structure Link where
  vpcIndex : Int
  eniIndex : Int
  ip : Addr
deriving DecidableEq, Repr

def ENI.link (eni : ENI) (vpc : VPC) : Link :=
  { vpcIndex := vpc.shortIndex, eniIndex := eni.shortIndex
    ip := eni.privateIP }

/-- A container, which the runtime names after its instance. -/
structure Container where
  id : RuntimeID
  instanceID : ID
  running : Bool
deriving DecidableEq, Repr

/-- Everything the daemon's threads share.  `created` remembers the
containers ever made. -/
structure World where
  store : Store
  namespaces : List String
  gateways : Int → List Addr
  links : List Link
  containers : List Container
  created : List (RuntimeID × ID)
  vpcQueue : Queue
  instanceQueue : Queue

end Nephos
