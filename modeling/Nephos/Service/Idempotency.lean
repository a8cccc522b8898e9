import Nephos.Library.Utf8
import Nephos.Store.Operations

/-!
# Keyed creates

The canonical payload of a create is hashed, and the first response under a
key is stored next to the hash for 24 hours.
-/

namespace Nephos

open Transaction

def validateIdempotencyKey (key : List UInt8) : Except Failure Unit :=
  if key = [] then .ok ()
  else if 255 < key.length ∨ ¬ Utf8.Valid key then
    .error (invalidParameter
      "Idempotency-Key must be valid UTF-8 and at most 255 bytes")
  else if (Utf8.sanitize key).any Text.isControl then
    .error (invalidParameter
      "Idempotency-Key must not contain control characters")
  else .ok ()

def hashPayload (fields : List String) : String :=
  Text.hexEncode (Sha256.sum (Text.utf8 (Text.jsonStrings fields)))

def idempotentParameterMismatch : Failure :=
  .service
    { code := "IdempotentParameterMismatch"
      message := "Idempotency-Key was already used for different parameters"
      resourceID := "", status := 409 }

/-- The stored response of an unexpired record with the same payload. -/
def loadReplay {α : Type} (decode : Response → Option α)
    (operation : Operation) (key hash : String) (now : Time) :
    Tx (Option α) := do
  if key = "" then return none
  match (← get).getIdempotency defaultWorkspace operation key with
  | none => return none
  | some record =>
      if record.expiresAt ≤ now.unix then return none
      if record.payloadHash ≠ hash then throw idempotentParameterMismatch
      match decode record.response with
      | none => throw (.other "decode original result")
      | some result => return some result

def saveReplay (operation : Operation) (key hash : String) (resourceID : ID)
    (response : Response) (now : Time) : Tx Unit := do
  if key = "" then return ()
  putIdempotency
    { workspaceID := defaultWorkspace, operation, key, payloadHash := hash
      resourceID, response, createdAt := now.unix
      expiresAt := Time.unix (now + 24 * hour) }

def validIDPrefix (kind : String) : Bool :=
  let chars := kind.toList
  if chars.length < 2 ∨ chars.getLast? ≠ some '-' then false
  else if chars.dropLast.any fun char =>
      (char < 'a' || 'z' < char) && (char < '0' || '9' < char) &&
        char ≠ '-' then false
  else chars.head?.any fun char => 'a' ≤ char && char ≤ 'z'

/-- An AWS-style identifier from nine random bytes. -/
def newID (kind : String) (random : List UInt8) : Except Failure ID :=
  if ¬ validIDPrefix kind then
    .error (invalidParameter "invalid resource ID prefix")
  else if random.length < 9 then
    .error (.other ("generate " ++ kind ++ " ID: " ++
      if random = [] then "EOF" else "unexpected EOF"))
  else .ok (kind ++ String.ofList
    ((Text.hexEncode (random.take 9)).toList.take 17))

theorem newID_ok {kind : String} {random : List UInt8} {id : ID}
    (drawn : newID kind random = .ok id) :
    9 ≤ random.length ∧ id = kind ++ String.ofList
      ((Text.hexEncode (random.take 9)).toList.take 17) := by
  unfold newID at drawn
  split at drawn
  · cases drawn
  · split at drawn
    · cases drawn
    · rename_i enough
      cases drawn
      exact ⟨Nat.not_lt.mp enough, rfl⟩

/-- Translate the error of one step. -/
def rescue {α : Type} (translate : Failure → Failure) (body : Tx α) : Tx α :=
  fun store =>
    match body store with
    | .ok result => .ok result
    | .error failure => .error (translate failure)

@[simp] theorem rescue_ok_iff {α : Type} {translate : Failure → Failure}
    {body : Tx α} {store final : Store} {value : α} :
    rescue translate body store = .ok (value, final) ↔
      body store = .ok (value, final) := by
  unfold rescue
  cases body store <;> simp

/-- What a service call answers, commits and hands to the reconciler. -/
structure Outcome (α : Type) where
  result : Except Failure α
  store : Store
  enqueued : List ID

/-- Refuse a request before its transaction. -/
def Outcome.refuse {α : Type} (failure : Failure) (store : Store) :
    Outcome α :=
  { result := .error failure, store, enqueued := [] }

/-- Run the transaction of a request, whose flag says whether it changed
anything, and enqueue after the commit. -/
def Outcome.ofTx {α : Type} (body : Tx (α × Bool)) (hint : α → ID)
    (store : Store) : Outcome α :=
  match store.withTx body with
  | (.error failure, after) =>
      { result := .error failure, store := after, enqueued := [] }
  | (.ok (value, changed), after) =>
      { result := .ok value, store := after
        enqueued := if changed then [hint value] else [] }

end Nephos
