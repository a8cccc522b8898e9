import Nephos.Evolution
import Nephos.TextSpec

/-!
# Creates with an idempotency key

The first create that commits under a key decides the answer of every later
create of the same kind with that key, until its record expires: the same
payload gets the stored response and any other payload is refused.
-/

namespace Nephos

open Transaction Transition.System

/-- A create request of one of the three kinds. -/
inductive Create where
  | vpc (input : CreateVPCInput) (key : String) (random : List UInt8)
      (now : Time)
  | subnet (input : CreateSubnetInput) (key : String) (random : List UInt8)
      (now : Time)
  | inst (input : RunInstanceInput) (key : String)
      (random eniRandom : List UInt8) (now : Time)

/-- What a create asks for after its field checks: a trimmed name, a masked
prefix and the other fields as they are. -/
inductive Payload where
  | vpc (name : String) (cidr : Prefix)
  | subnet (name : String) (vpcID : ID) (cidr : Prefix) (zone : String)
  | inst (name : String) (subnetID : ID)
deriving DecidableEq

/-- The fields that are hashed. -/
def Payload.fields : Payload → List String
  | .vpc name cidr => [name, cidr.text]
  | .subnet name vpcID cidr zone => [name, vpcID, cidr.text, zone]
  | .inst name subnetID => [name, subnetID]

def VPCRequest.canonical (request : VPCRequest) : Payload :=
  .vpc request.name request.cidr

def SubnetRequest.canonical (request : SubnetRequest) : Payload :=
  .subnet request.name request.vpcID request.cidr request.availabilityZone

def RunRequest.canonical (request : RunRequest) : Payload :=
  .inst request.name request.subnetID

def Response.operation : Response → Operation
  | .vpc _ => .createVPC
  | .subnet _ => .createSubnet
  | .inst _ => .runInstance

/-- The reconciler's hint for a new resource; a subnet is reconciled with its
VPC. -/
def Response.hint : Response → ID
  | .vpc snapshot => snapshot.id
  | .subnet snapshot => snapshot.vpcID
  | .inst snapshot => snapshot.id

def Outcome.map {α β : Type} (change : α → β) (outcome : Outcome α) :
    Outcome β :=
  { result := outcome.result.map change, store := outcome.store
    enqueued := outcome.enqueued }

@[simp] theorem Outcome.map_store {α β : Type} (change : α → β)
    (outcome : Outcome α) : (outcome.map change).store = outcome.store := rfl

namespace Create

def operation : Create → Operation
  | .vpc _ _ _ _ => .createVPC
  | .subnet _ _ _ _ => .createSubnet
  | .inst _ _ _ _ _ => .runInstance

def key : Create → String
  | .vpc _ key _ _ | .subnet _ key _ _ | .inst _ key _ _ _ => key

def now : Create → Time
  | .vpc _ _ _ now | .subnet _ _ _ now | .inst _ _ _ _ now => now

/-- The canonical payload of a well-formed request. -/
def canonical : Create → Except Failure Payload
  | .vpc input key random now =>
      (checkVPCRequest input key random now).map VPCRequest.canonical
  | .subnet input key random now =>
      (checkSubnetRequest input key random now).map SubnetRequest.canonical
  | .inst input key random eniRandom now =>
      (checkRunRequest input key random eniRandom now).map
        RunRequest.canonical

def answer (store : Store) : Create → Outcome Response
  | .vpc input key random now =>
      (createVPC input key random now store).map .vpc
  | .subnet input key random now =>
      (createSubnet input key random now store).map .subnet
  | .inst input key random eniRandom now =>
      (run input key random eniRandom now store).map .inst

/-- The create as a write of the database. -/
def write : Create → Write
  | .vpc input key random now => .createVPC input key random now
  | .subnet input key random now => .createSubnet input key random now
  | .inst input key random eniRandom now =>
      .run input key random eniRandom now

end Create

variable {store final : Store}

theorem Outcome.ofTx_ok {α : Type} {body : Tx (α × Bool)} {hint : α → ID}
    {value : α} {changed : Bool}
    (run : body store = .ok ((value, changed), final)) :
    Outcome.ofTx body hint store =
      ⟨.ok value, final, if changed then [hint value] else []⟩ := by
  simp only [ofTx, Store.withTx, commit, run]

theorem Outcome.ofTx_error {α : Type} {body : Tx (α × Bool)} {hint : α → ID}
    {failure : Failure} (run : body store = .error failure) :
    Outcome.ofTx body hint store = ⟨.error failure, store, []⟩ := by
  simp only [ofTx, Store.withTx, commit, run]

theorem Outcome.ofTx_cases {α : Type} (body : Tx (α × Bool))
    (hint : α → ID) (store : Store) :
    (∃ failure, Outcome.ofTx body hint store =
        ⟨.error failure, store, []⟩) ∨
      ∃ value changed final, body store = .ok ((value, changed), final) ∧
        Outcome.ofTx body hint store =
          ⟨.ok value, final, if changed then [hint value] else []⟩ := by
  cases run : body store with
  | error failure => exact .inl ⟨failure, ofTx_error run⟩
  | ok outcome =>
      obtain ⟨⟨value, changed⟩, final⟩ := outcome
      exact .inr ⟨value, changed, final, rfl, ofTx_ok run⟩

/-- A request that fails changes nothing. -/
def Outcome.Atomic {α : Type} (outcome : Outcome α) (store : Store) : Prop :=
  ∀ failure, outcome.result = .error failure →
    outcome.store = store ∧ outcome.enqueued = []

theorem Outcome.refuse_atomic {α : Type} (failure : Failure)
    (store : Store) : (Outcome.refuse failure store : Outcome α).Atomic store :=
  fun _ _ => ⟨rfl, rfl⟩

theorem Outcome.ofTx_atomic {α : Type} (body : Tx (α × Bool))
    (hint : α → ID) (store : Store) :
    (Outcome.ofTx body hint store).Atomic store := by
  intro failure failed
  rcases ofTx_cases body hint store with
    ⟨cause, shape⟩ | ⟨value, changed, final, -, shape⟩
  · rw [shape]
    exact ⟨rfl, rfl⟩
  · rw [shape] at failed
    cases failed

theorem Outcome.Atomic.map {α β : Type} {outcome : Outcome α}
    (atomic : outcome.Atomic store) (change : α → β) :
    (outcome.map change).Atomic store := by
  intro failure failed
  cases result : outcome.result with
  | error cause => exact atomic cause result
  | ok value => simp [Outcome.map, result, Except.map] at failed

theorem loadReplay_live {α : Type} {decode : Response → Option α}
    {operation : Operation} {key hash : String} {now : Time}
    {record : Idempotency} {replay : α}
    (live : store.Live operation key now record)
    (decoded : decode record.response = some replay) :
    loadReplay decode operation key hash now store =
      if record.payloadHash = hash then .ok (some replay, store)
      else .error idempotentParameterMismatch := by
  obtain ⟨isKeyed, found, alive⟩ := live
  have unexpired : ¬ record.expiresAt ≤ now.unix := by omega
  unfold loadReplay
  rw [if_neg isKeyed, get_bind, found]
  by_cases same : record.payloadHash = hash
  · simp only [unexpired, same, decoded, ne_eq, not_true_eq_false, if_false,
      if_true]
    rfl
  · simp only [unexpired, same, ne_eq, not_false_eq_true, if_false, if_true]
    rfl

/-- A create whose record lives does not go past its replay. -/
theorem replay_live {α : Type} {decode : Response → Option α}
    {operation : Operation} {key hash : String} {now : Time}
    {record : Idempotency} {replay : α} {next : Option α → Tx (α × Bool)}
    (answers : ∀ value, next (some value) = pure (value, false))
    (live : store.Live operation key now record)
    (decoded : decode record.response = some replay) :
    (loadReplay decode operation key hash now >>= next) store =
      if record.payloadHash = hash then .ok ((replay, false), store)
      else .error idempotentParameterMismatch := by
  have loaded : loadReplay decode operation key hash now store = _ :=
    loadReplay_live live decoded
  by_cases same : record.payloadHash = hash
  · rw [if_pos same] at loaded ⊢
    rw [bind_ok_iff]
    exact ⟨some replay, store, loaded, by rw [answers]; rfl⟩
  · rw [if_neg same] at loaded ⊢
    exact bind_of_error loaded

/-- The service's answer from a record that lives. -/
theorem Outcome.ofTx_replay {α : Type} {body : Tx (α × Bool)} {hint : α → ID}
    {wrap : α → Response} {replay : α} {same : Prop} [Decidable same]
    (answered : body store =
      if same then .ok ((replay, false), store)
      else .error idempotentParameterMismatch) :
    (Outcome.ofTx body hint store).map wrap =
      if same then ⟨.ok (wrap replay), store, []⟩
      else ⟨.error idempotentParameterMismatch, store, []⟩ := by
  by_cases held : same
  · rw [if_pos held] at answered ⊢
    rw [ofTx_ok answered]
    rfl
  · rw [if_neg held] at answered ⊢
    rw [ofTx_error answered]
    rfl

theorem Except.map_ok_iff {ε α β : Type} {change : α → β}
    {result : Except ε α} {value : β} :
    result.map change = .ok value ↔
      ∃ found, result = .ok found ∧ change found = value := by
  cases result <;> simp [Except.map]

namespace Create

variable {create : Create} {payload : Payload} {record : Idempotency}

theorem answer_store (create : Create) (store : Store) :
    (create.answer store).store = create.write.apply store := by
  cases create <;> simp only [answer, write, Write.apply, Outcome.map_store]

section Checked

variable {key : String} {random eniRandom : List UInt8} {now : Time}

theorem answer_vpc {input : CreateVPCInput} {request : VPCRequest}
    (checked : checkVPCRequest input key random now = .ok request) :
    (Create.vpc input key random now).answer store =
      (Outcome.ofTx (createVPCTx request) VPC.id store).map .vpc := by
  have passed : createVPC input key random now store =
      Outcome.ofTx (createVPCTx request) VPC.id store := by
    unfold createVPC
    split
    · rename_i refused
      cases checked.symm.trans refused
    · rename_i same
      cases checked.symm.trans same
      rfl
  exact congrArg (Outcome.map Response.vpc) passed

theorem answer_subnet {input : CreateSubnetInput} {request : SubnetRequest}
    (checked : checkSubnetRequest input key random now = .ok request) :
    (Create.subnet input key random now).answer store =
      (Outcome.ofTx (createSubnetTx request) Subnet.vpcID store).map
        .subnet := by
  have passed : createSubnet input key random now store =
      Outcome.ofTx (createSubnetTx request) Subnet.vpcID store := by
    unfold createSubnet
    split
    · rename_i refused
      cases checked.symm.trans refused
    · rename_i same
      cases checked.symm.trans same
      rfl
  exact congrArg (Outcome.map Response.subnet) passed

theorem answer_instance {input : RunInstanceInput} {request : RunRequest}
    (checked : checkRunRequest input key random eniRandom now =
      .ok request) :
    (Create.inst input key random eniRandom now).answer store =
      (Outcome.ofTx (runTx request) Instance.id store).map .inst := by
  have passed : run input key random eniRandom now store =
      Outcome.ofTx (runTx request) Instance.id store := by
    unfold Nephos.run
    split
    · rename_i refused
      cases checked.symm.trans refused
    · rename_i same
      cases checked.symm.trans same
      rfl
  exact congrArg (Outcome.map Response.inst) passed

end Checked

/-- The answer to a well-formed create whose record lives. -/
theorem answer_live (checked : create.canonical = .ok payload)
    (live : store.Live create.operation create.key create.now record)
    (kind : record.response.operation = create.operation) :
    create.answer store =
      if record.payloadHash = hashPayload payload.fields then
        ⟨.ok record.response, store, []⟩
      else ⟨.error idempotentParameterMismatch, store, []⟩ := by
  cases create with
  | vpc input key random now =>
      rw [canonical, Except.map_ok_iff] at checked
      obtain ⟨request, shape, rfl⟩ := checked
      obtain ⟨-, -, -, rfl, rfl⟩ := checkVPCRequest_ok shape
      cases response : record.response with
      | vpc snapshot =>
          refine (answer_vpc shape).trans (Outcome.ofTx_replay ?_)
          exact replay_live (fun _ => rfl) live (by rw [response]; rfl)
      | _ => simp [response, Response.operation, operation] at kind
  | subnet input key random now =>
      rw [canonical, Except.map_ok_iff] at checked
      obtain ⟨request, shape, rfl⟩ := checked
      obtain ⟨-, -, -, -, rfl, rfl⟩ := checkSubnetRequest_ok shape
      cases response : record.response with
      | subnet snapshot =>
          refine (answer_subnet shape).trans (Outcome.ofTx_replay ?_)
          exact replay_live (fun _ => rfl) live (by rw [response]; rfl)
      | _ => simp [response, Response.operation, operation] at kind
  | inst input key random eniRandom now =>
      rw [canonical, Except.map_ok_iff] at checked
      obtain ⟨request, shape, rfl⟩ := checked
      obtain ⟨-, -, rfl, rfl⟩ := checkRunRequest_ok shape
      cases response : record.response with
      | inst snapshot =>
          refine (answer_instance shape).trans (Outcome.ofTx_replay ?_)
          exact replay_live (fun _ => rfl) live (by rw [response]; rfl)
      | _ => simp [response, Response.operation, operation] at kind

/-- What the create that stores a record answers. -/
structure Commits (create : Create) (store : Store) (record : Idempotency)
    (payload : Payload) : Prop where
  keyed : create.key ≠ ""
  checked : create.canonical = .ok payload
  slot : record.slot = (defaultWorkspace, create.operation, create.key)
  hash : record.payloadHash = hashPayload payload.fields
  kind : record.response.operation = create.operation
  expiry : record.expiresAt = Time.unix (create.now + 24 * hour)
  result : (create.answer store).result = .ok record.response
  enqueued : (create.answer store).enqueued = [record.response.hint]

theorem answer_atomic (create : Create) (store : Store) :
    (create.answer store).Atomic store := by
  cases create with
  | vpc input key random now =>
      apply Outcome.Atomic.map
      unfold createVPC
      split
      · exact Outcome.refuse_atomic _ store
      · exact Outcome.ofTx_atomic _ _ store
  | subnet input key random now =>
      apply Outcome.Atomic.map
      unfold createSubnet
      split
      · exact Outcome.refuse_atomic _ store
      · exact Outcome.ofTx_atomic _ _ store
  | inst input key random eniRandom now =>
      apply Outcome.Atomic.map
      unfold Nephos.run
      split
      · exact Outcome.refuse_atomic _ store
      · exact Outcome.ofTx_atomic _ _ store

/-- The transaction leaves the database as it was, or creates something and
remembers the response. -/
def Remembers {α : Type} (body : Tx (α × Bool)) (store : Store)
    (wrap : α → Response) (operation : Operation) (key hash : String)
    (now : Time) : Prop :=
  ∀ result final, body store = .ok (result, final) →
    final = store ∨
      ∃ (middle : Store) (resourceID : ID), result.2 = true ∧
        final = middle.remember (replayRecord operation key hash resourceID
          (wrap result.1) now) ∧
        middle.idempotency = store.idempotency

theorem Remembers.records {α : Type} {body : Tx (α × Bool)}
    {wrap : α → Response} {operation : Operation} {key hash : String}
    {now : Time} {hint : α → ID}
    (remembers : Remembers body store wrap operation key hash now)
    (recorded : record ∈ (Outcome.ofTx body hint store).store.idempotency)
    (new : record ∉ store.idempotency) :
    ∃ value resourceID, key ≠ "" ∧
      record = replayRecord operation key hash resourceID (wrap value) now ∧
      (Outcome.ofTx body hint store).result = .ok value ∧
      (Outcome.ofTx body hint store).enqueued = [hint value] := by
  rcases Outcome.ofTx_cases body hint store with
    ⟨failure, shape⟩ | ⟨value, changed, final, run, shape⟩
  · rw [shape] at recorded
    exact absurd recorded new
  · rw [shape] at recorded ⊢
    rcases remembers _ _ run with same | ⟨middle, id, grew, change, same⟩
    · exact absurd (same ▸ recorded) new
    · obtain rfl : changed = true := grew
      rw [change, Store.remember] at recorded
      split at recorded
      · exact absurd (same ▸ recorded) new
      · rename_i isKeyed
        rcases List.mem_append.mp recorded with old | only
        · exact absurd (same ▸ (mem_remove_iff.mp old).1) new
        · exact ⟨value, id, isKeyed, List.mem_singleton.mp only, rfl, rfl⟩

theorem Remembers.commits {α : Type} {body : Tx (α × Bool)}
    {wrap : α → Response} {hint : α → ID}
    (remembers : Remembers body store wrap create.operation create.key
      (hashPayload payload.fields) create.now)
    (outcome : create.answer store = (Outcome.ofTx body hint store).map wrap)
    (checked : create.canonical = .ok payload)
    (kind : ∀ value, (wrap value).operation = create.operation)
    (hints : ∀ value, (wrap value).hint = hint value)
    (recorded : record ∈ (create.answer store).store.idempotency)
    (new : record ∉ store.idempotency) :
    create.Commits store record payload := by
  rw [outcome] at recorded
  obtain ⟨value, id, keyed, rfl, result, enqueued⟩ :=
    remembers.records recorded new
  exact
    { keyed, checked
      slot := rfl
      hash := rfl
      kind := kind value
      expiry := rfl
      result := by rw [outcome, Outcome.map, result]; rfl
      enqueued := by rw [outcome, Outcome.map, enqueued, ← hints]; rfl }

theorem answer_records
    (recorded : record ∈ (create.answer store).store.idempotency)
    (new : record ∉ store.idempotency) :
    ∃ payload, create.Commits store record payload := by
  cases create with
  | vpc input key random now =>
      cases shape : checkVPCRequest input key random now with
      | error failure =>
          rw [answer_store, write, Write.apply, createVPC] at recorded
          simp only [shape] at recorded
          exact absurd recorded new
      | ok request =>
          obtain ⟨-, -, -, rfl, rfl⟩ := checkVPCRequest_ok shape
          refine ⟨request.canonical, Remembers.commits ?_ (answer_vpc shape)
            (by rw [canonical, shape]; rfl) (fun _ => rfl) (fun _ => rfl)
            recorded new⟩
          intro result final run
          rcases createVPCTx_ok run with
            ⟨_, _, _, _, _, _, same⟩ | ⟨-, -, grew, change⟩
          · exact .inl same
          · exact .inr ⟨_, _, by rw [grew], change, rfl⟩
  | subnet input key random now =>
      cases shape : checkSubnetRequest input key random now with
      | error failure =>
          rw [answer_store, write, Write.apply, createSubnet] at recorded
          simp only [shape] at recorded
          exact absurd recorded new
      | ok request =>
          obtain ⟨-, -, -, -, rfl, rfl⟩ := checkSubnetRequest_ok shape
          refine ⟨request.canonical, Remembers.commits ?_
            (answer_subnet shape) (by rw [canonical, shape]; rfl)
            (fun _ => rfl) (fun _ => rfl) recorded new⟩
          intro result final run
          rcases createSubnetTx_ok run with
            ⟨_, _, _, _, _, _, same⟩ | ⟨-, -, ⟨_, -, -, grew⟩, change⟩
          · exact .inl same
          · exact .inr ⟨_, _, by rw [grew], change, rfl⟩
  | inst input key random eniRandom now =>
      cases shape : checkRunRequest input key random eniRandom now with
      | error failure =>
          rw [answer_store, write, Write.apply, Nephos.run] at recorded
          simp only [shape] at recorded
          exact absurd recorded new
      | ok request =>
          obtain ⟨-, -, rfl, rfl⟩ := checkRunRequest_ok shape
          refine ⟨request.canonical, Remembers.commits ?_
            (answer_instance shape) (by rw [canonical, shape]; rfl)
            (fun _ => rfl) (fun _ => rfl) recorded new⟩
          intro result final run
          rcases runTx_ok run with
            ⟨_, _, _, _, _, _, same⟩ | ⟨-, _, _, -, -, grew, change⟩
          · exact .inl same
          · exact .inr ⟨_, _, by rw [grew], change, rfl⟩

end Create

theorem Edit.Allowed.keeps_record {edit : Edit} {record : Idempotency}
    (allowed : edit.Allowed store) (member : record ∈ store.idempotency)
    (younger : ∀ new, edit = .saveReplay new → new.slot = record.slot →
      new.createdAt < record.expiresAt) :
    record ∈ (edit.apply store).idempotency := by
  cases allowed with
  | @saveReplay new workspace replaced =>
      have different : record.slot ≠ new.slot := by
        intro same
        have expired := replaced record member same
        have alive := younger new rfl same.symm
        omega
      exact List.mem_append_left _ (mem_remove_iff.mpr ⟨member, different⟩)
  | _ => exact member

theorem edits_run_keeps_record {labels : List Edit} {record : Idempotency}
    (run : edits.Run store labels final)
    (member : record ∈ store.idempotency)
    (younger : ∀ new, .saveReplay new ∈ labels → new.slot = record.slot →
      new.createdAt < record.expiresAt) :
    record ∈ final.idempotency := by
  induction run with
  | nil state => exact member
  | cons step _ induction =>
      obtain ⟨allowed, rfl⟩ := step
      apply induction
      · apply allowed.keeps_record member
        rintro new rfl same
        exact younger new (List.mem_cons_self ..) same
      · intro new inside
        exact younger new (List.mem_cons_of_mem _ inside)

/-- Only a create of the same kind and key makes a record for a slot. -/
theorem Write.Makes.saveReplay {write : Write} {new : Idempotency}
    (makes : write.Makes (.saveReplay new)) :
    ∃ create : Create, write = create.write ∧
      new.slot = (defaultWorkspace, create.operation, create.key) ∧
      new.createdAt = create.now.unix := by
  cases write with
  | createVPC input key random now =>
      exact ⟨.vpc input key random now, rfl, makes⟩
  | createSubnet input key random now =>
      exact ⟨.subnet input key random now, rfl, makes⟩
  | run input key random eniRandom now =>
      exact ⟨.inst input key random eniRandom now, rfl, makes⟩
  | _ => exact makes.elim

/-- A record outlives every run in which no create of its slot reads a clock
past its expiry. -/
theorem database_run_keeps_record {writes : List Write}
    {record : Idempotency} (run : database.Run store writes final)
    (sound : store.Sound) (member : record ∈ store.idempotency)
    (younger : ∀ create : Create, create.write ∈ writes →
      (defaultWorkspace, create.operation, create.key) = record.slot →
      create.now.unix < record.expiresAt) :
    record ∈ final.idempotency ∧ final.Sound := by
  induction run with
  | nil state => exact ⟨member, sound⟩
  | @cons state middle final write writes step _ induction =>
      obtain rfl : middle = write.apply state := step
      obtain ⟨labels, edited, -, all⟩ := write.edited sound.keyed
      apply induction (edits_run_sound edited sound)
      · apply edits_run_keeps_record edited member
        intro new inside same
        obtain ⟨create, rfl, slot, created⟩ := (all _ inside).saveReplay
        rw [created]
        exact younger create (List.mem_cons_self ..) (slot ▸ same)
      · intro create inside
        exact younger create (List.mem_cons_of_mem _ inside)

/-- A payload whose prefix is one that the services accept. -/
def Payload.Accepted : Payload → Prop
  | .vpc _ cidr | .subnet _ _ cidr _ => Admissible cidr
  | .inst _ _ => True

def Payload.operation : Payload → Operation
  | .vpc _ _ => .createVPC
  | .subnet _ _ _ _ => .createSubnet
  | .inst _ _ => .runInstance

theorem Create.canonical_accepted {create : Create} {payload : Payload}
    (checked : create.canonical = .ok payload) :
    payload.Accepted ∧ payload.operation = create.operation := by
  cases create with
  | vpc input key random now =>
      rw [canonical, Except.map_ok_iff] at checked
      obtain ⟨request, shape, rfl⟩ := checked
      exact ⟨parseCIDR_admissible (checkVPCRequest_ok shape).2.1, rfl⟩
  | subnet input key random now =>
      rw [canonical, Except.map_ok_iff] at checked
      obtain ⟨request, shape, rfl⟩ := checked
      exact ⟨parseCIDR_admissible (checkSubnetRequest_ok shape).2.1, rfl⟩
  | inst input key random eniRandom now =>
      rw [canonical, Except.map_ok_iff] at checked
      obtain ⟨request, shape, rfl⟩ := checked
      exact ⟨trivial, rfl⟩

/-- The hashed fields determine an accepted payload. -/
theorem Payload.fields_injective {left right : Payload}
    (leftAccepted : left.Accepted) (rightAccepted : right.Accepted)
    (kind : left.operation = right.operation)
    (same : left.fields = right.fields) : left = right := by
  cases left with
  | vpc name cidr =>
      cases right with
      | vpc otherName otherCIDR =>
          simp only [fields, List.cons.injEq, and_true] at same
          obtain ⟨rfl, text⟩ := same
          rw [Prefix.text_injective leftAccepted rightAccepted text]
      | _ => cases kind
  | subnet name vpcID cidr zone =>
      cases right with
      | subnet otherName otherVPC otherCIDR otherZone =>
          simp only [fields, List.cons.injEq, and_true] at same
          obtain ⟨rfl, rfl, text, rfl⟩ := same
          rw [Prefix.text_injective leftAccepted rightAccepted text]
      | _ => cases kind
  | inst name subnetID =>
      cases right with
      | inst otherName otherSubnet =>
          simp only [fields, List.cons.injEq, and_true] at same
          obtain ⟨rfl, rfl⟩ := same
          rfl
      | _ => cases kind

/-- Creates with an idempotency key happen once.  A request that fails leaves
no trace.  After the create that commits the record of a key, and while no
create with that key reads a clock past the expiry of the record, each
well-formed create of that kind and key is answered from the record without
a change to the database and without a hint: a request for the same gets the
first response, and a request for anything else is refused, unless the two
payloads have the same hash. -/
theorem keyedCreate_exactly_once {store : Store}
    (reachable : database.Reachable store) (first : Create) :
    (∀ failure, (first.answer store).result = .error failure →
      (first.answer store).store = store ∧
        (first.answer store).enqueued = []) ∧
    ∀ record ∈ (first.answer store).store.idempotency,
      record ∉ store.idempotency →
      first.key ≠ "" ∧
      (first.answer store).result = .ok record.response ∧
      (first.answer store).enqueued = [record.response.hint] ∧
      record.expiresAt = Time.unix (first.now + 24 * hour) ∧
      ∃ payload, first.canonical = .ok payload ∧
      ∀ writes final, database.Run (first.answer store).store writes final →
      (∀ create : Create, create.write ∈ writes →
        create.operation = first.operation → create.key = first.key →
        create.now.unix < record.expiresAt) →
      ∀ later : Create, later.operation = first.operation →
      later.key = first.key → later.now.unix < record.expiresAt →
      ∀ laterPayload, later.canonical = .ok laterPayload →
        (laterPayload = payload →
          later.answer final = ⟨.ok record.response, final, []⟩) ∧
        (laterPayload ≠ payload →
          (hashPayload laterPayload.fields = hashPayload payload.fields →
            laterPayload.fields = payload.fields) →
          later.answer final =
            ⟨.error idempotentParameterMismatch, final, []⟩) := by
  refine ⟨first.answer_atomic store, ?_⟩
  intro record recorded new
  obtain ⟨payload, commits⟩ := Create.answer_records recorded new
  refine ⟨commits.keyed, commits.result, commits.enqueued, commits.expiry,
    payload, commits.checked, ?_⟩
  intro writes final run clocks later kind key alive laterPayload checked
  have committed : database.Reachable (first.answer store).store :=
    reachable.step (first.answer_store store)
  obtain ⟨kept, sound⟩ := database_run_keeps_record run
    (database_reachable_sound committed) recorded (by
      intro create inside slot
      rw [commits.slot, Prod.mk.injEq, Prod.mk.injEq] at slot
      exact clocks create inside slot.2.1 slot.2.2)
  have live : final.Live later.operation later.key later.now record := by
    rw [kind, key]
    exact Store.live_of_mem sound.keyed commits.keyed kept commits.slot alive
  have answered := Create.answer_live checked live
    (commits.kind.trans kind.symm)
  constructor
  · rintro rfl
    rw [answered, if_pos commits.hash]
  · intro different injective
    rw [answered, if_neg]
    intro collision
    obtain ⟨firstAccepted, firstKind⟩ :=
      Create.canonical_accepted commits.checked
    obtain ⟨laterAccepted, laterKind⟩ := Create.canonical_accepted checked
    apply different
    apply Payload.fields_injective laterAccepted firstAccepted
    · rw [firstKind, laterKind, kind]
    · exact injective (collision.symm.trans commits.hash)

/-- A VPC is created with a key and then asked to be deleted; a retry and a
request for another VPC with the same key come in the last second before the
record expires. -/
theorem keyedCreate_exactly_once_firstVPC :
    let create (name : String) (now : Time) : Create :=
      .vpc { name := name, cidrBlock := "10.0.0.0/16" } "key"
        (List.replicate 9 1) now
    let first := create "net" 999999999
    let last : Time := 86399 * 1000000000 + 999999999
    let id := (first.answer .empty).enqueued.headD ""
    let final := Write.apply (first.answer .empty).store
      (.deleteVPC id 2000000000)
    final.vpcs.map (fun vpc => (vpc.id, vpc.deletionRequested)) =
        [(id, true)] ∧
      ∃ record ∈ final.idempotency, record.response.hint = id ∧
        (create " net " last).answer final =
          ⟨.ok record.response, final, []⟩ ∧
        (create "other" last).answer final =
          ⟨.error idempotentParameterMismatch, final, []⟩ := by
  intro create first last id final
  have recorded : (first.answer .empty).store.idempotency ≠ [] := by
    decide +kernel
  obtain ⟨record, member⟩ := List.exists_mem_of_ne_nil _ recorded
  have empty : database.Reachable .empty := .initial rfl
  obtain ⟨-, -, enqueued, expiry, payload, checked, answers⟩ :=
    (keyedCreate_exactly_once empty first).2 record member (by
      intro inside
      cases inside)
  have younger : last.unix < record.expiresAt := by
    rw [expiry]
    decide
  have run : database.Run (first.answer .empty).store
      [.deleteVPC id 2000000000] final := .cons rfl (.nil final)
  replace answers := answers _ final run (by
    intro create inside
    cases create <;> simp [Create.write] at inside)
  have same : (create " net " last).canonical = first.canonical := by
    decide +kernel
  have different : (create "other" last).canonical =
      .ok (.vpc "other" (Prefix.ofAddr (.v4 0x0a000000#32) 16)) := by
    decide +kernel
  have wanted : first.canonical =
      .ok (.vpc "net" (Prefix.ofAddr (.v4 0x0a000000#32) 16)) := by
    decide +kernel
  obtain rfl := Except.ok.inj (checked.symm.trans wanted)
  refine ⟨by decide +kernel, record, ?_, ?_,
    (answers (create " net " last) rfl rfl younger _
      (same.trans wanted)).1 rfl,
    (answers (create "other" last) rfl rfl younger _ different).2
      (by decide) ?_⟩
  · exact member
  · change _ = (first.answer .empty).enqueued.headD ""
    rw [enqueued]
    rfl
  · intro collision
    exact absurd collision (by decide +kernel)

/-- The clocks are cut to seconds.  Less than 24 hours after the first
request, a retry with its key is taken for a new request, and so is a request
for something else. -/
theorem keyedCreate_expires_early :
    let create (name cidr : String) (random : List UInt8) (now : Time) :
        Create := .vpc { name := name, cidrBlock := cidr } "key" random now
    let first := create "net" "10.0.0.0/16" (List.replicate 9 1) 1000999999999
    let store := (first.answer .empty).store
    let now : Time := 87400500000000
    let retry := create "net" "10.0.0.0/16" (List.replicate 9 2) now
    let other := create "other" "10.1.0.0/16" (List.replicate 9 2) now
    first.now < now ∧ now < first.now + 24 * hour ∧
      (retry.answer store).result =
        .error (nameConflict "VPC" "\"net\"") ∧
      (other.answer store).enqueued ≠ [] ∧
      (other.answer store).store.vpcs.length = 2 := by
  decide +kernel

end Nephos
