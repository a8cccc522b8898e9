import Nephos.Service.Spec
import Nephos.Store.RecordSpec
import Nephos.Store.TopologySpec

/-!
# The database under its writers

Transactions run one after the other on the single connection of the store,
so that an interleaving of the services and the reconcilers is a sequence of
the eleven writes below, each with arguments of its own.  Every write is a
run of edits of different resources, which carries what is proved for edits
over to every database that the writes can reach.
-/

namespace Nephos

open Transaction Transition.System

/-- A write with its arguments.  Identities are drawn from `random` bytes and
the clock is read before the transaction. -/
inductive Write where
  | createVPC (input : CreateVPCInput) (key : String) (random : List UInt8)
      (now : Time)
  | deleteVPC (id : ID) (now : Time)
  | createSubnet (input : CreateSubnetInput) (key : String)
      (random : List UInt8) (now : Time)
  | deleteSubnet (id : ID) (now : Time)
  | run (input : RunInstanceInput) (key : String)
      (random eniRandom : List UInt8) (now : Time)
  | terminateSnapshot (id : ID) (now : Time)
  | recordTopology (vpc : VPC) (subnets : List Subnet)
      (effectErr : Option String) (now : Time)
  | recordRuntimeID (instanceID : ID) (generation : Int)
      (runtimeID : RuntimeID)
  | retainTerminatingRuntimeID (instanceID : ID) (runtimeID : RuntimeID)
  | recordInstance (snapshot : Instance) (status : InstanceState)
      (reason : String) (observed : Bool) (now : Time)
  | finishInstanceTermination (snapshot : Instance) (now : Time)

namespace Write

/-- The database after the write, which an error leaves as it was. -/
def apply (store : Store) : Write → Store
  | .createVPC input key random now =>
      (Nephos.createVPC input key random now store).store
  | .deleteVPC id now => (Nephos.deleteVPC id now store).store
  | .createSubnet input key random now =>
      (Nephos.createSubnet input key random now store).store
  | .deleteSubnet id now => (Nephos.deleteSubnet id now store).store
  | .run input key random eniRandom now =>
      (Nephos.run input key random eniRandom now store).store
  | .terminateSnapshot id now => (Nephos.terminateSnapshot id now store).store
  | .recordTopology vpc subnets effectErr now =>
      (store.withTx (Nephos.recordTopology vpc subnets effectErr now)).2
  | .recordRuntimeID instanceID generation runtimeID =>
      (store.recordRuntimeID instanceID generation runtimeID).2
  | .retainTerminatingRuntimeID instanceID runtimeID =>
      (store.retainTerminatingRuntimeID instanceID runtimeID).2
  | .recordInstance snapshot status reason observed now =>
      (store.withTx
        (Nephos.recordInstance snapshot status reason observed now)).2
  | .finishInstanceTermination snapshot now =>
      (store.withTx (Nephos.finishInstanceTermination snapshot now)).2

/-- The writes as the controllers issue them. -/
def Issued : Write → Prop
  | .recordInstance _ status reason observed _ =>
      IssuedStatus status reason observed
  | _ => True

/-- The edits a write can consist of. -/
def Makes : Write → Edit → Prop
  | .createVPC _ _ _ now, .createVPC _ time => time = now.unix
  | .createSubnet _ _ _ now, .createSubnet _ time => time = now.unix
  | .run _ _ _ _ now, .createInstance _ _ time => time = now.unix
  | .createVPC _ key _ now, .saveReplay record =>
      record.slot = (defaultWorkspace, .createVPC, key) ∧
        record.createdAt = now.unix
  | .createSubnet _ key _ now, .saveReplay record =>
      record.slot = (defaultWorkspace, .createSubnet, key) ∧
        record.createdAt = now.unix
  | .run _ key _ _ now, .saveReplay record =>
      record.slot = (defaultWorkspace, .runInstance, key) ∧
        record.createdAt = now.unix
  | .deleteVPC id _, .markVPC row _ => row.id = id
  | .deleteSubnet id _, .markSubnet row _ => row.id = id
  | .terminateSnapshot id _, .markInstance row _ => row.id = id
  | .recordTopology vpc _ _ _, edit => edit.Records vpc.id
  | .recordRuntimeID instanceID generation runtimeID,
      .setRuntimeID row recorded =>
        row.id = instanceID ∧ row.generation = generation ∧
          row.deletionRequested = false ∧ recorded = runtimeID
  | .retainTerminatingRuntimeID instanceID runtimeID,
      .setRuntimeID row recorded =>
        row.id = instanceID ∧ row.deletionRequested = true ∧
          recorded = runtimeID
  | .recordInstance snapshot status reason observed _,
      .instanceStatus row _ recorded text seen _ =>
        row.id = snapshot.id ∧ recorded = status ∧ text = reason ∧
          seen = observed
  | .finishInstanceTermination snapshot _, .removeInstance row _ _ =>
      row.id = snapshot.id
  | _, _ => False

theorem Makes.issued {write : Write} {edit : Edit} (makes : write.Makes edit)
    (issued : write.Issued) : edit.Issued := by
  cases edit with
  | instanceStatus row eni status reason observed time =>
      cases write with
      | recordInstance snapshot recorded text seen now =>
          obtain ⟨-, rfl, rfl, rfl⟩ := makes
          exact issued
      | _ => exact makes.elim
  | _ => trivial

end Write

/-- The databases that sequences of writes lead to from a migrated one. -/
def database : Transition.System Store Write where
  Initial store := store = .empty
  Step store write final := final = write.apply store

/-- The second database comes from the first by edits of different
resources. -/
def Edited (store final : Store) (accepted : Edit → Prop) : Prop :=
  ∃ labels, edits.Run store labels final ∧
    (labels.filterMap Edit.touched).Nodup ∧ ∀ edit ∈ labels, accepted edit

variable {store final : Store}

theorem Edited.refl (store : Store) (accepted : Edit → Prop) :
    Edited store store accepted :=
  ⟨[], .nil store, .nil, by simp⟩

theorem Edited.single {edit : Edit} {accepted : Edit → Prop}
    (allowed : edit.Allowed store) (isAccepted : accepted edit) :
    Edited store (edit.apply store) accepted := by
  refine ⟨[edit], .single ⟨allowed, rfl⟩, ?_, by simpa using isAccepted⟩
  cases touched : edit.touched <;> simp [touched]

/-- What a transaction does when it commits, and nothing otherwise. -/
theorem Edited.withTx {α : Type} {body : Tx α} {accepted : Edit → Prop}
    (committed : ∀ {value final}, body store = .ok (value, final) →
      Edited store final accepted) :
    Edited store (store.withTx body).2 accepted := by
  rcases commit_cases body store with
    ⟨failure, outcome⟩ | ⟨value, final, run, outcome⟩
  · rw [Store.withTx, outcome]
    exact .refl store accepted
  · rw [Store.withTx, outcome]
    exact committed run

theorem Edited.ofTx {α : Type} {body : Tx (α × Bool)} {hint : α → ID}
    {accepted : Edit → Prop}
    (committed : ∀ {value final}, body store = .ok (value, final) →
      Edited store final accepted) :
    Edited store (Outcome.ofTx body hint store).store accepted := by
  have edited := Edited.withTx committed
  unfold Outcome.ofTx
  split
  · rename_i failure after outcome
    rwa [outcome] at edited
  · rename_i value changed after outcome
    rwa [outcome] at edited

/-- The record of a slot is the one that a request finds. -/
theorem Store.live_of_mem (keyed : store.Keyed) {operation : Operation}
    {key : String} {now : Time} {record : Idempotency} (isKeyed : key ≠ "")
    (member : record ∈ store.idempotency)
    (slot : record.slot = (defaultWorkspace, operation, key))
    (alive : now.unix < record.expiresAt) :
    store.Live operation key now record := by
  refine ⟨isKeyed, ?_, alive⟩
  cases lookup : store.getIdempotency defaultWorkspace operation key with
  | none =>
      obtain ⟨workspace, sameOperation, sameKey⟩ :
          record.workspaceID = defaultWorkspace ∧
            record.operation = operation ∧ record.key = key := by
        simpa [Idempotency.slot] using slot
      have absent := List.find?_eq_none.mp lookup record member
      simp [workspace, sameOperation, sameKey] at absent
  | some found =>
      obtain ⟨foundMember, foundSlot⟩ := Store.getIdempotency_some lookup
      rw [keyed.replays.eq_of_mem foundMember member
        (foundSlot.trans slot.symm)]

/-- A record that is not live under its key may be replaced. -/
theorem replaceable_of_not_live (keyed : store.Keyed) {operation : Operation}
    {key : String} {now : Time} (isKeyed : key ≠ "")
    (expired : ∀ record, ¬ store.Live operation key now record)
    {old : Idempotency} (member : old ∈ store.idempotency)
    (slot : old.slot = (defaultWorkspace, operation, key)) :
    old.expiresAt ≤ now.unix := by
  by_contra alive
  exact expired old
    (Store.live_of_mem keyed isKeyed member slot (by omega))

/-- A create with the record of its response. -/
theorem Edited.create {edit : Edit} {operation : Operation}
    {key hash : String} {resourceID : ID} {response : Response} {now : Time}
    {accepted : Edit → Prop} (keyed : store.Keyed)
    (allowed : edit.Allowed store) (isAccepted : accepted edit)
    (saves : accepted (.saveReplay
      (replayRecord operation key hash resourceID response now)))
    (sameRecords : (edit.apply store).idempotency = store.idempotency)
    (expired : ∀ record, ¬ store.Live operation key now record) :
    Edited store ((edit.apply store).remember
      (replayRecord operation key hash resourceID response now))
      accepted := by
  unfold Store.remember
  split
  · exact .single allowed isAccepted
  · rename_i isKeyed
    refine ⟨[edit, .saveReplay _], .cons ⟨allowed, rfl⟩
      (.single ⟨.saveReplay rfl ?_, rfl⟩), ?_, ?_⟩
    · rw [sameRecords]
      intro old member slot
      exact replaceable_of_not_live keyed isKeyed expired member slot
    · have quiet : (Edit.saveReplay (replayRecord operation key hash
          resourceID response now)).touched = none := rfl
      cases touched : edit.touched <;> simp [touched, quiet]
    · simpa using ⟨isAccepted, saves⟩

theorem createVPC_edited (keyed : store.Keyed) (input : CreateVPCInput)
    (key : String) (random : List UInt8) (now : Time) :
    Edited store (createVPC input key random now store).store
      (Write.createVPC input key random now).Makes := by
  unfold createVPC
  split
  · exact .refl store _
  · rename_i request checked
    obtain ⟨-, cidr, identified, rfl, rfl⟩ := checkVPCRequest_ok checked
    apply Edited.ofTx
    intro result final run
    rcases createVPCTx_ok run with
      replayed | ⟨expired, unused, shape, change⟩
    · obtain ⟨_, _, _, _, _, _, rfl⟩ := replayed
      exact .refl _ _
    · rw [change]
      refine Edited.create keyed ?_ (by exact rfl) (by exact ⟨rfl, rfl⟩) rfl
        expired
      rw [shape]
      exact .createVPC ⟨identified, rfl, rfl, rfl, rfl, rfl, rfl⟩
        (parseCIDR_admissible cidr) unused rfl

theorem createSubnet_edited (keyed : store.Keyed) (input : CreateSubnetInput)
    (key : String) (random : List UInt8) (now : Time) :
    Edited store (createSubnet input key random now store).store
      (Write.createSubnet input key random now).Makes := by
  unfold createSubnet
  split
  · exact .refl store _
  · rename_i request checked
    obtain ⟨-, cidr, -, -, rfl, rfl⟩ := checkSubnetRequest_ok checked
    apply Edited.ofTx
    intro result final run
    rcases createSubnetTx_ok run with
      replayed | ⟨expired, unused, ⟨vpc, fits, -, shape⟩, change⟩
    · obtain ⟨_, _, _, _, _, _, rfl⟩ := replayed
      exact .refl _ _
    · rw [change]
      refine Edited.create keyed ?_ (by exact rfl) (by exact ⟨rfl, rfl⟩) rfl
        expired
      rw [shape]
      exact .createSubnet fits.parent rfl fits.live
        ⟨rfl, rfl, rfl, rfl, rfl, rfl⟩
        (parseCIDR_admissible cidr)
        fits.range fits.disjoint unused rfl

theorem run_edited (keyed : store.Keyed) (input : RunInstanceInput)
    (key : String) (random eniRandom : List UInt8) (now : Time) :
    Edited store (run input key random eniRandom now store).store
      (Write.run input key random eniRandom now).Makes := by
  unfold run
  split
  · exact .refl store _
  · rename_i request checked
    obtain ⟨-, -, rfl, rfl⟩ := checkRunRequest_ok checked
    apply Edited.ofTx
    intro result final run
    rcases runTx_ok run with
      replayed | ⟨expired, subnet, address, fits, -, shape, change⟩
    · obtain ⟨_, _, _, _, _, _, rfl⟩ := replayed
      exact .refl _ _
    · rw [change]
      refine Edited.create keyed ?_ (by exact rfl) (by exact ⟨rfl, rfl⟩) rfl
        expired
      exact .createInstance fits.parent rfl fits.live
        ⟨rfl, rfl, rfl, rfl, rfl, rfl, rfl⟩ ⟨rfl, rfl, rfl, rfl, rfl⟩ rfl
        fits.single rfl fits.lease fits.is4 fits.mac fits.unused
        fits.eniUnused fits.distinct rfl (by simp [RunRequest.eni]; omega)

theorem deleteVPC_edited (keyed : store.Keyed) (id : ID) (now : Time) :
    Edited store (deleteVPC id now store).store
      (Write.deleteVPC id now).Makes := by
  apply Edited.ofTx
  intro result final run
  obtain ⟨vpc, member, sameID, childless, outcome⟩ := deleteVPCTx_ok keyed run
  rcases outcome with ⟨-, -, rfl⟩ | ⟨live, -, rfl⟩
  · exact .refl _ _
  · exact .single (.markVPC member live childless) sameID

theorem deleteSubnet_edited (keyed : store.Keyed) (id : ID) (now : Time) :
    Edited store (deleteSubnet id now store).store
      (Write.deleteSubnet id now).Makes := by
  apply Edited.ofTx
  intro result final run
  obtain ⟨subnet, member, sameID, childless, outcome⟩ :=
    deleteSubnetTx_ok keyed run
  rcases outcome with ⟨-, -, rfl⟩ | ⟨live, -, rfl⟩
  · exact .refl _ _
  · exact .single (.markSubnet member live childless) sameID

theorem terminateSnapshot_edited (keyed : store.Keyed) (id : ID)
    (now : Time) :
    Edited store (terminateSnapshot id now store).store
      (Write.terminateSnapshot id now).Makes := by
  apply Edited.ofTx
  intro result final run
  obtain ⟨row, member, eni, -, sameID, -, outcome⟩ := terminateTx_ok keyed run
  rcases outcome with ⟨-, -, rfl⟩ | ⟨live, -, rfl⟩
  · exact .refl _ _
  · exact .single (.markInstance member live) sameID

theorem recordRuntimeID_edited (keyed : store.Keyed) (id : ID)
    (generation : Int) (runtimeID : RuntimeID) :
    Edited store (store.recordRuntimeID id generation runtimeID).2
      (Write.recordRuntimeID id generation runtimeID).Makes := by
  rcases recordRuntimeID_cases keyed id generation runtimeID with
    ⟨failure, refused⟩ |
      ⟨row, member, sameID, current, live, nonempty, outcome⟩
  · rw [refused]
    exact .refl _ _
  · rcases outcome with ⟨-, same⟩ | ⟨unset, changed⟩
    · rw [same]
      exact .refl _ _
    · rw [changed]
      exact .single (.setRuntimeID member unset nonempty)
        ⟨sameID, current, live, rfl⟩

theorem retainTerminatingRuntimeID_edited (keyed : store.Keyed) (id : ID)
    (runtimeID : RuntimeID) :
    Edited store (store.retainTerminatingRuntimeID id runtimeID).2
      (Write.retainTerminatingRuntimeID id runtimeID).Makes := by
  rcases retainTerminatingRuntimeID_cases keyed id runtimeID with
    ⟨failure, refused⟩ |
      ⟨row, member, sameID, requested, nonempty, unset, changed⟩
  · rw [refused]
    exact .refl _ _
  · rw [changed]
    exact .single (.setRuntimeID member unset nonempty)
      ⟨sameID, requested, rfl⟩

theorem recordInstance_edited (keyed : store.Keyed) (snapshot : Instance)
    (status : InstanceState) (reason : String) (observed : Bool)
    (now : Time) :
    Edited store (store.withTx
      (recordInstance snapshot status reason observed now)).2
      (Write.recordInstance snapshot status reason observed now).Makes := by
  apply Edited.withTx
  intro result final run
  obtain ⟨row, eni, describes, accepted, outcome⟩ :=
    recordInstance_ok keyed run
  rcases outcome with ⟨-, rfl⟩ | ⟨changes, rfl⟩
  · exact .refl _ _
  · exact .single (.instanceStatus describes.member describes.eniMember
      describes.owner changes accepted)
      ⟨describes.same.1, rfl, rfl, rfl⟩

theorem finishInstanceTermination_edited (keyed : store.Keyed)
    (snapshot : Instance) (now : Time) :
    Edited store (store.withTx (finishInstanceTermination snapshot now)).2
      (Write.finishInstanceTermination snapshot now).Makes := by
  apply Edited.withTx
  intro result final run
  obtain ⟨row, eni, describes, requested, rfl⟩ :=
    finishInstanceTermination_ok keyed run
  exact .single (.removeInstance describes.member describes.eniMember
    describes.owner requested) describes.same.1

/-- Every write is a run of edits of different resources. -/
theorem Write.edited (keyed : store.Keyed) (write : Write) :
    Edited store (write.apply store) write.Makes := by
  cases write with
  | createVPC input key random now =>
      exact createVPC_edited keyed input key random now
  | deleteVPC id now => exact deleteVPC_edited keyed id now
  | createSubnet input key random now =>
      exact createSubnet_edited keyed input key random now
  | deleteSubnet id now => exact deleteSubnet_edited keyed id now
  | run input key random eniRandom now =>
      exact run_edited keyed input key random eniRandom now
  | terminateSnapshot id now => exact terminateSnapshot_edited keyed id now
  | recordTopology vpc subnets effectErr now =>
      exact Edited.withTx fun run => recordTopology_run keyed run
  | recordRuntimeID instanceID generation runtimeID =>
      exact recordRuntimeID_edited keyed instanceID generation runtimeID
  | retainTerminatingRuntimeID instanceID runtimeID =>
      exact retainTerminatingRuntimeID_edited keyed instanceID runtimeID
  | recordInstance snapshot status reason observed now =>
      exact recordInstance_edited keyed snapshot status reason observed now
  | finishInstanceTermination snapshot now =>
      exact finishInstanceTermination_edited keyed snapshot now

/-- The invariants of every edit. -/
structure Store.Sound (store : Store) : Prop where
  keyed : store.Keyed
  topology : store.Topology

theorem Edit.Allowed.sound {edit : Edit} (allowed : edit.Allowed store)
    (sound : store.Sound) : (edit.apply store).Sound :=
  ⟨allowed.keyed sound.keyed, allowed.topology sound.keyed sound.topology⟩

theorem edits_run_sound {labels : List Edit}
    (run : edits.Run store labels final) (sound : store.Sound) :
    final.Sound :=
  run.invariant Store.Sound (fun held step => step.2 ▸ step.1.sound held)
    sound

theorem edits_reachable_sound (reachable : edits.Reachable store) :
    store.Sound := by
  obtain ⟨start, labels, rfl, run⟩ := reachable
  exact edits_run_sound run ⟨.empty, .empty⟩

/-- The writes reach nothing that edits do not. -/
theorem database_reachable_edits (reachable : database.Reachable store) :
    edits.Reachable store := by
  refine reachable.invariant edits.Reachable ?_ ?_
  · rintro start rfl
    exact .initial rfl
  · rintro state write next held rfl
    obtain ⟨labels, run, -⟩ := write.edited (edits_reachable_sound held).keyed
    exact held.run run

theorem database_reachable_sound (reachable : database.Reachable store) :
    store.Sound :=
  edits_reachable_sound (database_reachable_edits reachable)

/-- Writes are total, so that every sequence of them is a run. -/
theorem database_run (store : Store) (writes : List Write) :
    database.Run store writes (writes.foldl Write.apply store) := by
  induction writes generalizing store with
  | nil => exact .nil store
  | cons write writes induction => exact .cons rfl (induction _)

/-- The first three requests of a new installation: a VPC, a subnet of it and
an instance in the subnet. -/
def firstRequests : List Write :=
  [ .createVPC { name := "net", cidrBlock := "10.0.0.0/16" } ""
      (List.replicate 9 1) 0,
    .createSubnet
      { name := "sub", vpcID := "vpc-01010101010101010"
        cidrBlock := "10.0.1.0/24", availabilityZone := "local-1a" } ""
      (List.replicate 9 2) 0,
    .run { name := "web", subnetID := "subnet-02020202020202020" } ""
      (List.replicate 9 3) (List.replicate 9 4) 0 ]

@[irreducible] def firstStore : Store :=
  firstRequests.foldl Write.apply .empty

theorem firstStore_reachable : database.Reachable firstStore := by
  unfold firstStore
  exact ⟨.empty, firstRequests, rfl, database_run _ _⟩

end Nephos
