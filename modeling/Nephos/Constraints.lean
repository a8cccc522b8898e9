import Mathlib.Data.List.TakeWhile
import Nephos.Reads

/-!
# Constraint violations

The schema repeats some of what the services and the reconcilers establish
themselves.  No write of theirs violates a constraint of it, except where a
new resource is given an identity that is taken, or a hardware address that
another identity is mapped to.
-/

namespace Nephos

open Transaction Transition.System

theorem generationsFit.marked {generation observed : Int}
    (fits : generationsFit generation observed) :
    generationsFit (generation + 1) observed := by
  obtain ⟨positive, lower, upper⟩ := fits
  exact ⟨by omega, lower, by omega⟩

theorem generationsFit.status {generation observed : Int}
    (fits : generationsFit generation observed) (succeeded : Bool) :
    generationsFit generation
      (if succeeded then generation else observed) := by
  obtain ⟨positive, lower, upper⟩ := fits
  cases succeeded with
  | true => exact ⟨positive, by omega, Int.le_refl _⟩
  | false => exact ⟨positive, lower, upper⟩

/-- The generation checks of the four resource tables hold. -/
structure Store.Counted (store : Store) : Prop where
  vpcs : ∀ row ∈ store.vpcs,
    generationsFit row.generation row.observedGeneration
  subnets : ∀ row ∈ store.subnets,
    generationsFit row.generation row.observedGeneration
  instances : ∀ row ∈ store.instances,
    generationsFit row.generation row.observedGeneration
  enis : ∀ row ∈ store.enis,
    generationsFit row.generation row.observedGeneration

theorem Store.Counted.empty : Store.empty.Counted := by
  constructor <;> simp [Store.empty]

theorem ENI.withStatus_fits {row : ENI}
    (fits : generationsFit row.generation row.observedGeneration)
    (terminating : Bool) (reason : String) (observed : Bool) :
    generationsFit (row.withStatus terminating reason observed).generation
      (row.withStatus terminating reason observed).observedGeneration := by
  cases terminating with
  | true => exact fits
  | false => exact fits.status observed

theorem Edit.Allowed.counted {store : Store} {edit : Edit}
    (allowed : edit.Allowed store) (counted : store.Counted) :
    (edit.apply store).Counted := by
  cases allowed with
  | @createVPC row time fresh block unused index =>
      exact { counted with
        vpcs := forall_append counted.vpcs (by
          rw [fresh.generation, fresh.observed]
          decide) }
  | @markVPC row time member live childless =>
      exact { counted with
        vpcs := forall_replace member (by rfl) counted.vpcs
          (counted.vpcs row member).marked }
  | @vpcStatus row state reason succeeded time member changes status =>
      exact { counted with
        vpcs := forall_replace member (by rfl) counted.vpcs
          ((counted.vpcs row member).status succeeded) }
  | removeVPC member requested childless =>
      exact { counted with
        vpcs := fun row inside =>
          counted.vpcs row (mem_remove_iff.mp inside).1 }
  | @createSubnet row vpc time parent parentID parentLive fresh =>
      exact { counted with
        subnets := forall_append counted.subnets (by
          rw [fresh.generation, fresh.observed]
          decide) }
  | @markSubnet row time member live childless =>
      exact { counted with
        subnets := forall_replace member (by rfl) counted.subnets
          (counted.subnets row member).marked }
  | @subnetStatus row state reason succeeded time member changes status =>
      exact { counted with
        subnets := forall_replace member (by rfl) counted.subnets
          ((counted.subnets row member).status succeeded) }
  | removeSubnet member requested =>
      exact { counted with
        subnets := fun row inside =>
          counted.subnets row (mem_remove_iff.mp inside).1 }
  | createInstance parent parentID parentLive fresh eniFresh =>
      exact { counted with
        instances := forall_append counted.instances (by
          rw [fresh.generation, fresh.observed]
          decide)
        enis := forall_append counted.enis (by
          rw [eniFresh.generation, eniFresh.observed]
          decide) }
  | @markInstance row time member live =>
      exact { counted with
        instances := forall_replace member (by rfl) counted.instances
          (counted.instances row member).marked }
  | @instanceStatus row eni status reason observed time member eniMember =>
      exact { counted with
        instances := forall_replace member (by rfl) counted.instances
          ((counted.instances row member).status observed)
        enis := forall_replace eniMember (ENI.withStatus_id ..) counted.enis
          (ENI.withStatus_fits (counted.enis eni eniMember) _ _ _) }
  | removeInstance member eniMember owner requested =>
      exact { counted with
        instances := fun row inside =>
          counted.instances row (mem_remove_iff.mp inside).1
        enis := fun eni inside =>
          counted.enis eni (mem_remove_iff.mp inside).1 }
  | @setRuntimeID row runtimeID member unset nonempty =>
      exact { counted with
        instances := forall_replace member (by rfl) counted.instances
          (counted.instances row member) }
  | saveReplay workspace replaced => exact { counted with }

/-- What the writes rely on. -/
structure Store.Valid (store : Store) : Prop where
  sound : store.Sound
  counted : store.Counted

theorem edits_run_valid {store final : Store} {labels : List Edit}
    (run : edits.Run store labels final) (valid : store.Valid) :
    final.Valid := by
  refine run.invariant Store.Valid (fun {state edit next} held step => ?_)
    valid
  obtain ⟨allowed, rfl⟩ := step
  exact ⟨allowed.sound held.sound, allowed.counted held.counted⟩

theorem Write.valid {store : Store} (write : Write) (valid : store.Valid) :
    (write.apply store).Valid := by
  obtain ⟨labels, run, -⟩ := write.edited valid.sound.keyed
  exact edits_run_valid run valid

theorem database_run_valid {store final : Store} {writes : List Write}
    (run : database.Run store writes final) (valid : store.Valid) :
    final.Valid :=
  run.invariant Store.Valid (fun {_ write _} held step =>
    step ▸ write.valid held) valid

theorem database_reachable_valid {store : Store}
    (reachable : database.Reachable store) : store.Valid := by
  obtain ⟨start, labels, rfl, run⟩ := database_reachable_edits reachable
  exact edits_run_valid run ⟨⟨.empty, .empty⟩, .empty⟩

theorem validateName_fits {raw : List UInt8} {name : String}
    (validated : validateName raw = .ok name) : nameFits name := by
  unfold validateName at validated
  split at validated
  · cases validated
  dsimp only at validated
  generalize Text.trimSpace (String.ofList (Utf8.sanitize raw)) = trimmed
    at validated
  split at validated
  · cases validated
  · rename_i bounds
    split at validated
    · cases validated
    · rename_i printable
      cases validated
      have counted : name.toList.takeWhile (· ≠ '\x00') = name.toList := by
        rw [List.takeWhile_eq_self_iff]
        intro char member
        have shown : ¬ Text.isControl char = true := fun control =>
          printable (List.any_eq_true.mpr ⟨char, member, control⟩)
        rw [decide_eq_true_iff]
        rintro rfl
        exact shown (by decide)
      rw [nameFits, counted, String.length_toList]
      omega

/-- An error that does not come from a constraint. -/
def Failure.Deliberate (failure : Failure) : Prop :=
  ∀ violation, failure ≠ .constraint violation

/-- The error of a sequence that has no next number. -/
def diskFull : Failure := .other "database or disk is full"

theorem diskFull_deliberate : diskFull.Deliberate :=
  nofun

variable {store : Store} {allowed : Failure → Prop}

theorem appendEvent_fails (full : allowed diskFull) {event : Event}
    (workspace : event.workspaceID = defaultWorkspace) :
    FailsOnly allowed (appendEvent event) store := by
  refine .get_bind (.ensure_bind ?_ (.bind (.ensure fun _ => full) ?_))
  · rw [workspace]
    decide
  · exact fun _ => .modify _

theorem allocateIndex_fails (full : allowed diskFull) {kind : ResourceKind}
    {id : ID} (unused : store.Unused id) :
    FailsOnly allowed (allocateIndex kind id) store := by
  refine .get_bind (.ensure_bind unused (.bind (.ensure fun _ => full) ?_))
  exact fun _ => .bind (.modify _) fun _ => .pure _

theorem vpcFromRow_error {row : VPC} {failure : Failure}
    (failed : vpcFromRow row = .error failure) :
    failure.Deliberate ∧ failure ≠ .noRows := by
  unfold vpcFromRow at failed
  split at failed
  · cases failed
  · cases failed
    exact ⟨nofun, nofun⟩

theorem subnetFromRow_error {row : Subnet} {failure : Failure}
    (failed : subnetFromRow row = .error failure) :
    failure.Deliberate ∧ failure ≠ .noRows := by
  unfold subnetFromRow at failed
  split at failed
  · cases failed
  · cases failed
    exact ⟨nofun, nofun⟩

theorem validENIMAC_error {raw : String} {failure : Failure}
    (failed : validENIMAC raw = .error failure) : failure.Deliberate := by
  unfold validENIMAC at failed
  split at failed
  · cases failed
    exact nofun
  · split at failed <;> cases failed
    exact nofun

namespace Store

theorem getVPC_error {workspaceID id : ID} {failure : Failure}
    (failed : store.getVPC workspaceID id = .error failure) :
    failure.Deliberate := by
  unfold getVPC at failed
  split at failed
  · cases failed
    exact nofun
  · exact (vpcFromRow_error failed).1

theorem getSubnet_error {workspaceID id : ID} {failure : Failure}
    (failed : store.getSubnet workspaceID id = .error failure) :
    failure.Deliberate := by
  unfold getSubnet at failed
  split at failed
  · cases failed
    exact nofun
  · exact (subnetFromRow_error failed).1

theorem instanceFromRow_error {row : InstanceRow} {failure : Failure}
    (failed : store.instanceFromRow row = .error failure) :
    failure.Deliberate := by
  unfold instanceFromRow at failed
  split at failed
  · cases failed
    exact nofun
  · split at failed
    · cases failed
      exact nofun
    · split at failed
      · rename_i cause invalid
        cases failed
        exact validENIMAC_error invalid
      · cases failed

theorem getInstance_error {workspaceID id : ID} {failure : Failure}
    (failed : store.getInstance workspaceID id = .error failure) :
    failure.Deliberate := by
  unfold getInstance at failed
  split at failed
  · cases failed
    exact nofun
  · exact instanceFromRow_error failed

theorem listSubnetsByVPC_error {id : ID} {failure : Failure}
    (failed : store.listSubnetsByVPC id = .error failure) :
    failure.Deliberate :=
  mapM_error (fun failed => (subnetFromRow_error failed).1) failed

/-- The name is free. -/
theorem getVPCByName_error {workspaceID : ID} {name : String}
    {failure : Failure}
    (failed : store.getVPCByName workspaceID name = .error failure) :
    failure.Deliberate ∧ (failure = .noRows → ∀ row ∈ store.vpcs,
      ¬ (row.workspaceID = workspaceID ∧ row.name = name)) := by
  unfold getVPCByName at failed
  split at failed
  · rename_i missing
    cases failed
    refine ⟨nofun, fun _ row member taken => ?_⟩
    exact List.find?_eq_none.mp missing row member (decide_eq_true taken)
  · obtain ⟨deliberate, corrupt⟩ := vpcFromRow_error failed
    exact ⟨deliberate, fun missing => absurd missing corrupt⟩

theorem getSubnetByName_error {workspaceID : ID} {name : String}
    {failure : Failure}
    (failed : store.getSubnetByName workspaceID name = .error failure) :
    failure.Deliberate ∧ (failure = .noRows → ∀ row ∈ store.subnets,
      ¬ (row.workspaceID = workspaceID ∧ row.name = name)) := by
  unfold getSubnetByName at failed
  split at failed
  · rename_i missing
    cases failed
    refine ⟨nofun, fun _ row member taken => ?_⟩
    exact List.find?_eq_none.mp missing row member (decide_eq_true taken)
  · obtain ⟨deliberate, corrupt⟩ := subnetFromRow_error failed
    exact ⟨deliberate, fun missing => absurd missing corrupt⟩

theorem Sound.getInstanceByName_error (sound : store.Sound)
    {workspaceID : ID} {name : String} {failure : Failure}
    (failed : store.getInstanceByName workspaceID name = .error failure) :
    failure = .noRows ∧ ∀ row ∈ store.instances,
      ¬ (row.workspaceID = workspaceID ∧ row.name = name) := by
  unfold getInstanceByName at failed
  split at failed
  · rename_i missing
    cases failed
    refine ⟨rfl, fun row member taken => ?_⟩
    exact List.find?_eq_none.mp missing row member (decide_eq_true taken)
  · rename_i row found
    obtain ⟨eni, -, -, decoded⟩ :=
      sound.instanceFromRow (List.mem_of_find?_eq_some found)
    rw [decoded] at failed
    cases failed

end Store

/-- The next index is not the index of a row. -/
theorem Indexed.index_ne {Row : Type} {kind : ResourceKind}
    {identity workspace : Row → ID} {index : Row → Int} {rows : List Row}
    (table : Indexed kind identity workspace index rows store.kernelIndexes)
    (keyed : store.Keyed) {next : Int} (beyond : store.indexSequence < next) :
    ∀ row ∈ rows, index row ≠ next := by
  intro row member same
  have bounded := (keyed.bounded _ (table.allocated row member)).2
  dsimp only at bounded
  omega

theorem insertVPC_total (sound : store.Sound) {vpc : VPC}
    (fits : nameFits vpc.name) (unused : store.Unused vpc.id)
    (workspace : vpc.workspaceID = defaultWorkspace)
    (free : ∀ row ∈ store.vpcs,
      ¬ (row.workspaceID = defaultWorkspace ∧ row.name = vpc.name))
    (index : vpc.shortIndex = store.indexSequence + 1) :
    FailsOnly allowed (insertVPC vpc) (store.withIndex .vpc vpc.id) := by
  refine .get_bind (.ensure_bind fits (.ensure_bind ?_ (.ensure_bind ?_
    (.ensure_bind ?_ (.ensure_bind ?_ (.modify _))))))
  · exact sound.keyed.vpcs.fresh unused
  · exact sound.keyed.vpcs.index_ne sound.keyed (by omega)
  · rw [workspace]
    exact free
  · rw [workspace]
    exact ⟨by decide, _, List.mem_append_right _ (List.mem_singleton.mpr rfl),
      index.symm⟩

theorem insertSubnet_total (sound : store.Sound) {subnet : Subnet}
    {vpc : VPC} (fits : nameFits subnet.name)
    (zone : subnet.availabilityZone ∈ availabilityZones)
    (unused : store.Unused subnet.id)
    (workspace : subnet.workspaceID = defaultWorkspace)
    (free : ∀ row ∈ store.subnets,
      ¬ (row.workspaceID = defaultWorkspace ∧ row.name = subnet.name))
    (index : subnet.shortIndex = store.indexSequence + 1)
    (parent : vpc ∈ store.vpcs) (parentID : vpc.id = subnet.vpcID) :
    FailsOnly allowed (insertSubnet subnet)
      (store.withIndex .subnet subnet.id) := by
  refine .get_bind (.ensure_bind ⟨fits, zone⟩ (.ensure_bind ?_
    (.ensure_bind ?_ (.ensure_bind ?_ (.ensure_bind ?_ (.modify _))))))
  · exact sound.keyed.subnets.fresh unused
  · exact sound.keyed.subnets.index_ne sound.keyed (by omega)
  · rw [workspace]
    exact free
  · rw [workspace]
    exact ⟨by decide, ⟨_, List.mem_append_right _
      (List.mem_singleton.mpr rfl), index.symm⟩, vpc, parent, parentID,
      sound.keyed.vpcs.workspace vpc parent⟩

section Instances

variable {row : InstanceRow} {eni : ENI} {subnet : Subnet}

theorem insertInstance_total (sound : store.Sound)
    (fits : nameFits row.name) (unused : store.Unused row.id)
    (workspace : row.workspaceID = defaultWorkspace)
    (free : ∀ other ∈ store.instances,
      ¬ (other.workspaceID = defaultWorkspace ∧ other.name = row.name))
    (index : row.shortIndex = store.indexSequence + 1)
    (parent : subnet ∈ store.subnets) (parentID : subnet.id = row.subnetID)
    (eniID : ID) :
    FailsOnly allowed (insertInstance row)
      ((store.withIndex .inst row.id).withIndex .eni eniID) := by
  refine .get_bind (.ensure_bind fits (.ensure_bind ?_ (.ensure_bind ?_
    (.ensure_bind ?_ (.ensure_bind ?_ (.modify _))))))
  · exact sound.keyed.instances.fresh unused
  · exact sound.keyed.instances.index_ne sound.keyed (by omega)
  · rw [workspace]
    exact free
  · rw [workspace]
    refine ⟨by decide, ⟨_, List.mem_append_left _ (List.mem_append_right _
      (List.mem_singleton.mpr rfl)), index.symm⟩, subnet, parent, parentID,
      sound.keyed.subnets.workspace subnet parent⟩

theorem insertENI_total (sound : store.Sound) {instances : List InstanceRow}
    {instanceID : ID} (unused : store.Unused eni.id)
    (instanceUnused : store.Unused eni.instanceID)
    (workspace : eni.workspaceID = defaultWorkspace)
    (index : eni.shortIndex = store.indexSequence + 2)
    (wire : ∀ other ∈ store.enis, other.macAddress ≠ eni.macAddress)
    (lease : ∀ other ∈ store.enis, other.subnetID = eni.subnetID →
      other.privateIP ≠ eni.privateIP)
    (owner : row ∈ instances) (ownerID : row.id = eni.instanceID)
    (ownerWorkspace : row.workspaceID = defaultWorkspace)
    (parent : subnet ∈ store.subnets) (parentID : subnet.id = eni.subnetID) :
    FailsOnly allowed (insertENI eni)
      { (store.withIndex .inst instanceID).withIndex .eni eni.id with
        instances } := by
  refine .get_bind (.ensure_bind ?_ (.ensure_bind ?_ (.ensure_bind ?_
    (.modify _))))
  · exact sound.keyed.enis.fresh unused
  · intro other member
    refine ⟨sound.keyed.enis.index_ne sound.keyed (by omega) other member,
      wire other member, ?_, fun taken => lease other member taken.1 taken.2⟩
    obtain ⟨holder, inside, sameID, -⟩ := sound.topology.eniOwner other member
    rw [← sameID]
    exact sound.keyed.instances.fresh instanceUnused holder inside
  · rw [workspace]
    refine ⟨by decide, ⟨_, List.mem_append_right _
      (List.mem_singleton.mpr rfl), ?_⟩, ⟨row, owner, ownerID,
      ownerWorkspace⟩, subnet, parent, parentID,
      sound.keyed.subnets.workspace subnet parent⟩
    rw [index]
    change store.indexSequence + 1 + 1 = store.indexSequence + 2
    omega

end Instances

theorem loadReplay_fails {α : Type} {decode : Response → Option α}
    {operation : Operation} {key hash : String} {now : Time} :
    FailsOnly Failure.Deliberate (loadReplay decode operation key hash now)
      store := by
  refine .ite (fun _ => .pure _) fun _ => .get_bind ?_
  split
  · exact .pure _
  · refine .ite (fun _ => .pure _) fun _ => .ite (fun _ => ?_) fun _ => ?_
    · exact .throw nofun
    · split
      · exact .throw nofun
      · exact .pure _

theorem saveReplay_total {operation : Operation} {key hash : String}
    {resourceID : ID} {response : Response} {now : Time} :
    FailsOnly allowed
      (saveReplay operation key hash resourceID response now) store :=
  .ite (fun _ => .pure _) fun _ =>
    .ensure_bind (show defaultWorkspace ∈ workspaces by decide) (.modify _)

/-- The end of a create. -/
theorem logged_fails {α : Type} {event : Event} {operation : Operation}
    {key hash : String} {resourceID : ID} {response : Response} {now : Time}
    {result : α} (workspace : event.workspaceID = defaultWorkspace) :
    FailsOnly Failure.Deliberate (do
      appendEvent event
      saveReplay operation key hash resourceID response now
      return result) store :=
  .bind (appendEvent_fails diskFull_deliberate workspace) fun _ =>
    .bind saveReplay_total fun _ => .pure _

theorem rescue_total {α : Type} {translate : Failure → Failure}
    {body : Tx α} (total : Total body store) :
    FailsOnly allowed (rescue translate body) store := by
  intro failure failed
  unfold rescue at failed
  cases outcome : body store with
  | ok pair =>
      rw [outcome] at failed
      cases failed
  | error cause => exact (total cause outcome).elim

theorem createVPCWith_fails (sound : store.Sound)
    {translate : Failure → Failure} {request : VPCRequest}
    (fits : nameFits request.name) (unused : store.Unused request.id) :
    FailsOnly Failure.Deliberate (createVPCWith translate request) store := by
  refine .bind loadReplay_fails fun {replay middle} loaded => ?_
  obtain ⟨rfl, -⟩ := loadReplay_ok loaded
  cases replay with
  | some result => exact .pure _
  | none =>
      refine .get_bind ?_
      split
      · exact .throw nofun
      · rename_i missing
        have free := (Store.getVPCByName_error missing).2 rfl
        refine .bind (allocateIndex_fails diskFull_deliberate unused)
          fun {index indexed} allocated => ?_
        obtain ⟨-, rfl, rfl⟩ := allocateIndex_ok allocated
        refine .bind (rescue_total (insertVPC_total sound fits unused rfl
          free rfl)) fun _ => logged_fails rfl
      · rename_i failure _ failed
        exact .throw (Store.getVPCByName_error failed).1

theorem insertNewSubnet_fails (sound : store.Sound)
    {translate : Failure → Failure} {request : SubnetRequest} {vpc : VPC}
    (fits : nameFits request.name)
    (zone : request.availabilityZone ∈ availabilityZones)
    (unused : store.Unused request.id) (parent : vpc ∈ store.vpcs) :
    FailsOnly Failure.Deliberate (insertNewSubnet translate request vpc)
      store := by
  refine .get_bind ?_
  split
  · exact .throw nofun
  · rename_i missing
    have free := (Store.getSubnetByName_error missing).2 rfl
    refine .bind (allocateIndex_fails diskFull_deliberate unused)
      fun {index indexed} allocated => ?_
    obtain ⟨-, rfl, rfl⟩ := allocateIndex_ok allocated
    refine .bind (rescue_total (insertSubnet_total sound fits zone unused
      rfl free rfl parent rfl)) fun _ => logged_fails rfl
  · rename_i failure _ failed
    exact .throw (Store.getSubnetByName_error failed).1

theorem validateSubnetRange_error {vpc subnet : Prefix} {failure : Failure}
    (failed : validateSubnetRange vpc subnet = .error failure) :
    failure.Deliberate := by
  unfold validateSubnetRange at failed
  split at failed <;> cases failed
  exact nofun

theorem validateSubnetDisjoint_error {cidr : Prefix} {siblings : List Prefix}
    {failure : Failure}
    (failed : validateSubnetDisjoint cidr siblings = .error failure) :
    failure.Deliberate := by
  induction siblings with
  | nil => cases failed
  | cons sibling siblings induction =>
      unfold validateSubnetDisjoint at failed
      split at failed
      · cases failed
        intro violation same
        cases same
      · exact induction failed

theorem createSubnetWith_fails (sound : store.Sound)
    {translate : Failure → Failure} {request : SubnetRequest}
    (fits : nameFits request.name)
    (zone : request.availabilityZone ∈ availabilityZones)
    (unused : store.Unused request.id) :
    FailsOnly Failure.Deliberate (createSubnetWith translate request)
      store := by
  refine .bind loadReplay_fails fun {replay middle} loaded => ?_
  obtain ⟨rfl, -⟩ := loadReplay_ok loaded
  cases replay with
  | some result => exact .pure _
  | none =>
      refine .get_bind ?_
      split
      · exact .throw nofun
      · rename_i failure _ failed
        exact .throw (Store.getVPC_error failed)
      · rename_i vpc found
        refine .ite (fun _ => .throw nofun) fun _ => ?_
        split
        · rename_i failure failed
          exact .throw (validateSubnetRange_error failed)
        · refine .get_bind ?_
          split
          · rename_i failure failed
            exact .throw (Store.listSubnetsByVPC_error failed)
          · split
            · rename_i failure failed
              exact .throw (validateSubnetDisjoint_error failed)
            · exact insertNewSubnet_fails sound fits zone unused
                (Store.getVPC_ok found).1

theorem leaseAddress_fails {subnet : Subnet} :
    FailsOnly Failure.Deliberate (leaseAddress subnet) store := by
  refine .get_bind ?_
  split
  · rename_i failure failed
    refine .throw (mapM_error (fun {eni failure} failed => ?_) failed)
    unfold Store.eniAddress at failed
    split at failed <;> cases failed
    exact nofun
  · split
    · exact .throw nofun
    · exact .throw nofun
    · exact .pure _

theorem insertNewInstance_fails (sound : store.Sound) {request : RunRequest}
    {subnet : Subnet} (fits : nameFits request.name)
    (unused : store.Unused request.id)
    (eniUnused : store.Unused request.eniID)
    (distinct : request.id ≠ request.eniID)
    (wire : ∀ other ∈ store.enis,
      other.macAddress ≠ deriveMAC request.eniID)
    (free : ∀ other ∈ store.instances,
      ¬ (other.workspaceID = defaultWorkspace ∧ other.name = request.name))
    (parent : subnet ∈ store.subnets) :
    FailsOnly Failure.Deliberate (insertNewInstance request subnet)
      store := by
  refine .bind leaseAddress_fails fun {address middle} leased => ?_
  obtain ⟨⟨used, allocation, leases⟩, rfl⟩ := leaseAddress_ok leased
  have unleased := (nextPrivateIP_spec allocation).2
  refine .bind (allocateIndex_fails diskFull_deliberate unused)
    fun {index indexed} allocated => ?_
  obtain ⟨-, rfl, rfl⟩ := allocateIndex_ok allocated
  have stillUnused : (middle.withIndex .inst request.id).Unused
      request.eniID :=
    forall_append eniUnused distinct
  refine .bind (allocateIndex_fails diskFull_deliberate stillUnused)
    fun {index indexed} allocated => ?_
  obtain ⟨-, rfl, rfl⟩ := allocateIndex_ok allocated
  refine .bind ?_ fun _ => logged_fails rfl
  refine .ite (fun _ => .throw nofun) fun _ => .ite (fun _ => .throw nofun)
    fun _ => ?_
  split
  · rename_i failure invalid
    exact .throw (validENIMAC_error invalid)
  · refine .bind (insertInstance_total sound fits unused rfl free rfl parent
      rfl request.eniID) fun {value inserted} insertion => ?_
    obtain rfl := insertInstance_ok insertion
    refine insertENI_total sound eniUnused unused rfl ?_ wire ?_
      (List.mem_append_right _ (List.mem_singleton.mpr rfl)) rfl rfl parent
      rfl
    · change middle.indexSequence + 1 + 1 = middle.indexSequence + 2
      omega
    · intro other member sameSubnet sameIP
      have taken := leases other member sameSubnet
      rw [sameIP] at taken
      exact unleased taken

theorem runTx_fails (sound : store.Sound) {request : RunRequest}
    (fits : nameFits request.name) (unused : store.Unused request.id)
    (eniUnused : store.Unused request.eniID)
    (distinct : request.id ≠ request.eniID)
    (wire : ∀ other ∈ store.enis,
      other.macAddress ≠ deriveMAC request.eniID) :
    FailsOnly Failure.Deliberate (runTx request) store := by
  refine .bind loadReplay_fails fun {replay middle} loaded => ?_
  obtain ⟨rfl, -⟩ := loadReplay_ok loaded
  cases replay with
  | some result => exact .pure _
  | none =>
      refine .get_bind ?_
      split
      · exact .throw nofun
      · rename_i failure _ failed
        exact .throw (Store.getSubnet_error failed)
      · rename_i subnet found
        refine .ite (fun _ => .throw nofun) fun _ => .get_bind ?_
        split
        · exact .throw nofun
        · rename_i missing
          exact insertNewInstance_fails sound fits unused eniUnused distinct
            wire (sound.getInstanceByName_error missing).2
            (Store.getSubnet_ok found).1
        · rename_i failure _ failed
          rw [(sound.getInstanceByName_error failed).1]
          exact .throw nofun

section Marks

variable (counted : store.Counted)

include counted

theorem deleteVPCTx_fails {id : ID} {now : Time} :
    FailsOnly Failure.Deliberate (deleteVPCTx id now) store := by
  refine .get_bind ?_
  split
  · exact .throw nofun
  · rename_i failure _ failed
    exact .throw (Store.getVPC_error failed)
  · refine .get_bind ?_
    split
    · rename_i failure failed
      exact .throw (Store.listSubnetsByVPC_error failed)
    · refine .ite (fun _ => .throw nofun) fun _ => .ite (fun _ => .pure _)
        fun _ => .bind ?_ fun _ => .get_bind ?_
      · exact .get_bind (.ensure_bind
          (fun row member _ => (counted.vpcs row member).marked) (.modify _))
      · split
        · rename_i failure failed
          exact .throw (Store.getVPC_error failed)
        · exact .bind (appendEvent_fails diskFull_deliberate rfl)
            fun _ => .pure _

theorem deleteSubnetTx_fails {id : ID} {now : Time} :
    FailsOnly Failure.Deliberate (deleteSubnetTx id now) store := by
  refine .get_bind ?_
  split
  · exact .throw nofun
  · rename_i failure _ failed
    exact .throw (Store.getSubnet_error failed)
  · refine .get_bind (.ite (fun _ => .throw nofun) fun _ =>
      .ite (fun _ => .pure _) fun _ => .bind ?_ fun _ => .get_bind ?_)
    · exact .get_bind (.ensure_bind
        (fun row member _ => (counted.subnets row member).marked)
        (.modify _))
    · split
      · rename_i failure failed
        exact .throw (Store.getSubnet_error failed)
      · exact .bind (appendEvent_fails diskFull_deliberate rfl)
          fun _ => .pure _

theorem terminateTx_fails {id : ID} {now : Time} :
    FailsOnly Failure.Deliberate (terminateTx id now) store := by
  refine .get_bind ?_
  split
  · exact .throw nofun
  · rename_i failure _ failed
    exact .throw (Store.getInstance_error failed)
  · refine .ite (fun _ => .pure _) fun _ => .bind ?_ fun _ =>
      .bind (appendEvent_fails diskFull_deliberate rfl) fun _ => .pure _
    exact .get_bind (.ensure_bind
      (fun row member _ => (counted.instances row member).marked)
      (.modify _))

end Marks

/-- The error of a write that comes too late or finds a full sequence. -/
def Failure.Refused (failure : Failure) : Prop :=
  failure = .staleSnapshot ∨ failure = diskFull

theorem Store.Sound.getVPC_error (sound : store.Sound) {workspaceID id : ID}
    {failure : Failure}
    (failed : store.getVPC workspaceID id = .error failure) :
    failure = .noRows := by
  unfold getVPC at failed
  split at failed
  · cases failed
    rfl
  · rename_i row found
    rw [sound.vpcFromRow (List.mem_of_find?_eq_some found)] at failed
    cases failed

section Topology

variable (valid : store.Valid) {state : State} {reason : String}
  {succeeded : Bool} {now : Time}

include valid

theorem recordVPCStatus_fails {vpc : VPC} (member : vpc ∈ store.vpcs) :
    FailsOnly Failure.Refused
      (recordVPCStatus vpc state reason succeeded now) store := by
  refine .ite (fun _ => .pure _) fun _ => .bind ?_ fun _ =>
    appendEvent_fails (.inr rfl) (valid.sound.keyed.vpcs.workspace vpc member)
  refine .get_bind (.ensure_bind ?_ (.modify _))
  rintro row inside ⟨sameID, -⟩
  obtain rfl := valid.sound.keyed.vpcs.unique.eq_of_mem inside member sameID
  exact (valid.counted.vpcs row inside).status succeeded

theorem recordSubnetStatus_fails {subnet : Subnet}
    (member : subnet ∈ store.subnets) :
    FailsOnly Failure.Refused
      (recordSubnetStatus subnet state reason succeeded now) store := by
  refine .ite (fun _ => .pure _) fun _ => .bind ?_ fun _ =>
    appendEvent_fails (.inr rfl)
      (valid.sound.keyed.subnets.workspace subnet member)
  refine .get_bind (.ensure_bind ?_ (.modify _))
  rintro row inside ⟨sameID, -⟩
  obtain rfl := valid.sound.keyed.subnets.unique.eq_of_mem inside member
    sameID
  exact (valid.counted.subnets row inside).status succeeded

/-- A subnet with a deletion request has nothing below it. -/
theorem recordChild_fails {child : Subnet} (member : child ∈ store.subnets) :
    FailsOnly Failure.Refused (recordChild state reason succeeded now child)
      store := by
  refine .ite (fun removable => .bind ?_ fun _ =>
    appendEvent_fails (.inr rfl)
      (valid.sound.keyed.subnets.workspace child member))
    fun _ => recordSubnetStatus_fails valid member
  have consistent := valid.sound.consistent
  have childless := consistent.deletingSubnetEmpty child member removable.1
  refine .get_bind (.ensure_bind ⟨?_, ?_⟩ (.modify _))
  · exact fun row inside child => childless row inside child.1
  · rintro eni inside ⟨sameSubnet, -⟩
    obtain ⟨row, rowInside, -, sameParent⟩ :=
      valid.sound.topology.eniOwner eni inside
    exact childless row rowInside (sameParent.trans sameSubnet)

/-- A VPC with a deletion request has nothing below it. -/
theorem deletingVPC_childless {vpc : VPC} {children : List Subnet}
    (member : vpc ∈ store.vpcs) (requested : vpc.deletionRequested = true)
    (listed : store.listSubnetsByVPC vpc.id = .ok children) :
    children = [] := by
  rw [List.eq_nil_iff_forall_not_mem]
  intro child inside
  obtain ⟨subnetMember, parent⟩ := (Store.mem_listSubnetsByVPC listed).mp inside
  exact valid.sound.consistent.deletingVPCEmpty vpc member requested child
    subnetMember parent

theorem recordTopology_failsOnly {vpc : VPC} {subnets : List Subnet}
    {effectErr : Option String} :
    FailsOnly Failure.Refused (recordTopology vpc subnets effectErr now)
      store := by
  refine .get_bind ?_
  split
  · exact .throw (.inl rfl)
  · rename_i failure unread failed
    exact absurd (valid.sound.getVPC_error failed) unread
  · rename_i current found
    obtain ⟨member, sameID, workspace⟩ := Store.getVPC_ok found
    refine .ite (fun _ => .throw (.inl rfl)) fun matched => .get_bind ?_
    simp only [not_or, ne_eq, not_not] at matched
    obtain ⟨children, listed⟩ := valid.sound.listSubnetsByVPC_total vpc.id
    rw [listed]
    refine .ite (fun _ => .throw (.inl rfl)) fun _ => .ite ?_ ?_
    · intro deleting
      have requested := matched.2.1.trans deleting.1
      rw [← sameID] at listed
      obtain rfl := deletingVPC_childless valid member requested listed
      refine .ite (fun nonempty => absurd rfl nonempty) fun _ => .bind ?_
        fun _ => ?_
      · refine .get_bind (.ensure_bind ?_ (.modify _))
        rintro subnet inside ⟨parent, -⟩
        exact valid.sound.consistent.deletingVPCEmpty current member
          requested subnet inside (parent.trans sameID.symm)
      · refine appendEvent_fails (.inr rfl) ?_
        exact workspace.symm.trans
          (valid.sound.keyed.vpcs.workspace current member)
    · intro kept
      refine .bind (recordVPCStatus_fails valid member)
        fun {value middle} recorded => ?_
      have status : EngineStatus (outcomeState effectErr)
          (effectErr.getD "") effectErr.isNone current.deletionRequested := by
        rcases engineOutcome effectErr with
          ⟨success, available, empty⟩ | ⟨failure, failed⟩
        · refine .inl ⟨success, available, empty, ?_⟩
          rw [matched.2.1]
          rw [Option.isNone_iff_eq_none] at success
          simpa [success] using kept
        · exact .inr ⟨failure, failed⟩
      have first := recordVPCStatus_run valid.sound.keyed member status
        recorded
      have distinct := Store.unique_listSubnetsByVPC valid.sound.keyed listed
      -- every child that is left is still the row that was read
      refine .each (fun children store => store.Valid ∧
        (∀ child ∈ children, child ∈ store.subnets) ∧
          Unique Subnet.id children) ?_ ⟨edits_run_valid first valid, ?_,
        distinct⟩
      · rintro child children store ⟨valid, members, distinct⟩
        rw [List.forall_mem_cons] at members
        obtain ⟨apart, distinct⟩ := List.nodup_cons.mp distinct
        refine ⟨recordChild_fails valid members.1, fun {value final} run => ?_⟩
        have visit := recordChild_run valid.sound.keyed members.1
          (engineOutcome effectErr) run
        refine ⟨edits_run_valid visit valid, fun other inside => ?_, distinct⟩
        rw [childEdits_subnets valid.sound.keyed members.1 visit]
        exact .inl ⟨members.2 other inside, fun same =>
          apart (List.mem_map.mpr ⟨other, inside, same⟩)⟩
      · intro child inside
        rw [vpcEdits_subnets first]
        exact ((Store.mem_listSubnetsByVPC listed).mp inside).1

end Topology

theorem currentInstance_fails {snapshot : Instance} :
    FailsOnly Failure.Deliberate (currentInstance snapshot) store := by
  refine .get_bind ?_
  split
  · exact .throw nofun
  · rename_i failure _ failed
    exact .throw (Store.getInstance_error failed)
  · exact .pure _

section Instances

variable (valid : store.Valid) {snapshot : Instance} {now : Time}

include valid

theorem recordInstance_fails {status : InstanceState} {reason : String}
    {observed : Bool} :
    FailsOnly Failure.Deliberate
      (recordInstance snapshot status reason observed now) store := by
  refine .ite (fun _ => .throw nofun) fun _ => .ite (fun _ => .throw nofun)
    fun _ => .bind currentInstance_fails
      fun {current middle} found => .ite (fun _ => .throw nofun)
        fun decided => .ite (fun _ => .pure _) fun _ => ?_
  rw [not_not] at decided
  obtain ⟨row, eni, describes, rfl, rfl, workspace, eniWorkspace⟩ :=
    currentInstance_describes valid.sound.keyed found decided
  have logs {store : Store} {event : Event}
      (sameWorkspace : event.workspaceID = row.workspaceID) :
      FailsOnly Failure.Deliberate (appendEvent event) store :=
    appendEvent_fails diskFull_deliberate (sameWorkspace.trans workspace)
  refine .bind ?_ fun {value updated} first => .ite (fun _ => .bind ?_
    fun _ => logs rfl) fun _ => logs rfl
  · refine .get_bind (.ensure_bind ?_ (.modify _))
    rintro other inside ⟨sameID, -⟩
    obtain rfl := valid.sound.keyed.instances.unique.eq_of_mem inside
      describes.member sameID
    exact (valid.counted.instances other inside).status observed
  · obtain rfl := updateInstanceStatus_ok valid.sound.keyed describes.member
      first
    refine .get_bind (.ensure_bind ?_ (.modify _))
    rintro other inside ⟨sameID, -⟩
    obtain rfl := valid.sound.keyed.enis.unique.eq_of_mem inside
      describes.eniMember sameID
    exact (valid.counted.enis other inside).status observed

theorem finishInstanceTermination_fails :
    FailsOnly Failure.Deliberate (finishInstanceTermination snapshot now)
      store := by
  refine .bind currentInstance_fails fun {current middle} found =>
    .ite (fun _ => .throw nofun) fun decided => .bind (.modify _)
      fun {value removed} first => .bind ?_ fun _ => ?_
  all_goals
    rw [not_or, not_not] at decided
    obtain ⟨row, eni, describes, rfl, rfl, workspace, eniWorkspace⟩ :=
      currentInstance_describes valid.sound.keyed found decided.1
  · obtain rfl := deleteInstanceENI_ok valid.sound.keyed describes.eniMember
      eniWorkspace.symm first
    refine .get_bind (.ensure_bind ?_ (.modify _))
    rintro other inside ⟨owner, -⟩
    obtain ⟨member, different⟩ := mem_remove_iff.mp inside
    have same := valid.sound.keyed.owners.eq_of_mem member describes.eniMember
      (owner.trans describes.owner.symm)
    exact different (congrArg ENI.id same)
  · exact appendEvent_fails diskFull_deliberate workspace

end Instances

/-- A statement of the write violates a constraint.  The errors of insertions
are taken as they are, before a create translates them. -/
def Write.Raises (store : Store) (violation : Constraint) : Write → Prop
  | .createVPC input key random now => ∃ request,
      checkVPCRequest input key random now = .ok request ∧
        createVPCWith id request store = .error (.constraint violation)
  | .deleteVPC id now =>
      deleteVPCTx id now store = .error (.constraint violation)
  | .createSubnet input key random now => ∃ request,
      checkSubnetRequest input key random now = .ok request ∧
        createSubnetWith id request store = .error (.constraint violation)
  | .deleteSubnet id now =>
      deleteSubnetTx id now store = .error (.constraint violation)
  | .run input key random eniRandom now => ∃ request,
      checkRunRequest input key random eniRandom now = .ok request ∧
        runTx request store = .error (.constraint violation)
  | .terminateSnapshot id now =>
      terminateTx id now store = .error (.constraint violation)
  | .recordTopology vpc subnets effectErr now =>
      Nephos.recordTopology vpc subnets effectErr now store =
        .error (.constraint violation)
  | .recordRuntimeID instanceID generation runtimeID =>
      (store.recordRuntimeID instanceID generation runtimeID).1 =
        .error (.constraint violation)
  | .retainTerminatingRuntimeID instanceID runtimeID =>
      (store.retainTerminatingRuntimeID instanceID runtimeID).1 =
        .error (.constraint violation)
  | .recordInstance snapshot status reason observed now =>
      Nephos.recordInstance snapshot status reason observed now store =
        .error (.constraint violation)
  | .finishInstanceTermination snapshot now =>
      Nephos.finishInstanceTermination snapshot now store =
        .error (.constraint violation)

/-- The identity drawn from the bytes was given to a resource before. -/
def Store.Drawn (store : Store) (kind : String) (random : List UInt8) :
    Prop :=
  ∃ id, newID kind random = .ok id ∧ ¬ store.Unused id

/-- The write draws an identity that was given before, or one whose hardware
address is taken. -/
def Write.Collides (store : Store) : Write → Prop
  | .createVPC _ _ random _ => store.Drawn "vpc-" random
  | .createSubnet _ _ random _ => store.Drawn "subnet-" random
  | .run _ _ random eniRandom _ =>
      store.Drawn "i-" random ∨ store.Drawn "eni-" eniRandom ∨
        ∃ id, newID "eni-" eniRandom = .ok id ∧
          ∃ eni ∈ store.enis, eni.macAddress = deriveMAC id
  | _ => False

theorem Store.unused_of_not_drawn {kind : String} {random : List UInt8}
    {id : ID} (fresh : ¬ store.Drawn kind random)
    (drawn : newID kind random = .ok id) : store.Unused id := by
  by_contra used
  exact fresh ⟨id, drawn, used⟩

/-- Identities of different kinds are different. -/
theorem newID_ne {random eniRandom : List UInt8} {id eniID : ID}
    (drawn : newID "i-" random = .ok id)
    (eniDrawn : newID "eni-" eniRandom = .ok eniID) : id ≠ eniID := by
  obtain ⟨-, rfl⟩ := newID_ok drawn
  obtain ⟨-, rfl⟩ := newID_ok eniDrawn
  intro same
  have heads := congrArg (fun id : String => id.toList.head?) same
  simp at heads

theorem recordRuntimeID_deliberate {id : ID} {generation : Int}
    {runtimeID : RuntimeID} {failure : Failure}
    (failed : (store.recordRuntimeID id generation runtimeID).1 =
      .error failure) : failure.Deliberate := by
  unfold Store.recordRuntimeID at failed
  split at failed
  · cases failed
    exact nofun
  · dsimp only at failed
    split at failed <;> cases failed
    exact nofun

theorem retainTerminatingRuntimeID_deliberate {id : ID}
    {runtimeID : RuntimeID} {failure : Failure}
    (failed : (store.retainTerminatingRuntimeID id runtimeID).1 =
      .error failure) : failure.Deliberate := by
  unfold Store.retainTerminatingRuntimeID at failed
  split at failed
  · cases failed
    exact nofun
  · dsimp only at failed
    split at failed <;> cases failed
    exact nofun

theorem Failure.Refused.deliberate {failure : Failure}
    (refused : failure.Refused) : failure.Deliberate := by
  rcases refused with rfl | rfl
  · exact nofun
  · exact diskFull_deliberate

/-- A write of a valid database violates a constraint only by a collision. -/
theorem Write.Raises.collides (valid : store.Valid) {write : Write}
    {violation : Constraint} (raises : write.Raises store violation) :
    write.Collides store := by
  cases write with
  | createVPC input key random now =>
      obtain ⟨request, checked, failed⟩ := raises
      by_contra fresh
      obtain ⟨named, -⟩ := checkVPCRequest_ok checked
      simp only [checkVPCRequest, except_bind_ok_iff] at checked
      obtain ⟨_, -, _, -, _, -, id, drawn, shape⟩ := checked
      cases shape
      exact createVPCWith_fails valid.sound (validateName_fits named)
        (Store.unused_of_not_drawn fresh drawn) _ failed violation rfl
  | createSubnet input key random now =>
      obtain ⟨request, checked, failed⟩ := raises
      by_contra fresh
      obtain ⟨named, -⟩ := checkSubnetRequest_ok checked
      simp only [checkSubnetRequest, except_bind_ok_iff] at checked
      obtain ⟨_, -, _, -, rest⟩ := checked
      split at rest
      · cases rest
      · rename_i zone
        simp only [except_bind_ok_iff] at rest
        obtain ⟨_, -, id, drawn, shape⟩ := rest
        cases shape
        exact createSubnetWith_fails valid.sound (validateName_fits named)
          (not_not.mp zone) (Store.unused_of_not_drawn fresh drawn) _ failed
          violation rfl
  | run input key random eniRandom now =>
      obtain ⟨request, checked, failed⟩ := raises
      by_contra fresh
      simp only [Collides, not_or] at fresh
      obtain ⟨fresh, eniFresh, wire⟩ := fresh
      obtain ⟨named, -⟩ := checkRunRequest_ok checked
      simp only [checkRunRequest, except_bind_ok_iff] at checked
      obtain ⟨_, -, _, -, id, drawn, eniID, eniDrawn, shape⟩ := checked
      cases shape
      refine runTx_fails valid.sound (validateName_fits named)
        (Store.unused_of_not_drawn fresh drawn)
        (Store.unused_of_not_drawn eniFresh eniDrawn)
        (newID_ne drawn eniDrawn) (fun eni member same => ?_) _ failed
        violation rfl
      exact wire ⟨eniID, eniDrawn, eni, member, same⟩
  | deleteVPC id now =>
      exact deleteVPCTx_fails valid.counted _ raises violation rfl
  | deleteSubnet id now =>
      exact deleteSubnetTx_fails valid.counted _ raises violation rfl
  | terminateSnapshot id now =>
      exact terminateTx_fails valid.counted _ raises violation rfl
  | recordTopology vpc subnets effectErr now =>
      exact (recordTopology_failsOnly valid _ raises).deliberate violation rfl
  | recordRuntimeID instanceID generation runtimeID =>
      exact recordRuntimeID_deliberate raises violation rfl
  | retainTerminatingRuntimeID instanceID runtimeID =>
      exact retainTerminatingRuntimeID_deliberate raises violation rfl
  | recordInstance snapshot status reason observed now =>
      exact recordInstance_fails valid _ raises violation rfl
  | finishInstanceTermination snapshot now =>
      exact finishInstanceTermination_fails valid _ raises violation rfl

end Nephos
