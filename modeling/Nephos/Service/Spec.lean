import Nephos.Store.Spec

/-!
# What the transactions do

A transaction that succeeds answers from the database it finds, or performs
edits whose guards it has checked.  Each lemma below takes one transaction of
the services or of the reconcilers to the edits it performs.
-/

namespace Nephos

open Transaction

variable {store final : Store}

theorem newID_nonempty {kind : String} {random : List UInt8} {id : ID}
    (named : kind ≠ "") (drawn : newID kind random = .ok id) : id ≠ "" := by
  obtain ⟨-, rfl⟩ := newID_ok drawn
  exact fun empty => named (String.append_eq_empty_iff.mp empty).1

theorem checkVPCRequest_ok {input : CreateVPCInput} {key : String}
    {random : List UInt8} {now : Time} {request : VPCRequest}
    (checked : checkVPCRequest input key random now = .ok request) :
    validateName input.name = .ok request.name ∧
      parseCIDR input.cidrBlock = .ok request.cidr ∧ request.id ≠ "" ∧
      request.key = key ∧ request.now = now := by
  simp only [checkVPCRequest, except_bind_ok_iff] at checked
  obtain ⟨name, named, cidr, parsed, _, -, id, drawn, shape⟩ := checked
  cases shape
  exact ⟨named, parsed, newID_nonempty (by decide) drawn, rfl, rfl⟩

theorem checkSubnetRequest_ok {input : CreateSubnetInput} {key : String}
    {random : List UInt8} {now : Time} {request : SubnetRequest}
    (checked : checkSubnetRequest input key random now = .ok request) :
    validateName input.name = .ok request.name ∧
      parseCIDR input.cidrBlock = .ok request.cidr ∧
      request.vpcID = input.vpcID ∧
      request.availabilityZone = input.availabilityZone ∧
      request.key = key ∧ request.now = now := by
  simp only [checkSubnetRequest, except_bind_ok_iff] at checked
  obtain ⟨name, named, cidr, parsed, rest⟩ := checked
  split at rest
  · cases rest
  · simp only [except_bind_ok_iff] at rest
    obtain ⟨_, -, id, -, shape⟩ := rest
    cases shape
    exact ⟨named, parsed, rfl, rfl, rfl, rfl⟩

theorem checkRunRequest_ok {input : RunInstanceInput} {key : String}
    {random eniRandom : List UInt8} {now : Time} {request : RunRequest}
    (checked : checkRunRequest input key random eniRandom now =
      .ok request) :
    validateName input.name = .ok request.name ∧
      request.subnetID = input.subnetID ∧ request.key = key ∧
      request.now = now := by
  simp only [checkRunRequest, except_bind_ok_iff] at checked
  obtain ⟨name, named, _, -, id, -, eniID, -, shape⟩ := checked
  cases shape
  exact ⟨named, rfl, rfl, rfl⟩

def replayRecord (operation : Operation) (key hash : String)
    (resourceID : ID) (response : Response) (now : Time) : Idempotency :=
  { workspaceID := defaultWorkspace, operation, key, payloadHash := hash
    resourceID, response, createdAt := now.unix
    expiresAt := Time.unix (now + 24 * hour) }

/-- The database with the record of a keyed create. -/
def Store.remember (store : Store) (record : Idempotency) : Store :=
  if record.key = "" then store else Edit.apply store (.saveReplay record)

/-- The create answers with a stored response and changes nothing. -/
def Replayed {α : Type} (decode : Response → Option α)
    (operation : Operation) (key hash : String) (now : Time)
    (store : Store) (result : α × Bool) (final : Store) : Prop :=
  ∃ record replay, store.Live operation key now record ∧
    record.payloadHash = hash ∧ decode record.response = some replay ∧
    result = (replay, false) ∧ final = store

theorem saveReplay_remember {operation : Operation} {key hash : String}
    {resourceID : ID} {response : Response} {now : Time} {result : Unit}
    (run : saveReplay operation key hash resourceID response now store =
      .ok (result, final)) :
    final = store.remember
      (replayRecord operation key hash resourceID response now) := by
  rcases saveReplay_ok run with ⟨unkeyed, same⟩ | ⟨keyedCreate, same⟩
  · rw [same, Store.remember, if_pos (by exact unkeyed)]
  · rw [same, Store.remember, if_neg (by exact keyedCreate)]
    rfl

theorem createVPCTx_ok {request : VPCRequest} {result : VPC × Bool}
    (run : createVPCTx request store = .ok (result, final)) :
    Replayed Response.vpc? .createVPC request.key
        (hashPayload request.payload) request.now store result final ∨
      (∀ record, ¬ store.Live .createVPC request.key request.now record) ∧
      store.Unused request.id ∧
      result = (request.snapshot (store.indexSequence + 1), true) ∧
      final = (Edit.apply store (.createVPC result.1
        request.now.unix)).remember
        (replayRecord .createVPC request.key (hashPayload request.payload)
          request.id (.vpc result.1) request.now) := by
  unfold createVPCTx createVPCWith at run
  rw [bind_ok_iff] at run
  obtain ⟨replay, middle, loaded, rest⟩ := run
  obtain ⟨rfl, ⟨rfl, expired⟩ | ⟨record, value, rfl, live, hash, decoded⟩⟩ :=
    loadReplay_ok loaded
  · right
    rw [get_bind_ok_iff] at rest
    cases lookup : middle.getVPCByName defaultWorkspace request.name with
    | ok vpc => simp [lookup] at rest
    | error failure =>
        cases failure with
        | noRows =>
            simp only [lookup] at rest
            simp only [bind_ok_iff, rescue_ok_iff, pure_ok_iff] at rest
            obtain ⟨index, indexed, allocated, _, inserted, insertion, _,
              logged, event, _, _, saved, rfl, rfl⟩ := rest
            obtain ⟨unused, rfl, rfl⟩ := allocateIndex_ok allocated
            obtain rfl := insertVPC_ok insertion
            obtain rfl := appendEvent_ok event
            refine ⟨expired, unused, rfl, ?_⟩
            rw [saveReplay_remember saved]
            rfl
        | service error => simp [lookup] at rest
        | staleSnapshot => simp [lookup] at rest
        | constraint kind => simp [lookup] at rest
        | other message => simp [lookup] at rest
  · left
    simp only [pure_ok_iff] at rest
    exact ⟨record, value, live, hash, decoded, rest.1, rest.2⟩

theorem validateSubnetDisjoint_ok {cidr : Prefix} {siblings : List Prefix}
    (accepted : validateSubnetDisjoint cidr siblings = .ok ()) :
    ∀ sibling ∈ siblings, overlaps cidr sibling = false := by
  induction siblings with
  | nil => simp
  | cons first rest induction =>
      unfold validateSubnetDisjoint at accepted
      split at accepted
      · cases accepted
      · rename_i apart
        intro sibling member
        rcases List.mem_cons.mp member with rfl | later
        · simpa using apart
        · exact induction accepted sibling later

theorem insertNewSubnet_ok {translate : Failure → Failure}
    {request : SubnetRequest} {vpc : VPC}
    {result : Subnet × Bool}
    (run : insertNewSubnet translate request vpc store = .ok (result, final)) :
    store.Unused request.id ∧
      result = (request.snapshot vpc.id (store.indexSequence + 1), true) ∧
      final = (Edit.apply store (.createSubnet result.1
        request.now.unix)).remember
        (replayRecord .createSubnet request.key
          (hashPayload request.payload) request.id (.subnet result.1)
          request.now) := by
  unfold insertNewSubnet at run
  rw [get_bind_ok_iff] at run
  cases lookup : store.getSubnetByName defaultWorkspace request.name with
  | ok subnet => simp [lookup] at run
  | error failure =>
      cases failure with
      | noRows =>
          simp only [lookup] at run
          simp only [bind_ok_iff, rescue_ok_iff, pure_ok_iff] at run
          obtain ⟨index, indexed, allocated, _, inserted, insertion, _,
            logged, event, _, _, saved, rfl, rfl⟩ := run
          obtain ⟨unused, rfl, rfl⟩ := allocateIndex_ok allocated
          obtain rfl := insertSubnet_ok insertion
          obtain rfl := appendEvent_ok event
          refine ⟨unused, rfl, ?_⟩
          rw [saveReplay_remember saved]
          rfl
      | service error => simp [lookup] at run
      | staleSnapshot => simp [lookup] at run
      | constraint kind => simp [lookup] at run
      | other message => simp [lookup] at run

/-- The VPC and the siblings a new subnet has been checked against. -/
structure SubnetFits (store : Store) (vpc : VPC) (cidr : Prefix) : Prop where
  parent : vpc ∈ store.vpcs
  live : vpc.deletionRequested = false
  range : validateSubnetRange vpc.cidrBlock cidr = .ok ()
  disjoint : ∀ sibling ∈ store.subnets, sibling.vpcID = vpc.id →
    overlaps cidr sibling.cidrBlock = false

theorem createSubnetTx_ok {request : SubnetRequest} {result : Subnet × Bool}
    (run : createSubnetTx request store = .ok (result, final)) :
    Replayed Response.subnet? .createSubnet request.key
        (hashPayload request.payload) request.now store result final ∨
      (∀ record, ¬ store.Live .createSubnet request.key request.now record) ∧
      store.Unused request.id ∧
      (∃ vpc, SubnetFits store vpc request.cidr ∧ vpc.id = request.vpcID ∧
        result = (request.snapshot vpc.id (store.indexSequence + 1), true)) ∧
      final = (Edit.apply store (.createSubnet result.1
        request.now.unix)).remember
        (replayRecord .createSubnet request.key
          (hashPayload request.payload) request.id (.subnet result.1)
          request.now) := by
  unfold createSubnetTx createSubnetWith at run
  rw [bind_ok_iff] at run
  obtain ⟨replay, middle, loaded, rest⟩ := run
  obtain ⟨rfl, ⟨rfl, expired⟩ | ⟨record, value, rfl, live, hash, decoded⟩⟩ :=
    loadReplay_ok loaded
  · right
    rw [get_bind_ok_iff] at rest
    cases lookup : middle.getVPC defaultWorkspace request.vpcID with
    | error failure => cases failure <;> simp [lookup] at rest
    | ok vpc =>
        obtain ⟨parent, parentID, -⟩ := Store.getVPC_ok lookup
        simp only [lookup, ite_ok_iff, bind_ok_iff, throw_ok_iff, false_and,
          exists_false, and_false, false_or] at rest
        obtain ⟨parentLive, rest⟩ := rest
        cases range : validateSubnetRange vpc.cidrBlock request.cidr with
        | error failure => simp [range] at rest
        | ok accepted =>
            simp only [range, get_bind_ok_iff] at rest
            cases listed : middle.listSubnetsByVPC vpc.id with
            | error failure => simp [listed] at rest
            | ok siblings =>
                simp only [listed] at rest
                cases apart : validateSubnetDisjoint request.cidr
                    (siblings.map Subnet.cidrBlock) with
                | error failure => simp [apart] at rest
                | ok accepted =>
                    simp only [apart] at rest
                    obtain ⟨unused, shape, change⟩ := insertNewSubnet_ok rest
                    refine ⟨expired, unused, ⟨vpc, ?_, parentID, shape⟩,
                      change⟩
                    refine ⟨parent, by simpa using parentLive, range, ?_⟩
                    intro sibling member child
                    apply validateSubnetDisjoint_ok apart
                    exact List.mem_map_of_mem
                      ((Store.mem_listSubnetsByVPC listed).mpr
                        ⟨member, child⟩)
  · left
    simp only [pure_ok_iff] at rest
    exact ⟨record, value, live, hash, decoded, rest.1, rest.2⟩

def RunRequest.row (request : RunRequest) (subnetID : ID) (index : Int) :
    InstanceRow :=
  { id := request.id, workspaceID := defaultWorkspace, subnetID
    shortIndex := index, name := request.name, state := .pending
    stateReason := "", generation := 1, observedGeneration := 0
    deletionRequested := false, runtimeID := none }

theorem leaseAddress_ok {subnet : Subnet} {address : Addr}
    (run : leaseAddress subnet store = .ok (address, final)) :
    Leases store subnet address ∧ final = store := by
  unfold leaseAddress at run
  rw [get_bind_ok_iff] at run
  cases listed : store.eniAddresses subnet.id with
  | error failure => simp [listed] at run
  | ok used =>
      simp only [listed] at run
      cases leased : nextPrivateIP subnet.cidrBlock used with
      | error failure => cases failure <;> simp [leased] at run
      | ok found =>
          simp only [leased, pure_ok_iff] at run
          obtain ⟨rfl, rfl⟩ := run
          exact ⟨⟨used, leased, Store.eniAddresses_ok listed⟩, rfl⟩

theorem insertInstanceWithENI_ok {inst : Instance} {eni : ENI}
    {result : Unit}
    (run : insertInstanceWithENI inst eni store = .ok (result, final)) :
    eni.privateIP.is4 = true ∧
      (∃ bytes, validENIMAC eni.macAddress = .ok bytes) ∧
      (∀ other ∈ store.enis, other.instanceID ≠ eni.instanceID) ∧
      final = { store with
        instances := store.instances ++
          [{ id := inst.id, workspaceID := inst.workspaceID
             subnetID := inst.subnetID, shortIndex := inst.shortIndex
             name := inst.name, state := .pending, stateReason := ""
             generation := 1, observedGeneration := 0
             deletionRequested := false, runtimeID := none }]
        enis := store.enis ++ [{ eni with
          generation := 1, observedGeneration := 0, state := .pending
          stateReason := "" }] } := by
  unfold insertInstanceWithENI at run
  simp only [ite_ok_iff, bind_ok_iff, throw_ok_iff, false_and, exists_false,
    and_false, false_or, not_not] at run
  obtain ⟨-, is4, rest⟩ := run
  cases decoded : validENIMAC eni.macAddress with
  | error failure => simp [decoded] at rest
  | ok bytes =>
      simp only [decoded, bind_ok_iff] at rest
      obtain ⟨_, inserted, insertion, eniInsertion⟩ := rest
      obtain rfl := insertInstance_ok insertion
      obtain ⟨single, rfl⟩ := insertENI_ok eniInsertion
      exact ⟨is4, ⟨bytes, rfl⟩, single, rfl⟩

/-- The subnet and the address a new instance has been checked against. -/
structure InstanceFits (store : Store) (request : RunRequest)
    (subnet : Subnet) (eni : ENI) : Prop where
  parent : subnet ∈ store.subnets
  live : subnet.deletionRequested = false
  unused : store.Unused request.id
  eniUnused : store.Unused request.eniID
  distinct : request.id ≠ request.eniID
  lease : Leases store subnet eni.privateIP
  is4 : eni.privateIP.is4 = true
  mac : ∃ bytes, validENIMAC eni.macAddress = .ok bytes
  single : ∀ other ∈ store.enis, other.instanceID ≠ request.id

theorem insertNewInstance_ok {request : RunRequest} {subnet : Subnet}
    {result : Instance × Bool} (parent : subnet ∈ store.subnets)
    (live : subnet.deletionRequested = false)
    (run : insertNewInstance request subnet store = .ok (result, final)) :
    ∃ address,
      let row := request.row subnet.id (store.indexSequence + 1)
      let eni := request.eni subnet.id (store.indexSequence + 1 + 1) address
      InstanceFits store request subnet eni ∧
        result = (row.snapshot eni, true) ∧
        final = (Edit.apply store (.createInstance row eni
          request.now.unix)).remember
          (replayRecord .runInstance request.key
            (hashPayload request.payload) request.id (.inst result.1)
            request.now) := by
  simp only [insertNewInstance, bind_ok_iff, pure_ok_iff] at run
  obtain ⟨address, _, leased, index, indexed, allocated, eniIndex, eniIndexed,
    eniAllocated, _, inserted, insertion, _, logged, event, _, _, saved, rfl,
    rfl⟩ := run
  obtain ⟨lease, rfl⟩ := leaseAddress_ok leased
  obtain ⟨unused, rfl, rfl⟩ := allocateIndex_ok allocated
  obtain ⟨eniUnused, rfl, rfl⟩ := allocateIndex_ok eniAllocated
  obtain ⟨is4, mac, single, rfl⟩ := insertInstanceWithENI_ok insertion
  obtain rfl := appendEvent_ok event
  refine ⟨address, ?_, rfl, ?_⟩
  · exact
      { parent, live, unused
        eniUnused := fun index member =>
          eniUnused index (List.mem_append_left _ member)
        distinct := eniUnused _ (List.mem_append_right _
          (List.mem_singleton.mpr rfl))
        lease, is4, mac, single }
  · rw [saveReplay_remember saved]
    rfl

theorem runTx_ok {request : RunRequest} {result : Instance × Bool}
    (run : runTx request store = .ok (result, final)) :
    Replayed Response.inst? .runInstance request.key
        (hashPayload request.payload) request.now store result final ∨
      (∀ record, ¬ store.Live .runInstance request.key request.now record) ∧
      ∃ subnet address,
        let row := request.row subnet.id (store.indexSequence + 1)
        let eni := request.eni subnet.id (store.indexSequence + 1 + 1) address
        InstanceFits store request subnet eni ∧
          subnet.id = request.subnetID ∧
          result = (row.snapshot eni, true) ∧
          final = (Edit.apply store (.createInstance row eni
            request.now.unix)).remember
            (replayRecord .runInstance request.key
              (hashPayload request.payload) request.id (.inst result.1)
              request.now) := by
  unfold runTx at run
  rw [bind_ok_iff] at run
  obtain ⟨replay, middle, loaded, rest⟩ := run
  obtain ⟨rfl, ⟨rfl, expired⟩ | ⟨record, value, rfl, live, hash, decoded⟩⟩ :=
    loadReplay_ok loaded
  · right
    rw [get_bind_ok_iff] at rest
    cases lookup : middle.getSubnet defaultWorkspace request.subnetID with
    | error failure => cases failure <;> simp [lookup] at rest
    | ok subnet =>
        obtain ⟨parent, parentID, -⟩ := Store.getSubnet_ok lookup
        simp only [lookup, ite_ok_iff, bind_ok_iff, throw_ok_iff, false_and,
          exists_false, and_false, false_or] at rest
        obtain ⟨live, value, _, ⟨rfl, rfl⟩, rest⟩ := rest
        cases named : middle.getInstanceByName defaultWorkspace
            request.name with
        | ok inst => simp [named] at rest
        | error failure =>
            cases failure with
            | noRows =>
                simp only [named] at rest
                obtain ⟨address, fits, shape, change⟩ :=
                  insertNewInstance_ok parent (by simpa using live) rest
                exact ⟨expired, subnet, address, fits, parentID, shape,
                  change⟩
            | service error => simp [named] at rest
            | staleSnapshot => simp [named] at rest
            | constraint kind => simp [named] at rest
            | other message => simp [named] at rest
  · left
    simp only [pure_ok_iff] at rest
    exact ⟨record, value, live, hash, decoded, rest.1, rest.2⟩

section Deletions

variable (keyed : store.Keyed)

include keyed

theorem deleteVPCTx_ok {id : ID} {now : Time} {result : VPC × Bool}
    (run : deleteVPCTx id now store = .ok (result, final)) :
    ∃ vpc ∈ store.vpcs, vpc.id = id ∧
      (∀ subnet ∈ store.subnets, subnet.vpcID ≠ vpc.id) ∧
      (vpc.deletionRequested = true ∧ result = (vpc, false) ∧
          final = store ∨
        vpc.deletionRequested = false ∧ result = (vpc.marked, true) ∧
          final = Edit.apply store (.markVPC vpc now.unix)) := by
  unfold deleteVPCTx at run
  rw [get_bind_ok_iff] at run
  cases lookup : store.getVPC defaultWorkspace id with
  | error failure => cases failure <;> simp [lookup] at run
  | ok vpc =>
      obtain ⟨member, rfl, workspace⟩ := Store.getVPC_ok lookup
      simp only [lookup, get_bind_ok_iff] at run
      cases listed : store.listSubnetsByVPC vpc.id with
      | error failure => simp [listed] at run
      | ok children =>
          simp only [listed, ite_ok_iff, bind_ok_iff, throw_ok_iff, false_and,
            exists_false, and_false, false_or, ne_eq, not_not, pure_ok_iff,
            get_ok_iff] at run
          obtain ⟨childless, run⟩ := run
          refine ⟨vpc, member, rfl, ?_, ?_⟩
          · intro subnet subnetMember child
            have inside := (Store.mem_listSubnetsByVPC listed).mpr
              ⟨subnetMember, child⟩
            rw [childless] at inside
            cases inside
          · rcases run with ⟨requested, rfl, rfl⟩ | ⟨live, run⟩
            · exact .inl ⟨requested, rfl, rfl⟩
            · obtain ⟨_, _, marking, _, marked, ⟨rfl, rfl⟩, run⟩ := run
              rw [Bool.not_eq_true] at live
              have shape := markVPCDeleting_ok keyed member live (workspace ▸ marking)
              cases reread : marked.getVPC defaultWorkspace vpc.id with
              | error failure => simp [reread] at run
              | ok found =>
                  obtain ⟨inside, sameID, -⟩ := Store.getVPC_ok reread
                  rw [shape] at inside
                  obtain rfl := eq_of_mem_replace member inside rfl sameID
                  simp only [reread, bind_ok_iff, pure_ok_iff] at run
                  obtain ⟨_, _, event, rfl, rfl⟩ := run
                  rw [appendEvent_ok event, shape]
                  exact .inr ⟨live, rfl, rfl⟩

theorem deleteSubnetTx_ok {id : ID} {now : Time} {result : Subnet × Bool}
    (run : deleteSubnetTx id now store = .ok (result, final)) :
    ∃ subnet ∈ store.subnets, subnet.id = id ∧
      (∀ inst ∈ store.instances, inst.subnetID ≠ subnet.id) ∧
      (subnet.deletionRequested = true ∧ result = (subnet, false) ∧
          final = store ∨
        subnet.deletionRequested = false ∧ result = (subnet.marked, true) ∧
          final = Edit.apply store (.markSubnet subnet now.unix)) := by
  unfold deleteSubnetTx at run
  rw [get_bind_ok_iff] at run
  cases lookup : store.getSubnet defaultWorkspace id with
  | error failure => cases failure <;> simp [lookup] at run
  | ok subnet =>
      obtain ⟨member, rfl, workspace⟩ := Store.getSubnet_ok lookup
      simp only [lookup, get_bind_ok_iff] at run
      simp only [ite_ok_iff, bind_ok_iff, throw_ok_iff, false_and,
        exists_false, and_false, false_or, ne_eq, not_not, pure_ok_iff,
        get_ok_iff] at run
      obtain ⟨childless, run⟩ := run
      refine ⟨subnet, member, rfl, ?_, ?_⟩
      · intro inst instMember child
        have none := List.length_eq_zero_iff.mp childless
        have inside : inst ∈ store.instances.filter
            fun row => row.subnetID = subnet.id := by
          rw [List.mem_filter, decide_eq_true_iff]
          exact ⟨instMember, child⟩
        rw [none] at inside
        cases inside
      · rcases run with ⟨requested, rfl, rfl⟩ | ⟨live, run⟩
        · exact .inl ⟨requested, rfl, rfl⟩
        · obtain ⟨_, _, marking, _, marked, ⟨rfl, rfl⟩, run⟩ := run
          rw [Bool.not_eq_true] at live
          have shape := markSubnetDeleting_ok keyed member live (workspace ▸ marking)
          cases reread : marked.getSubnet defaultWorkspace subnet.id with
          | error failure => simp [reread] at run
          | ok found =>
              obtain ⟨inside, sameID, -⟩ := Store.getSubnet_ok reread
              rw [shape] at inside
              obtain rfl := eq_of_mem_replace member inside rfl sameID
              simp only [reread, bind_ok_iff, pure_ok_iff] at run
              obtain ⟨_, _, event, rfl, rfl⟩ := run
              rw [appendEvent_ok event, shape]
              exact .inr ⟨live, rfl, rfl⟩

theorem terminateTx_ok {id : ID} {now : Time} {result : Instance × Bool}
    (run : terminateTx id now store = .ok (result, final)) :
    ∃ row ∈ store.instances, ∃ eni ∈ store.enis, row.id = id ∧
      eni.instanceID = row.id ∧
      (row.deletionRequested = true ∧ result = (row.snapshot eni, false) ∧
          final = store ∨
        row.deletionRequested = false ∧
          result = (row.marked.snapshot eni, true) ∧
          final = Edit.apply store (.markInstance row now.unix)) := by
  unfold terminateTx at run
  rw [get_bind_ok_iff] at run
  cases lookup : store.getInstance defaultWorkspace id with
  | error failure => cases failure <;> simp [lookup] at run
  | ok current =>
      obtain ⟨row, member, eni, eniMember, rfl, workspace, owner, -, rfl⟩ :=
        Store.getInstance_ok lookup
      simp only [lookup, ite_ok_iff, bind_ok_iff, pure_ok_iff] at run
      refine ⟨row, member, eni, eniMember, rfl, owner, ?_⟩
      rcases run with ⟨requested, rfl, rfl⟩ | ⟨live, run⟩
      · exact .inl ⟨requested, rfl, rfl⟩
      · obtain ⟨_, marked, marking, _, _, event, rfl, rfl⟩ := run
        have unmarked : row.deletionRequested = false := by
          simpa [InstanceRow.snapshot] using live
        obtain rfl := markInstanceTerminating_ok keyed member unmarked
          (workspace ▸ marking)
        obtain rfl := appendEvent_ok event
        exact .inr ⟨unmarked, rfl, rfl⟩

end Deletions

end Nephos
