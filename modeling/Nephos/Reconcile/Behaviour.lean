import Nephos.Reconcile.Spec

/-!
# How operations come out

One lemma for each operation, without the choices behind it, and what the
operations of each thread leave alone.
-/

namespace Nephos

open Effects Transaction

/-- The calls that only look. -/
def External.Inspects : External → Prop
  | .ready _ | .ensureImage _ | .inspect _ | .listVPCNames
  | .openInstance _ _ => True
  | _ => False

namespace World

/-- The operation can come out with the result and lead to the world. -/
def Behaves (world : World) (op : Op) (result : op.Result)
    (after : World) : Prop :=
  ∃ choice, world.exec op choice = some (result, after)

namespace Behaves

variable {world after : World}

theorem getInstance {id : ID} {result : Except Failure Instance}
    (behaves : world.Behaves (.getInstance id) result after) :
    result = world.store.getInstance defaultWorkspace id ∧
      after = world := by
  obtain ⟨choice, run⟩ := behaves
  cases choice <;> cases run
  exact ⟨rfl, rfl⟩

theorem getSubnet {workspaceID id : ID} {result : Except Failure Subnet}
    (behaves : world.Behaves (.getSubnet workspaceID id) result after) :
    result = world.store.getSubnet workspaceID id ∧ after = world := by
  obtain ⟨choice, run⟩ := behaves
  cases choice <;> cases run
  exact ⟨rfl, rfl⟩

theorem getVPC {workspaceID id : ID} {result : Except Failure VPC}
    (behaves : world.Behaves (.getVPC workspaceID id) result after) :
    result = world.store.getVPC workspaceID id ∧ after = world := by
  obtain ⟨choice, run⟩ := behaves
  cases choice <;> cases run
  exact ⟨rfl, rfl⟩

theorem listSubnetsByVPC {vpcID : ID}
    {result : Except Failure (List Subnet)}
    (behaves : world.Behaves (.listSubnetsByVPC vpcID) result after) :
    result = world.store.listSubnetsByVPC vpcID ∧ after = world := by
  obtain ⟨choice, run⟩ := behaves
  cases choice <;> cases run
  exact ⟨rfl, rfl⟩

theorem listVPCPage {afterID : ID} {result : Except Failure (List VPC)}
    (behaves : world.Behaves (.listVPCPage afterID) result after) :
    result = world.store.listVPCPage defaultWorkspace afterID 100 ∧
      after = world := by
  obtain ⟨choice, run⟩ := behaves
  cases choice <;> cases run
  exact ⟨rfl, rfl⟩

theorem listInstancePage {afterID : ID}
    {result : Except Failure (List Instance)}
    (behaves : world.Behaves (.listInstancePage afterID) result after) :
    result = world.store.listInstancePage defaultWorkspace afterID 100 ∧
      after = world := by
  obtain ⟨choice, run⟩ := behaves
  cases choice <;> cases run
  exact ⟨rfl, rfl⟩

theorem loadPlumbing {instanceID : ID} {containerID : RuntimeID}
    {result : Except Failure (Instance × Subnet × VPC)}
    (behaves : world.Behaves (.loadPlumbing instanceID containerID) result
      after) :
    result = (world.store.withTx (plumbingTx instanceID containerID)).1 ∧
      after = world := by
  obtain ⟨choice, run⟩ := behaves
  cases choice <;> cases run
  exact ⟨rfl, rfl⟩

theorem contextErr {result : Bool}
    (behaves : world.Behaves .contextErr result after) : after = world := by
  obtain ⟨choice, run⟩ := behaves
  cases choice <;> cases run <;> rfl

theorem recordTopology {vpc : VPC} {subnets : List Subnet}
    {effectErr : Option String} {result : Except Failure Unit}
    (behaves : world.Behaves (.recordTopology vpc subnets effectErr) result
      after) :
    ∃ now, result = (world.store.withTx
        (Nephos.recordTopology vpc subnets effectErr now)).1 ∧
      after = { world with store := (world.store.withTx
        (Nephos.recordTopology vpc subnets effectErr now)).2 } := by
  obtain ⟨choice, run⟩ := behaves
  cases choice <;> cases run
  exact ⟨_, rfl, rfl⟩

theorem recordRuntimeID {instanceID : ID} {generation : Int}
    {runtimeID : RuntimeID} {result : Except Failure Unit}
    (behaves : world.Behaves (.recordRuntimeID instanceID generation
      runtimeID) result after) :
    result = (world.store.recordRuntimeID instanceID generation
        runtimeID).1 ∧
      after = { world with store := (world.store.recordRuntimeID instanceID
        generation runtimeID).2 } := by
  obtain ⟨choice, run⟩ := behaves
  cases choice <;> cases run
  exact ⟨rfl, rfl⟩

theorem retainTerminatingRuntimeID {instanceID : ID}
    {runtimeID : RuntimeID} {result : Except Failure Unit}
    (behaves : world.Behaves (.retainTerminatingRuntimeID instanceID
      runtimeID) result after) :
    result = (world.store.retainTerminatingRuntimeID instanceID
        runtimeID).1 ∧
      after = { world with store := (world.store.retainTerminatingRuntimeID
        instanceID runtimeID).2 } := by
  obtain ⟨choice, run⟩ := behaves
  cases choice <;> cases run
  exact ⟨rfl, rfl⟩

theorem recordInstance {snapshot : Instance} {status : InstanceState}
    {reason : String} {observed : Bool} {result : Except Failure Unit}
    (behaves : world.Behaves (.recordInstance snapshot status reason
      observed) result after) :
    ∃ now, result = (world.store.withTx (Nephos.recordInstance snapshot
        status reason observed now)).1 ∧
      after = { world with store := (world.store.withTx
        (Nephos.recordInstance snapshot status reason observed now)).2 } := by
  obtain ⟨choice, run⟩ := behaves
  cases choice <;> cases run
  exact ⟨_, rfl, rfl⟩

theorem finishInstanceTermination {snapshot : Instance}
    {result : Except Failure Unit}
    (behaves : world.Behaves (.finishInstanceTermination snapshot) result
      after) :
    ∃ now, result = (world.store.withTx
        (Nephos.finishInstanceTermination snapshot now)).1 ∧
      after = { world with store := (world.store.withTx
        (Nephos.finishInstanceTermination snapshot now)).2 } := by
  obtain ⟨choice, run⟩ := behaves
  cases choice <;> cases run
  exact ⟨_, rfl, rfl⟩

theorem enqueue {controller : Controller} {id : ID} {result : Unit}
    (behaves : world.Behaves (.enqueue controller id) result after) :
    after = world.enqueue controller id := by
  obtain ⟨choice, run⟩ := behaves
  cases choice <;> cases run
  rfl

theorem queued {op : Op} {result : op.Result}
    (behaves : world.Behaves op result after)
    (queues : ∃ controller id, op = .enqueue controller id ∨
      op = .retry controller id ∨ op = .clearRetry controller id) :
    ∃ controller change, after = world.onQueue controller change := by
  obtain ⟨choice, run⟩ := behaves
  obtain ⟨controller, id, rfl | rfl | rfl⟩ := queues <;>
    cases choice <;> cases run <;> exact ⟨_, _, rfl⟩

theorem act {call : External} {result : Unit}
    (behaves : world.Behaves (.act call) result after) :
    ∃ choice, world.act call choice = some after := by
  obtain ⟨choice, run⟩ := behaves
  obtain ⟨_, acted, same⟩ := Option.map_eq_some_iff.mp run
  cases same
  exact ⟨choice, acted⟩

theorem idle {call : External} {result : Unit}
    (behaves : world.Behaves (.act call) result after)
    (inspects : call.Inspects) : after = world := by
  obtain ⟨choice, acted⟩ := behaves.act
  cases call <;> cases inspects <;> cases choice <;> cases acted <;> rfl

theorem start {id : RuntimeID} {result : Unit}
    (behaves : world.Behaves (.act (.start id)) result after) :
    after = world ∨ after = { world with
      containers := world.containers.map fun container =>
        if container.id = id then { container with running := true }
        else container } := by
  obtain ⟨choice, acted⟩ := behaves.act
  cases choice <;> cases acted
  · exact .inl rfl
  · exact .inr rfl

theorem create {inst : Instance} {result : Unit}
    (behaves : world.Behaves (.act (.create inst)) result after) :
    after = world ∨ ∃ id, world.addContainer inst.id id = some after := by
  obtain ⟨choice, acted⟩ := behaves.act
  cases choice with
  | plain =>
      cases acted
      exact .inl rfl
  | created id => exact .inr ⟨id, acted⟩
  | _ => cases acted

theorem delete {id : RuntimeID} {result : Unit}
    (behaves : world.Behaves (.act (.delete id)) result after) :
    after = world ∨ after = { world with
      containers := world.containers.filter (·.id ≠ id) } := by
  obtain ⟨choice, acted⟩ := behaves.act
  cases choice <;> cases acted
  · exact .inl rfl
  · exact .inr rfl

theorem deleteENI {vpc : VPC} {eni : ENI} {result : Unit}
    (behaves : world.Behaves (.act (.deleteENI vpc eni)) result after) :
    ∃ links, (∀ link ∈ links, link ∈ world.links) ∧
      after = { world with links } := by
  obtain ⟨choice, acted⟩ := behaves.act
  cases choice <;> cases acted
  · exact ⟨_, fun _ member => member, rfl⟩
  · exact ⟨_, fun _ member => (List.mem_filter.mp member).1, rfl⟩

theorem wires {vpc : VPC} {subnet : Subnet} {eni : ENI} {result : Unit}
    (behaves : world.Behaves (.act (.ensureENI vpc subnet eni)) result
      after) :
    after = world ∨
      after = { world with links := world.links ++ [eni.link vpc] } := by
  obtain ⟨choice, acted⟩ := behaves.act
  cases choice <;> cases acted
  · exact .inl rfl
  · split
    · exact .inl rfl
    · exact .inr rfl

theorem ensureENI {vpc : VPC} {subnet : Subnet} {eni : ENI} {result : Unit}
    (behaves : world.Behaves (.act (.ensureENI vpc subnet eni)) result
      after) :
    ∃ links, (∀ link ∈ links, link ∈ world.links ∨ link = eni.link vpc) ∧
      after = { world with links } := by
  rcases behaves.wires with rfl | rfl
  · exact ⟨_, fun _ member => .inl member, rfl⟩
  · exact ⟨_, fun link member =>
      (List.mem_append.mp member).imp_right List.mem_singleton.mp, rfl⟩

theorem ensureVPC {vpc : VPC} {subnets : List Subnet} {result : Unit}
    (behaves : world.Behaves (.act (.ensureVPC vpc subnets)) result after) :
    after = world ∨ ∃ name namespaces addresses,
      netnsName vpc.shortIndex = .ok name ∧
      (∀ other ∈ namespaces, other ∈ world.namespaces ∨ other = name) ∧
      after = { world with
        namespaces
        gateways := Function.update world.gateways vpc.shortIndex
          addresses } := by
  obtain ⟨choice, acted⟩ := behaves.act
  cases choice with
  | plain =>
      cases acted
      exact .inl rfl
  | gateways addresses =>
      rw [World.act] at acted
      split at acted
      · cases acted
      · rename_i name named
        cases acted
        refine .inr ⟨name, _, addresses, named, fun other member => ?_, rfl⟩
        split at member
        · exact .inl member
        · exact (List.mem_append.mp member).imp_right List.mem_singleton.mp
  | _ => cases acted

theorem deleteVPC {id : ID} {index : Int} {result : Unit}
    (behaves : world.Behaves (.act (.deleteVPC id index)) result after) :
    ∃ namespaces gateways links,
      (∀ name ∈ namespaces, name ∈ world.namespaces) ∧
      (∀ link ∈ links, link ∈ world.links) ∧
      after = { world with namespaces, gateways, links } := by
  obtain ⟨choice, acted⟩ := behaves.act
  cases choice with
  | plain =>
      cases acted
      exact ⟨_, _, _, fun _ member => member, fun _ member => member, rfl⟩
  | effect =>
      rw [World.act] at acted
      split at acted
      · cases acted
      · cases acted
        exact ⟨_, _, _, fun _ member => (List.mem_filter.mp member).1,
          fun _ member => (List.mem_filter.mp member).1, rfl⟩
  | _ => cases acted

theorem answer {call : External} {result : Except String call.Value}
    (behaves : world.Behaves (.answer call) result after) :
    after = world ∧ ∀ value, result = .ok value →
      ∃ choice, world.found call choice = some value := by
  obtain ⟨choice, run⟩ := behaves
  cases choice with
  | fails message =>
      cases run
      exact ⟨rfl, fun _ impossible => by cases impossible⟩
  | _ =>
      obtain ⟨value, found, same⟩ := Option.map_eq_some_iff.mp run
      cases same
      refine ⟨rfl, fun _ shape => ?_⟩
      cases shape
      exact ⟨_, found⟩

theorem created {inst : Instance} {id : RuntimeID}
    (behaves : world.Behaves (.answer (.create inst)) (.ok id) after) :
    ∃ container ∈ world.containers, container.instanceID = inst.id ∧
      container.id = id := by
  obtain ⟨choice, found⟩ := behaves.answer.2 id rfl
  cases choice with
  | succeeds =>
      obtain ⟨container, lookup, same⟩ := Option.map_eq_some_iff.mp found
      have named := List.find?_some lookup
      rw [decide_eq_true_iff] at named
      exact ⟨container, List.mem_of_find?_eq_some lookup, named, same⟩
  | _ => cases found

theorem deleted {id : RuntimeID} {value : Unit}
    (behaves : world.Behaves (.answer (.delete id)) (.ok value) after) :
    ∀ container ∈ world.containers, container.id ≠ id := by
  obtain ⟨choice, found⟩ := behaves.answer.2 value rfl
  cases choice with
  | succeeds =>
      rw [World.found] at found
      split at found
      · assumption
      · cases found
  | _ => cases found

theorem deletedENI {vpc : VPC} {eni : ENI} {value : Unit}
    (behaves : world.Behaves (.answer (.deleteENI vpc eni)) (.ok value)
      after) :
    eni.link vpc ∉ world.links := by
  obtain ⟨choice, found⟩ := behaves.answer.2 value rfl
  cases choice with
  | succeeds =>
      rw [World.found] at found
      split at found
      · rename_i absent
        exact fun member => absent _ member ⟨rfl, rfl⟩
      · cases found
  | _ => cases found

theorem ensuredVPC {vpc : VPC} {subnets : List Subnet} {value : Unit}
    (behaves : world.Behaves (.answer (.ensureVPC vpc subnets)) (.ok value)
      after) :
    ∀ address, address ∈ world.gateways vpc.shortIndex ↔
      address ∈ subnets.map Subnet.gateway := by
  obtain ⟨choice, found⟩ := behaves.answer.2 value rfl
  cases choice with
  | succeeds =>
      rw [World.found] at found
      split at found
      · cases found
      · split at found
        · rename_i holds
          exact fun address => ⟨holds.2.1 address, holds.2.2 address⟩
        · cases found
  | _ => cases found

theorem deletedVPC {id : ID} {index : Int} {value : Unit}
    (behaves : world.Behaves (.answer (.deleteVPC id index)) (.ok value)
      after) :
    ∀ name, netnsName index = .ok name → name ∉ world.namespaces := by
  obtain ⟨choice, found⟩ := behaves.answer.2 value rfl
  cases choice with
  | succeeds =>
      intro name named
      rw [World.found, named] at found
      simpa only [ite_eq_right_iff, reduceCtorEq, imp_false] using found
  | _ => cases found

theorem listed {names : List String}
    (behaves : world.Behaves (.answer .listVPCNames) (.ok names) after) :
    ∀ name ∈ names, name ∈ world.namespaces := by
  obtain ⟨choice, found⟩ := behaves.answer.2 names rfl
  cases choice with
  | names others =>
      rw [World.found] at found
      split at found
      · cases found
        assumption
      · cases found
  | _ => cases found

end Behaves

end World

end Nephos
