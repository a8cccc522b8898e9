import Nephos.Reconcile.World

/-!
# Calls

The operations that a thread of the daemon can wait for.  Operations of the
store are atomic and fail only as their statements do: an error of the disk or
of the driver is not among their outcomes.  A call to the runtime or to the
network is two operations, its effect and its answer, with room for every
other thread in between.

An operation is deterministic up to a `Choice`: the clock it reads, whether a
call takes effect and how it is answered.
-/

namespace Nephos

/-- Calls to the runtime, the network and the hook's namespaces. -/
inductive External where
  | ready (inst : Instance)
  | ensureImage (ref : String)
  | create (inst : Instance)
  | start (id : RuntimeID)
  | delete (id : RuntimeID)
  | inspect (id : RuntimeID)
  | ensureVPC (vpc : VPC) (subnets : List Subnet)
  | deleteVPC (id : ID) (shortIndex : Int)
  | listVPCNames
  | deleteENI (vpc : VPC) (eni : ENI)
  | openInstance (pid : Nat) (containerID : RuntimeID)
  | ensureENI (vpc : VPC) (subnet : Subnet) (eni : ENI)

namespace External

@[reducible] def Value : External → Type
  | .create _ => RuntimeID
  | .inspect _ => Bool
  | .listVPCNames => List String
  | _ => Unit

end External

inductive Controller where
  | vpc
  | inst
deriving DecidableEq, Repr

inductive Op where
  | getInstance (id : ID)
  | getSubnet (workspaceID id : ID)
  | getVPC (workspaceID id : ID)
  | listSubnetsByVPC (vpcID : ID)
  | listVPCPage (afterID : ID)
  | listInstancePage (afterID : ID)
  | loadPlumbing (instanceID : ID) (containerID : RuntimeID)
  | recordTopology (vpc : VPC) (subnets : List Subnet)
      (effectErr : Option String)
  | recordRuntimeID (instanceID : ID) (generation : Int)
      (runtimeID : RuntimeID)
  | retainTerminatingRuntimeID (instanceID : ID) (runtimeID : RuntimeID)
  | recordInstance (snapshot : Instance) (status : InstanceState)
      (reason : String) (observed : Bool)
  | finishInstanceTermination (snapshot : Instance)
  | contextErr
  | act (call : External)
  | answer (call : External)
  | enqueue (controller : Controller) (id : ID)
  | retry (controller : Controller) (id : ID)
  | clearRetry (controller : Controller) (id : ID)

@[reducible] def Op.Result : Op → Type
  | .getInstance _ => Except Failure Instance
  | .getSubnet _ _ => Except Failure Subnet
  | .getVPC _ _ => Except Failure VPC
  | .listSubnetsByVPC _ => Except Failure (List Subnet)
  | .listVPCPage _ => Except Failure (List VPC)
  | .listInstancePage _ => Except Failure (List Instance)
  | .loadPlumbing _ _ => Except Failure (Instance × Subnet × VPC)
  | .recordTopology _ _ _ | .recordRuntimeID _ _ _
  | .retainTerminatingRuntimeID _ _ | .recordInstance _ _ _ _
  | .finishInstanceTermination _ => Except Failure Unit
  | .contextErr => Bool
  | .answer call => Except String call.Value
  | .act _ | .enqueue _ _ | .retry _ _ | .clearRetry _ _ => Unit

/-- How an operation comes out where its arguments do not decide it. -/
inductive Choice where
  | plain
  | clock (now : Time)
  | cancelled
  | effect
  | created (id : RuntimeID)
  | gateways (addresses : List Addr)
  | succeeds
  | names (listed : List String)
  | fails (message : String)

/-- The read of the hook's handler, in one transaction. -/
def plumbingTx (instanceID : ID) (containerID : RuntimeID) :
    Tx (Instance × Subnet × VPC) := do
  match (← get).getInstance defaultWorkspace instanceID with
  | .error failure => throw failure
  | .ok inst =>
      if inst.deletionRequested ∨ inst.runtimeID ≠ containerID then
        throw (.other "runtime identity does not match live desired instance")
      match (← get).getSubnet defaultWorkspace inst.subnetID with
      | .error failure => throw failure
      | .ok subnet =>
          match (← get).getVPC defaultWorkspace subnet.vpcID with
          | .error failure => throw failure
          | .ok vpc =>
              if subnet.deletionRequested ∨ vpc.deletionRequested ∨
                  subnet.state ≠ .available ∨ vpc.state ≠ .available ∨
                  subnet.observedGeneration ≠ subnet.generation ∨
                  vpc.observedGeneration ≠ vpc.generation then
                throw (.other "network prerequisites are not converged")
              return (inst, subnet, vpc)

namespace World

variable (world : World)

def onQueue (controller : Controller) (change : Queue → Queue) : World :=
  match controller with
  | .vpc => { world with vpcQueue := change world.vpcQueue }
  | .inst => { world with instanceQueue := change world.instanceQueue }

def queue : Controller → Queue
  | .vpc => world.vpcQueue
  | .inst => world.instanceQueue

def enqueue (controller : Controller) (id : ID) : World :=
  world.onQueue controller (·.enqueue id)

/-- A new container of an instance, unless the runtime has one. -/
def addContainer (instanceID : ID) (id : RuntimeID) : Option World :=
  if id ≠ "" ∧ (∀ made ∈ world.created, made.1 ≠ id) ∧
      ∀ container ∈ world.containers, container.instanceID ≠ instanceID then
    some { world with
      containers := world.containers ++ [⟨id, instanceID, false⟩]
      created := world.created ++ [(id, instanceID)] }
  else none

/-- The effect of an outstanding call, if it takes one. -/
def act : External → Choice → Option World
  | .create inst, .created id => world.addContainer inst.id id
  | .start id, .effect => some { world with
      containers := world.containers.map fun container =>
        if container.id = id then { container with running := true }
        else container }
  | .delete id, .effect => some { world with
      containers := world.containers.filter (·.id ≠ id) }
  | .ensureVPC vpc _, .gateways addresses =>
      match netnsName vpc.shortIndex with
      | .error _ => none
      | .ok name => some { world with
          namespaces := if name ∈ world.namespaces then world.namespaces
            else world.namespaces ++ [name]
          gateways := Function.update world.gateways vpc.shortIndex
            addresses }
  | .deleteVPC _ index, .effect =>
      match netnsName index with
      | .error _ => none
      | .ok name => some { world with
          namespaces := world.namespaces.filter (· ≠ name)
          gateways := Function.update world.gateways index []
          links := world.links.filter (·.vpcIndex ≠ index) }
  | .deleteENI vpc eni, .effect => some { world with
      links := world.links.filter fun link =>
        ¬ (link.vpcIndex = vpc.shortIndex ∧ link.eniIndex = eni.shortIndex) }
  | .ensureENI vpc _ eni, .effect => some { world with
      links := if eni.link vpc ∈ world.links then world.links
        else world.links ++ [eni.link vpc] }
  | _, .plain => some world
  | _, _ => none

/-- What a successful call has found. -/
def found : (call : External) → Choice → Option call.Value
  | .create inst, .succeeds =>
      (world.containers.find? (·.instanceID = inst.id)).map Container.id
  | .inspect id, .succeeds =>
      (world.containers.find? (·.id = id)).map Container.running
  | .start id, .succeeds =>
      if ∃ container ∈ world.containers, container.id = id then some ()
      else none
  | .delete id, .succeeds =>
      if ∀ container ∈ world.containers, container.id ≠ id then some ()
      else none
  | .ensureVPC vpc subnets, .succeeds =>
      match netnsName vpc.shortIndex with
      | .error _ => none
      | .ok name =>
          if name ∈ world.namespaces ∧
              (∀ address ∈ world.gateways vpc.shortIndex,
                address ∈ subnets.map Subnet.gateway) ∧
              ∀ address ∈ subnets.map Subnet.gateway,
                address ∈ world.gateways vpc.shortIndex then
            some ()
          else none
  | .deleteVPC _ index, .succeeds =>
      match netnsName index with
      | .error _ => none
      | .ok name => if name ∈ world.namespaces then none else some ()
  | .listVPCNames, .names listed =>
      if ∀ name ∈ listed, name ∈ world.namespaces then some listed else none
  | .deleteENI vpc eni, .succeeds =>
      if ∀ link ∈ world.links, ¬ (link.vpcIndex = vpc.shortIndex ∧
          link.eniIndex = eni.shortIndex) then some ()
      else none
  | .ensureENI vpc _ eni, .succeeds =>
      if eni.link vpc ∈ world.links then some () else none
  | .ready _, .succeeds | .ensureImage _, .succeeds
  | .openInstance _ _, .succeeds => some ()
  | _, _ => none

/-- A call fails at will, or succeeds in accordance with the world. -/
def answer (call : External) (choice : Choice) :
    Option (Except String call.Value × World) :=
  match choice with
  | .fails message => some (.error message, world)
  | _ => (world.found call choice).map fun value => (.ok value, world)

/-- Let a statement change the database. -/
def onStore {α : Type} (change : Store → Except Failure α × Store) :
    Except Failure α × World :=
  ((change world.store).1, { world with store := (change world.store).2 })

def exec : (op : Op) → Choice → Option (op.Result × World)
  | .getInstance id, .plain =>
      some (world.store.getInstance defaultWorkspace id, world)
  | .getSubnet workspaceID id, .plain =>
      some (world.store.getSubnet workspaceID id, world)
  | .getVPC workspaceID id, .plain =>
      some (world.store.getVPC workspaceID id, world)
  | .listSubnetsByVPC vpcID, .plain =>
      some (world.store.listSubnetsByVPC vpcID, world)
  | .listVPCPage afterID, .plain =>
      some (world.store.listVPCPage defaultWorkspace afterID 100, world)
  | .listInstancePage afterID, .plain =>
      some (world.store.listInstancePage defaultWorkspace afterID 100, world)
  | .loadPlumbing instanceID containerID, .plain =>
      some ((world.store.withTx (plumbingTx instanceID containerID)).1, world)
  | .recordTopology vpc subnets effectErr, .clock now =>
      some (world.onStore (Store.withTx
        (Nephos.recordTopology vpc subnets effectErr now)))
  | .recordRuntimeID instanceID generation runtimeID, .plain =>
      some (world.onStore (Store.recordRuntimeID instanceID generation
        runtimeID))
  | .retainTerminatingRuntimeID instanceID runtimeID, .plain =>
      some (world.onStore (Store.retainTerminatingRuntimeID instanceID
        runtimeID))
  | .recordInstance snapshot status reason observed, .clock now =>
      some (world.onStore (Store.withTx
        (Nephos.recordInstance snapshot status reason observed now)))
  | .finishInstanceTermination snapshot, .clock now =>
      some (world.onStore (Store.withTx
        (Nephos.finishInstanceTermination snapshot now)))
  | .contextErr, .plain => some (false, world)
  | .contextErr, .cancelled => some (true, world)
  | .act call, choice => (world.act call choice).map fun after => ((), after)
  | .answer call, choice => world.answer call choice
  | .enqueue controller id, .plain => some ((), world.enqueue controller id)
  | .retry controller id, .clock now =>
      some ((), world.onQueue controller (·.retry now id))
  | .clearRetry controller id, .plain =>
      some ((), world.onQueue controller (·.clearRetry id))
  | _, _ => none

end World

end Nephos
