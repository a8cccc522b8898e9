import Nephos.Reconcile.Controllers

/-!
# The daemon

The requests of the API, the two controllers and the handlers of the hook
run side by side.  A controller works on one pass at a time, under its lock.
The hook runs while a container starts.  At any moment the daemon may crash
and lose its threads and queues; the database, the containers and the kernel
stay.
-/

namespace Nephos

open Effects

structure Daemon where
  world : World
  instanceWork : Option Pass
  vpcWork : Option Pass
  plumbing : List (Call Nat)

inductive Label where
  | serve (write : Write)
  | reconcileInstance (id : ID)
  | sweepInstances (pages : Nat)
  | reconcileVPC (id : ID)
  | sweepVPCs (pages : Nat)
  | plumb (request : PlumbRequest)
  | instanceStep (choice : Choice)
  | vpcStep (choice : Choice)
  | plumbStep (index : Nat) (choice : Choice)
  | dueRetries (controller : Controller) (now : Time) (order : List ID)
  | crash
  | exit (id : RuntimeID)
  | vanish (id : RuntimeID)

/-- What a request of the API leaves: the controller that it hints, the
database and the hints. -/
def Write.request (store : Store) :
    Write → Option (Controller × Store × List ID)
  | .createVPC input key random now =>
      let outcome := Nephos.createVPC input key random now store
      some (.vpc, outcome.store, outcome.enqueued)
  | .deleteVPC id now =>
      let outcome := Nephos.deleteVPC id now store
      some (.vpc, outcome.store, outcome.enqueued)
  | .createSubnet input key random now =>
      let outcome := Nephos.createSubnet input key random now store
      some (.vpc, outcome.store, outcome.enqueued)
  | .deleteSubnet id now =>
      let outcome := Nephos.deleteSubnet id now store
      some (.vpc, outcome.store, outcome.enqueued)
  | .run input key random eniRandom now =>
      let outcome := Nephos.run input key random eniRandom now store
      some (.inst, outcome.store, outcome.enqueued)
  | .terminateSnapshot id now =>
      let outcome := Nephos.terminateSnapshot id now store
      some (.inst, outcome.store, outcome.enqueued)
  | _ => none

namespace World

/-- One step of a thread: a thread that is done leaves. -/
def advance {α : Type} (world : World) (thread : Call α) (choice : Choice) :
    Option (Option (Call α) × World) :=
  match thread with
  | .done _ => some (none, world)
  | .call op next =>
      (world.exec op choice).map fun outcome =>
        (some (next outcome.1), outcome.2)

/-- What is left of the world after a crash of the daemon. -/
def restarted (world : World) : World :=
  { world with vpcQueue := .empty, instanceQueue := .empty }

end World

/-- Whether the thread waits for the answer of a start. -/
def returnsFromStart : Pass → Bool
  | .call (.answer (.start _)) _ => true
  | _ => false

namespace Daemon

variable (daemon : Daemon)

def initial (namespaces : List String) : Daemon :=
  { world :=
      { store := .empty, namespaces, gateways := fun _ => [], links := []
        containers := [], created := [], vpcQueue := .empty
        instanceQueue := .empty }
    instanceWork := none, vpcWork := none, plumbing := [] }

/-- Begin a pass of the instance controller. -/
def beginInstance (world : World) (pass : Pass) : Option Daemon :=
  if daemon.instanceWork.isNone then
    some { daemon with world, instanceWork := some pass }
  else none

def beginVPC (world : World) (pass : Pass) : Option Daemon :=
  if daemon.vpcWork.isNone then
    some { daemon with world, vpcWork := some pass }
  else none

def step : Label → Option Daemon
  | .serve write =>
      (write.request daemon.world.store).map fun (controller, store, hints) =>
        { daemon with
          world := hints.foldl (·.enqueue controller ·)
            { daemon.world with store } }
  | .reconcileInstance id =>
      if id ∈ daemon.world.instanceQueue.pending then
        daemon.beginInstance (daemon.world.onQueue .inst (·.pop id))
          (InstanceController.reconcileLocked id)
      else none
  | .sweepInstances pages =>
      daemon.beginInstance daemon.world (InstanceController.sweep pages "")
  | .reconcileVPC id =>
      if id ∈ daemon.world.vpcQueue.pending then
        daemon.beginVPC (daemon.world.onQueue .vpc (·.pop id))
          (VPCController.reconcileLocked id)
      else none
  | .sweepVPCs pages =>
      daemon.beginVPC daemon.world (VPCController.sweep pages)
  | .plumb request =>
      if daemon.instanceWork.any returnsFromStart then
        some { daemon with
          plumbing := daemon.plumbing ++ [Nephos.plumb request] }
      else none
  | .instanceStep choice =>
      match daemon.instanceWork with
      | none => none
      | some thread =>
          -- the start of a container returns when the hook is done with it
          if returnsFromStart thread ∧ daemon.plumbing ≠ [] then none
          else (daemon.world.advance thread choice).map fun outcome =>
            { daemon with world := outcome.2, instanceWork := outcome.1 }
  | .vpcStep choice =>
      match daemon.vpcWork with
      | none => none
      | some thread =>
          (daemon.world.advance thread choice).map fun outcome =>
            { daemon with world := outcome.2, vpcWork := outcome.1 }
  | .plumbStep index choice =>
      match daemon.plumbing[index]? with
      | none => none
      | some thread =>
          (daemon.world.advance thread choice).map fun outcome =>
            { daemon with
              world := outcome.2
              plumbing := daemon.plumbing.take index ++ outcome.1.toList ++
                daemon.plumbing.drop (index + 1) }
  | .dueRetries controller now order =>
      if order.Perm (daemon.world.queue controller).retries.keys then
        some { daemon with
          world := daemon.world.onQueue controller
            (·.enqueueDueRetries now order) }
      else none
  | .crash => some
      { world := daemon.world.restarted, instanceWork := none
        vpcWork := none, plumbing := [] }
  | .exit id => some { daemon with world := { daemon.world with
      containers := daemon.world.containers.map fun container =>
        if container.id = id then { container with running := false }
        else container } }
  | .vanish id => some { daemon with world := { daemon.world with
      containers := daemon.world.containers.filter (·.id ≠ id) } }

/-- Take some steps one after the other. -/
def run (labels : List Label) : Option Daemon :=
  labels.foldlM step daemon

end Daemon

/-- The daemon with its surroundings.  At first the database is empty and no
namespace has the name of one of its VPCs. -/
def system : Transition.System Daemon Label where
  Initial daemon := ∃ namespaces : List String,
    (∀ name ∈ namespaces, ∀ index, netnsName index ≠ .ok name) ∧
      daemon = .initial namespaces
  Step daemon label next := daemon.step label = some next

theorem Daemon.run_reachable {labels : List Label} {daemon : Daemon}
    (ran : (Daemon.initial []).run labels = some daemon) :
    system.Reachable daemon := by
  refine ⟨.initial [], labels, ⟨[], fun name member => ?_, rfl⟩,
    .of_steps (fun stepped => stepped) ran⟩
  cases member

/-- The VPC and the subnet of the first requests become available. -/
def firstNetwork : List Label :=
  (firstRequests.take 2).map .serve ++
    [ .reconcileVPC "vpc-01010101010101010",
      .vpcStep .plain, .vpcStep .plain,
      .vpcStep (.gateways [.v4 0x0a000101#32]), .vpcStep .succeeds,
      .vpcStep .plain, .vpcStep (.clock 1), .vpcStep .plain,
      .vpcStep .plain ]

/-- The instance of the first requests is reconciled until its container is
made. -/
def firstCreate : List Label :=
  firstNetwork ++ (firstRequests.drop 2).map .serve ++
    [ .reconcileInstance "i-03030303030303030",
      .instanceStep .plain, .instanceStep .plain, .instanceStep .succeeds,
      .instanceStep .plain, .instanceStep .plain, .instanceStep .plain,
      .instanceStep .succeeds, .instanceStep (.created "c1") ]

/-- Then the identity of the container is recorded. -/
def firstRecord : List Label :=
  firstCreate ++ [.instanceStep .succeeds, .instanceStep .plain]

/-- While the container starts, the hook makes its link. -/
def firstPlumb : List Label :=
  firstRecord ++
    [ .instanceStep .plain, .instanceStep .effect,
      .plumb ⟨"i-03030303030303030", "c1", 7⟩, .plumbStep 0 .plain,
      .plumbStep 0 .plain, .plumbStep 0 .succeeds, .plumbStep 0 .effect ]

/-- The instance is terminated, up to the last commit. -/
def firstTermination : List Label :=
  firstRecord ++
    [ .serve (.terminateSnapshot "i-03030303030303030" 2),
      .instanceStep .plain, .instanceStep .plain, .instanceStep .plain,
      .reconcileInstance "i-03030303030303030", .instanceStep .plain,
      .instanceStep .effect, .instanceStep .succeeds,
      .instanceStep .plain, .instanceStep .plain,
      .instanceStep .effect, .instanceStep .succeeds ]

end Nephos
