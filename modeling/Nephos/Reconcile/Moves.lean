import Nephos.Reconcile.Threads

/-!
# The moves of the daemon

What each party does to the world, seen from the others, and the moves of
the daemon listed once for all invariants of it.
-/

namespace Nephos

open Effects Transaction

/-- The database is the same, or comes from one of the writes. -/
def Store.Within (allowed : Write → Prop) (store after : Store) : Prop :=
  after = store ∨ ∃ write, allowed write ∧ after = write.apply store

namespace Store.Within

variable {allowed wider : Write → Prop} {store after : Store}

theorem mono (within : store.Within allowed after)
    (implies : ∀ write, allowed write → wider write) :
    store.Within wider after :=
  within.imp_right fun ⟨write, allows, same⟩ =>
    ⟨write, implies write allows, same⟩

theorem sound (within : store.Within allowed after)
    (kept : store.Sound) : after.Sound := by
  rcases within with rfl | ⟨write, -, rfl⟩
  · exact kept
  · exact write.sound kept

theorem evolves (within : store.Within allowed after)
    (kept : store.Sound) : store.Evolves after := by
  rcases within with rfl | ⟨write, -, rfl⟩
  · exact .refl _
  · exact write.evolves kept.keyed

theorem instancesKept (within : store.Within Write.Foreign after)
    (kept : store.Sound) : InstancesKept store after := by
  rcases within with rfl | ⟨write, foreign, rfl⟩
  · exact .refl _
  · exact write.instancesKept kept foreign

theorem rowsKept (within : store.Within allowed after)
    (kept : store.Sound)
    (unfinished : ∀ snapshot now,
      ¬ allowed (.finishInstanceTermination snapshot now)) :
    RowsKept store after := by
  rcases within with rfl | ⟨write, allows, rfl⟩
  · exact .refl _
  · apply write.rowsKept kept
    rintro snapshot now rfl
    exact unfinished snapshot now allows

theorem vpcsKept (within : store.Within Write.Alien after)
    (kept : store.Sound) : VPCsKept store after := by
  rcases within with rfl | ⟨write, alien, rfl⟩
  · exact .refl _
  · exact write.vpcsKept kept alien

end Store.Within

/-- The writes that an operation can be. -/
def Op.Writes : Op → Write → Prop
  | .recordTopology vpc subnets effectErr, write =>
      ∃ now, write = .recordTopology vpc subnets effectErr now
  | .recordRuntimeID instanceID generation runtimeID, write =>
      write = .recordRuntimeID instanceID generation runtimeID
  | .retainTerminatingRuntimeID instanceID runtimeID, write =>
      write = .retainTerminatingRuntimeID instanceID runtimeID
  | .recordInstance snapshot status reason observed, write =>
      ∃ now, write = .recordInstance snapshot status reason observed now
  | .finishInstanceTermination snapshot, write =>
      ∃ now, write = .finishInstanceTermination snapshot now
  | _, _ => False

theorem Op.OfVPC.writes {op : Op} {write : Write} (ofVPC : op.OfVPC)
    (writes : op.Writes write) : write.Foreign := by
  cases op <;> try exact writes.elim
  case recordTopology =>
    obtain ⟨now, rfl⟩ := writes
    trivial
  all_goals exact ofVPC.elim

theorem Op.OfInstance.writes {op : Op} {write : Write}
    (ofInstance : op.OfInstance) (writes : op.Writes write) :
    write.Alien := by
  cases op <;> try exact writes.elim
  case recordTopology => exact ofInstance.elim
  case recordRuntimeID =>
    obtain rfl := writes
    trivial
  case retainTerminatingRuntimeID =>
    obtain rfl := writes
    trivial
  all_goals
    obtain ⟨now, rfl⟩ := writes
    trivial

namespace World

variable {world after : World}

@[simp] theorem onQueue_store (controller : Controller)
    (change : Queue → Queue) :
    (world.onQueue controller change).store = world.store := by
  cases controller <;> rfl

@[simp] theorem onQueue_links (controller : Controller)
    (change : Queue → Queue) :
    (world.onQueue controller change).links = world.links := by
  cases controller <;> rfl

theorem onQueue_onQueue (controller : Controller)
    (first second : Queue → Queue) :
    (world.onQueue controller first).onQueue controller second =
      world.onQueue controller (second ∘ first) := by
  cases controller <;> rfl

theorem foldl_enqueue (controller : Controller) (hints : List ID) :
    hints.foldl (·.enqueue controller ·) world =
      world.onQueue controller fun queue =>
        hints.foldl (fun queue hint => queue.enqueue hint) queue := by
  induction hints generalizing world with
  | nil => cases controller <;> rfl
  | cons hint hints induction =>
      rw [List.foldl_cons, induction, enqueue, onQueue_onQueue]
      rfl

/-- The containers, without whether they run. -/
def names (world : World) : List (RuntimeID × ID) :=
  world.containers.map fun container => (container.id, container.instanceID)

theorem mem_names {id : RuntimeID} {instanceID : ID} :
    (id, instanceID) ∈ world.names ↔ ∃ container ∈ world.containers,
      container.id = id ∧ container.instanceID = instanceID := by
  simp [names]

/-- Whether a container runs does not show in its name. -/
theorem names_running (id : RuntimeID) (running : Bool) :
    World.names { world with
      containers := world.containers.map fun container =>
        if container.id = id then { container with running }
        else container } = world.names := by
  rw [names, names, List.map_map]
  apply List.map_congr_left
  intro container _
  simp only [Function.comp_apply]
  split <;> rfl

theorem addContainer_some {instanceID : ID} {id : RuntimeID}
    (added : world.addContainer instanceID id = some after) :
    id ≠ "" ∧ (∀ made ∈ world.created, made.1 ≠ id) ∧
      (∀ container ∈ world.containers, container.instanceID ≠ instanceID) ∧
      after = { world with
        containers := world.containers ++ [⟨id, instanceID, false⟩]
        created := world.created ++ [(id, instanceID)] } := by
  unfold addContainer at added
  split at added
  · rename_i guards
    cases added
    exact ⟨guards.1, guards.2.1, guards.2.2, rfl⟩
  · cases added

/-- Every row of the instance is wanted. -/
def Live (world : World) (id : ID) : Prop :=
  ∀ row ∈ world.store.instances, row.id = id → row.deletionRequested = false

theorem Live.recordRuntimeID {id : ID} {generation : Int}
    {runtimeID : RuntimeID} (sound : world.store.Sound)
    (live : world.Live id) : World.Live { world with
      store := (world.store.recordRuntimeID id generation runtimeID).2 }
        id := by
  rcases recordRuntimeID_cases sound.keyed id generation runtimeID with
    ⟨failure, same⟩ | ⟨row, member, -, -, wanted, -, ⟨-, same⟩ | ⟨-, same⟩⟩ <;>
    rw [same]
  · exact live
  · exact live
  · have sameID : ({ row with runtimeID := some runtimeID } :
      InstanceRow).id = row.id := rfl
    exact forall_replace member sameID live fun _ => wanted

/-- Nothing has changed but the database and the queues. -/
structure SameSurroundings (world after : World) : Prop where
  namespaces : after.namespaces = world.namespaces
  gateways : after.gateways = world.gateways
  links : after.links = world.links
  containers : after.containers = world.containers
  created : after.created = world.created

theorem SameSurroundings.refl (world : World) :
    world.SameSurroundings world :=
  ⟨rfl, rfl, rfl, rfl, rfl⟩

theorem SameSurroundings.onQueue (world : World) (controller : Controller)
    (change : Queue → Queue) :
    world.SameSurroundings (world.onQueue controller change) := by
  cases controller <;> exact ⟨rfl, rfl, rfl, rfl, rfl⟩

section Calls

variable {op : Op} {result : op.Result}

/-- The effect of a call touches neither the database nor the queues. -/
theorem Behaves.act_frame {call : External} {result : Unit}
    (behaves : world.Behaves (.act call) result after) :
    after.store = world.store ∧
      after.instanceQueue = world.instanceQueue := by
  have unchanged : after = world → after.store = world.store ∧
      after.instanceQueue = world.instanceQueue := by
    rintro rfl
    exact ⟨rfl, rfl⟩
  cases call with
  | ready | ensureImage | inspect | listVPCNames | openInstance =>
      exact unchanged (behaves.idle trivial)
  | create =>
      rcases behaves.create with same | ⟨id, added⟩
      · exact unchanged same
      · rw [(addContainer_some added).2.2.2]
        exact ⟨rfl, rfl⟩
  | start => rcases behaves.start with rfl | rfl <;> exact ⟨rfl, rfl⟩
  | delete => rcases behaves.delete with rfl | rfl <;> exact ⟨rfl, rfl⟩
  | ensureVPC =>
      rcases behaves.ensureVPC with rfl | ⟨_, _, _, -, -, rfl⟩ <;>
        exact ⟨rfl, rfl⟩
  | deleteVPC =>
      obtain ⟨_, _, _, -, -, rfl⟩ := behaves.deleteVPC
      exact ⟨rfl, rfl⟩
  | deleteENI =>
      obtain ⟨_, -, rfl⟩ := behaves.deleteENI
      exact ⟨rfl, rfl⟩
  | ensureENI =>
      obtain ⟨_, -, rfl⟩ := behaves.ensureENI
      exact ⟨rfl, rfl⟩

theorem Behaves.act_store {call : External} {result : Unit}
    (behaves : world.Behaves (.act call) result after) :
    after.store = world.store :=
  behaves.act_frame.1

/-- What an operation does when it is not the effect of a call. -/
theorem Behaves.store_or_surroundings
    (behaves : world.Behaves op result after) :
    world.store.Within op.Writes after.store ∧
      ((∃ call, op = .act call) ∨ world.SameSurroundings after) := by
  cases op with
  | act call => exact ⟨.inl behaves.act_store, .inl ⟨call, rfl⟩⟩
  | getInstance =>
      rw [behaves.getInstance.2]
      exact ⟨.inl rfl, .inr (.refl world)⟩
  | getSubnet =>
      rw [behaves.getSubnet.2]
      exact ⟨.inl rfl, .inr (.refl world)⟩
  | getVPC =>
      rw [behaves.getVPC.2]
      exact ⟨.inl rfl, .inr (.refl world)⟩
  | listSubnetsByVPC =>
      rw [behaves.listSubnetsByVPC.2]
      exact ⟨.inl rfl, .inr (.refl world)⟩
  | listVPCPage =>
      rw [behaves.listVPCPage.2]
      exact ⟨.inl rfl, .inr (.refl world)⟩
  | listInstancePage =>
      rw [behaves.listInstancePage.2]
      exact ⟨.inl rfl, .inr (.refl world)⟩
  | loadPlumbing =>
      rw [behaves.loadPlumbing.2]
      exact ⟨.inl rfl, .inr (.refl world)⟩
  | contextErr =>
      rw [behaves.contextErr]
      exact ⟨.inl rfl, .inr (.refl world)⟩
  | answer =>
      rw [behaves.answer.1]
      exact ⟨.inl rfl, .inr (.refl world)⟩
  | recordTopology =>
      obtain ⟨now, -, rfl⟩ := behaves.recordTopology
      exact ⟨.inr ⟨_, ⟨now, rfl⟩, rfl⟩, .inr ⟨rfl, rfl, rfl, rfl, rfl⟩⟩
  | recordRuntimeID =>
      obtain ⟨-, rfl⟩ := behaves.recordRuntimeID
      exact ⟨.inr ⟨_, rfl, rfl⟩, .inr ⟨rfl, rfl, rfl, rfl, rfl⟩⟩
  | retainTerminatingRuntimeID =>
      obtain ⟨-, rfl⟩ := behaves.retainTerminatingRuntimeID
      exact ⟨.inr ⟨_, rfl, rfl⟩, .inr ⟨rfl, rfl, rfl, rfl, rfl⟩⟩
  | recordInstance =>
      obtain ⟨now, -, rfl⟩ := behaves.recordInstance
      exact ⟨.inr ⟨_, ⟨now, rfl⟩, rfl⟩, .inr ⟨rfl, rfl, rfl, rfl, rfl⟩⟩
  | finishInstanceTermination =>
      obtain ⟨now, -, rfl⟩ := behaves.finishInstanceTermination
      exact ⟨.inr ⟨_, ⟨now, rfl⟩, rfl⟩, .inr ⟨rfl, rfl, rfl, rfl, rfl⟩⟩
  | enqueue controller id =>
      obtain ⟨_, _, rfl⟩ := behaves.queued ⟨controller, id, .inl rfl⟩
      exact ⟨.inl (onQueue_store _ _), .inr (.onQueue world _ _)⟩
  | retry controller id =>
      obtain ⟨_, _, rfl⟩ := behaves.queued ⟨controller, id, .inr (.inl rfl)⟩
      exact ⟨.inl (onQueue_store _ _), .inr (.onQueue world _ _)⟩
  | clearRetry controller id =>
      obtain ⟨_, _, rfl⟩ := behaves.queued ⟨controller, id, .inr (.inr rfl)⟩
      exact ⟨.inl (onQueue_store _ _), .inr (.onQueue world _ _)⟩

theorem Behaves.store_within (behaves : world.Behaves op result after) :
    world.store.Within op.Writes after.store :=
  behaves.store_or_surroundings.1

/-- Only the end of a termination removes an instance. -/
theorem Behaves.rowsKept (behaves : world.Behaves op result after)
    (sound : world.store.Sound)
    (unfinished : ∀ snapshot, op ≠ .finishInstanceTermination snapshot) :
    RowsKept world.store after.store := by
  apply behaves.store_within.rowsKept sound
  intro snapshot now writes
  cases op <;> try exact writes.elim
  case finishInstanceTermination => exact unfinished _ rfl
  case recordRuntimeID => cases writes
  case retainTerminatingRuntimeID => cases writes
  all_goals obtain ⟨_, impossible⟩ := writes; cases impossible

end Calls

/-- What a party does that is neither the instance controller nor the
hook. -/
structure SparesInstances (world after : World) : Prop where
  store : world.store.Within Write.Foreign after.store
  names : after.names = world.names
  created : after.created = world.created
  links : ∀ link ∈ after.links, link ∈ world.links

/-- What a party does that is not the VPC controller. -/
structure SparesVPCs (world after : World) : Prop where
  store : world.store.Within Write.Alien after.store
  namespaces : after.namespaces = world.namespaces
  gateways : after.gateways = world.gateways

theorem SparesInstances.refl (world : World) : world.SparesInstances world :=
  ⟨.inl rfl, rfl, rfl, fun _ member => member⟩

theorem SparesVPCs.refl (world : World) : world.SparesVPCs world :=
  ⟨.inl rfl, rfl, rfl⟩

theorem SparesInstances.onQueue (world : World) (controller : Controller)
    (change : Queue → Queue) :
    world.SparesInstances (world.onQueue controller change) := by
  cases controller <;> exact ⟨.inl rfl, rfl, rfl, fun _ member => member⟩

theorem SparesVPCs.onQueue (world : World) (controller : Controller)
    (change : Queue → Queue) :
    world.SparesVPCs (world.onQueue controller change) := by
  cases controller <;> exact ⟨.inl rfl, rfl, rfl⟩

section Parties

variable {op : Op} {result : op.Result}

theorem Behaves.sparesInstances (behaves : world.Behaves op result after)
    (ofVPC : op.OfVPC) : world.SparesInstances after := by
  have store := behaves.store_within.mono fun _ => ofVPC.writes
  rcases behaves.store_or_surroundings.2 with ⟨call, rfl⟩ | same
  · cases call with
    | ensureVPC =>
        rcases behaves.ensureVPC with rfl | ⟨_, _, _, -, -, rfl⟩ <;>
          exact ⟨store, rfl, rfl, fun _ member => member⟩
    | deleteVPC =>
        obtain ⟨_, _, _, -, fewer, rfl⟩ := behaves.deleteVPC
        exact ⟨store, rfl, rfl, fewer⟩
    | listVPCNames =>
        rw [behaves.idle trivial]
        exact .refl world
    | _ => exact ofVPC.elim
  · refine ⟨store, ?_, same.created, fun link member => ?_⟩
    · rw [names, names, same.containers]
    · exact same.links ▸ member

theorem Behaves.sparesVPCs (behaves : world.Behaves op result after)
    (ofInstance : op.OfInstance) : world.SparesVPCs after := by
  have store := behaves.store_within.mono fun _ => ofInstance.writes
  rcases behaves.store_or_surroundings.2 with ⟨call, rfl⟩ | same
  · cases call with
    | ready | ensureImage | inspect =>
        rw [behaves.idle trivial]
        exact .refl world
    | create =>
        rcases behaves.create with rfl | ⟨id, added⟩
        · exact .refl _
        · rw [(addContainer_some added).2.2.2]
          exact ⟨.inl rfl, rfl, rfl⟩
    | start =>
        rcases behaves.start with rfl | rfl <;> exact ⟨.inl rfl, rfl, rfl⟩
    | delete =>
        rcases behaves.delete with rfl | rfl <;> exact ⟨.inl rfl, rfl, rfl⟩
    | deleteENI =>
        obtain ⟨_, -, rfl⟩ := behaves.deleteENI
        exact ⟨.inl rfl, rfl, rfl⟩
    | _ => exact ofInstance.elim
  · exact ⟨store, same.namespaces, same.gateways⟩

/-- The hook adds links and does nothing else. -/
theorem Behaves.plumbs (behaves : world.Behaves op result after)
    (ofPlumb : op.OfPlumb) : ∃ links, after = { world with links } ∧
      ∀ link ∈ links, link ∈ world.links ∨ op.link = some link := by
  have unchanged : after = world → ∃ links, after = { world with links } ∧
      ∀ link ∈ links, link ∈ world.links ∨ op.link = some link :=
    fun same => ⟨world.links, same, fun _ member => .inl member⟩
  cases op with
  | loadPlumbing => exact unchanged behaves.loadPlumbing.2
  | getInstance => exact unchanged behaves.getInstance.2
  | answer call => exact unchanged behaves.answer.1
  | act call =>
      cases call with
      | openInstance =>
          exact unchanged (behaves.idle trivial)
      | ensureENI vpc subnet eni =>
          obtain ⟨links, added, rfl⟩ := behaves.ensureENI
          exact ⟨links, rfl, fun link member => (added link member).imp_right
            fun same => congrArg some same.symm⟩
      | _ => exact ofPlumb.elim
  | _ => exact ofPlumb.elim

end Parties

/-- What happens to the world by itself or through the API. -/
inductive Environment (world : World) : Label → World → Prop where
  | serve {write : Write} (controller : Controller)
      (change : Queue → Queue) (foreign : write.Foreign)
      (alien : write.Alien) :
      Environment world (.serve write)
        (World.onQueue { world with store := write.apply world.store }
          controller change)
  | dueRetries (controller : Controller) (now : Time) (order : List ID) :
      Environment world (.dueRetries controller now order)
        (world.onQueue controller (·.enqueueDueRetries now order))
  | exit (id : RuntimeID) :
      Environment world (.exit id)
        { world with
          containers := world.containers.map fun container =>
            if container.id = id then { container with running := false }
            else container }
  | vanish (id : RuntimeID) :
      Environment world (.vanish id)
        { world with containers := world.containers.filter (·.id ≠ id) }

theorem Environment.sparesInstances {label : Label}
    (changes : world.Environment label after)
    (stays : ∀ id, label ≠ .vanish id) : world.SparesInstances after := by
  cases changes with
  | serve controller change foreign alien =>
      refine ⟨.inr ⟨_, foreign, onQueue_store _ _⟩, ?_, ?_, ?_⟩
      · cases controller <;> rfl
      · cases controller <;> rfl
      · cases controller <;> exact fun _ member => member
  | dueRetries controller now order => exact .onQueue world _ _
  | exit id =>
      exact ⟨.inl rfl, names_running id false, rfl, fun _ member => member⟩
  | vanish id => exact absurd rfl (stays id)

theorem Environment.sparesLinks {label : Label}
    (changes : world.Environment label after) :
    world.store.Within Write.Foreign after.store ∧
      after.links = world.links := by
  cases changes with
  | serve controller change foreign alien =>
      exact ⟨.inr ⟨_, foreign, onQueue_store _ _⟩, onQueue_links _ _⟩
  | dueRetries controller now order =>
      exact ⟨.inl (onQueue_store _ _), onQueue_links _ _⟩
  | exit id => exact ⟨.inl rfl, rfl⟩
  | vanish id => exact ⟨.inl rfl, rfl⟩

theorem Environment.sparesVPCs {label : Label}
    (changes : world.Environment label after) :
    world.SparesVPCs after := by
  cases changes with
  | serve controller change foreign alien =>
      refine ⟨.inr ⟨_, alien, onQueue_store _ _⟩, ?_, ?_⟩
      · cases controller <;> rfl
      · cases controller <;> rfl
  | dueRetries controller now order => exact .onQueue world _ _
  | exit id => exact ⟨.inl rfl, rfl, rfl⟩
  | vanish id => exact ⟨.inl rfl, rfl, rfl⟩

end World

inductive InstancePass : Label → Pass → Prop where
  | reconcile (id : ID) :
      InstancePass (.reconcileInstance id)
        (InstanceController.reconcileLocked id)
  | sweep (pages : Nat) :
      InstancePass (.sweepInstances pages) (InstanceController.sweep pages "")

inductive VPCPass : Pass → Prop where
  | reconcile (id : ID) : VPCPass (VPCController.reconcileLocked id)
  | sweep (pages : Nat) : VPCPass (VPCController.sweep pages)

theorem InstancePass.uses {label : Label} {pass : Pass}
    (isPass : InstancePass label pass) : pass.Uses Op.OfInstance := by
  cases isPass with
  | reconcile id =>
      exact (InstanceController.reconcileLocked_uses id).mono fun _ =>
        Op.OfInstancePass.ofInstance
  | sweep pages => exact InstanceController.sweep_uses pages ""

theorem VPCPass.uses {pass : Pass} (isPass : VPCPass pass) :
    pass.Uses Op.OfVPC := by
  cases isPass with
  | reconcile id =>
      exact (VPCController.reconcileLocked_uses id).mono fun _ =>
        Op.OfVPCPass.ofVPC
  | sweep pages => exact VPCController.sweep_uses pages

namespace Daemon

/-- The moves of the daemon, by who makes them. -/
inductive Moves (daemon : Daemon) : Label → Daemon → Prop where
  | environment {label : Label} {after : World}
      (changes : daemon.world.Environment label after) :
      Moves daemon label { daemon with world := after }
  | beginInstance {label : Label} {pass : Pass} (change : Queue → Queue)
      (idle : daemon.instanceWork = none)
      (isPass : InstancePass label pass) :
      Moves daemon label { daemon with
        world := daemon.world.onQueue .inst change
        instanceWork := some pass }
  | beginVPC {label : Label} {pass : Pass} (change : Queue → Queue)
      (idle : daemon.vpcWork = none) (isPass : VPCPass pass) :
      Moves daemon label { daemon with
        world := daemon.world.onQueue .vpc change
        vpcWork := some pass }
  | plumb {request : PlumbRequest} {thread : Pass}
      (working : daemon.instanceWork = some thread)
      (starting : returnsFromStart thread = true) :
      Moves daemon (.plumb request) { daemon with
        plumbing := daemon.plumbing ++ [Nephos.plumb request] }
  | instanceDone {choice : Choice} {value : Except Failure Unit}
      (working : daemon.instanceWork = some (.done value)) :
      Moves daemon (.instanceStep choice) { daemon with instanceWork := none }
  | instanceCall {choice : Choice} {op : Op} {next : op.Result → Pass}
      {result : op.Result} {after : World}
      (working : daemon.instanceWork = some (.call op next))
      (hooked : returnsFromStart (.call op next) = true →
        daemon.plumbing = [])
      (runs : daemon.world.exec op choice = some (result, after)) :
      Moves daemon (.instanceStep choice) { daemon with
        world := after, instanceWork := some (next result) }
  | vpcDone {choice : Choice} {value : Except Failure Unit}
      (working : daemon.vpcWork = some (.done value)) :
      Moves daemon (.vpcStep choice) { daemon with vpcWork := none }
  | vpcCall {choice : Choice} {op : Op} {next : op.Result → Pass}
      {result : op.Result} {after : World}
      (working : daemon.vpcWork = some (.call op next))
      (runs : daemon.world.exec op choice = some (result, after)) :
      Moves daemon (.vpcStep choice) { daemon with
        world := after, vpcWork := some (next result) }
  | plumbDone {index : Nat} {choice : Choice} {front back : List (Call Nat)}
      {value : Nat}
      (working : daemon.plumbing = front ++ .done value :: back) :
      Moves daemon (.plumbStep index choice) { daemon with
        plumbing := front ++ back }
  | plumbCall {index : Nat} {choice : Choice} {front back : List (Call Nat)}
      {op : Op} {next : op.Result → Call Nat} {result : op.Result}
      {after : World}
      (working : daemon.plumbing = front ++ .call op next :: back)
      (runs : daemon.world.exec op choice = some (result, after)) :
      Moves daemon (.plumbStep index choice) { daemon with
        world := after, plumbing := front ++ next result :: back }
  | crash :
      Moves daemon .crash
        { world := daemon.world.restarted, instanceWork := none
          vpcWork := none, plumbing := [] }

section Begin

variable {daemon next : Daemon} {world : World} {pass : Pass}

theorem beginInstance_some
    (begun : daemon.beginInstance world pass = some next) :
    daemon.instanceWork = none ∧
      next = { daemon with world, instanceWork := some pass } := by
  unfold beginInstance at begun
  split at begun
  · cases begun
    exact ⟨Option.isNone_iff_eq_none.mp (by assumption), rfl⟩
  · cases begun

theorem beginVPC_some (begun : daemon.beginVPC world pass = some next) :
    daemon.vpcWork = none ∧
      next = { daemon with world, vpcWork := some pass } := by
  unfold beginVPC at begun
  split at begun
  · cases begun
    exact ⟨Option.isNone_iff_eq_none.mp (by assumption), rfl⟩
  · cases begun

end Begin

theorem Moves.of_step {daemon next : Daemon} {label : Label}
    (stepped : daemon.step label = some next) : daemon.Moves label next := by
  cases label with
  | serve write =>
      obtain ⟨⟨controller, store, hints⟩, served, same⟩ :=
        Option.map_eq_some_iff.mp stepped
      obtain ⟨rfl, foreign, alien⟩ := write.request_eq served
      subst same
      simp only [World.foldl_enqueue]
      exact .environment (.serve controller _ foreign alien)
  | reconcileInstance id =>
      simp only [step] at stepped
      split_ifs at stepped with pending
      obtain ⟨idle, rfl⟩ := beginInstance_some stepped
      exact .beginInstance _ idle (.reconcile id)
  | sweepInstances pages =>
      obtain ⟨idle, rfl⟩ := beginInstance_some stepped
      exact .beginInstance id idle (.sweep pages)
  | reconcileVPC id =>
      simp only [step] at stepped
      split_ifs at stepped with pending
      obtain ⟨idle, rfl⟩ := beginVPC_some stepped
      exact .beginVPC _ idle (.reconcile id)
  | sweepVPCs pages =>
      obtain ⟨idle, rfl⟩ := beginVPC_some stepped
      exact .beginVPC id idle (.sweep pages)
  | plumb request =>
      simp only [step] at stepped
      split_ifs at stepped with starting
      cases stepped
      obtain ⟨thread, working, waits⟩ :=
        (Option.any_eq_true _ _).mp starting
      exact .plumb working waits
  | instanceStep choice =>
      cases working : daemon.instanceWork with
      | none => simp [step, working] at stepped
      | some thread =>
          simp only [step, working] at stepped
          split_ifs at stepped with blocked
          obtain ⟨outcome, advanced, same⟩ :=
            Option.map_eq_some_iff.mp stepped
          subst same
          cases thread with
          | done value =>
              cases advanced
              exact .instanceDone working
          | call op next =>
              obtain ⟨⟨result, after⟩, runs, same⟩ :=
                Option.map_eq_some_iff.mp advanced
              subst same
              refine .instanceCall working (fun waits => ?_) runs
              by_contra busy
              exact blocked ⟨waits, busy⟩
  | vpcStep choice =>
      cases working : daemon.vpcWork with
      | none => simp [step, working] at stepped
      | some thread =>
          simp only [step, working] at stepped
          obtain ⟨outcome, advanced, same⟩ :=
            Option.map_eq_some_iff.mp stepped
          subst same
          cases thread with
          | done value =>
              cases advanced
              exact .vpcDone working
          | call op next =>
              obtain ⟨⟨result, after⟩, runs, same⟩ :=
                Option.map_eq_some_iff.mp advanced
              subst same
              exact .vpcCall working runs
  | plumbStep index choice =>
      cases working : daemon.plumbing[index]? with
      | none => simp [step, working] at stepped
      | some thread =>
          simp only [step, working] at stepped
          obtain ⟨outcome, advanced, same⟩ :=
            Option.map_eq_some_iff.mp stepped
          subst same
          obtain ⟨bound, found⟩ := List.getElem?_eq_some_iff.mp working
          have parts : daemon.plumbing = daemon.plumbing.take index ++
              thread :: daemon.plumbing.drop (index + 1) := by
            rw [← found, List.getElem_cons_drop, List.take_append_drop]
          cases thread with
          | done value =>
              cases advanced
              simp only [Option.toList_none, List.append_nil]
              exact .plumbDone parts
          | call op next =>
              obtain ⟨⟨result, after⟩, runs, same⟩ :=
                Option.map_eq_some_iff.mp advanced
              subst same
              simp only [Option.toList_some, List.append_assoc,
                List.singleton_append]
              exact .plumbCall parts runs
  | dueRetries controller now order =>
      simp only [Daemon.step, Option.ite_none_right_eq_some] at stepped
      obtain ⟨-, same⟩ := stepped
      cases same
      exact .environment (.dueRetries controller now order)
  | crash =>
      cases stepped
      exact .crash
  | exit id =>
      cases stepped
      exact .environment (.exit id)
  | vanish id =>
      cases stepped
      exact .environment (.vanish id)

/-- A move is at most one write to the database. -/
theorem Moves.store_within {daemon next : Daemon} {label : Label}
    (moves : daemon.Moves label next) :
    daemon.world.store.Within (fun _ => True) next.world.store := by
  have calls {op : Op} {choice : Choice} {result : op.Result} {after : World}
      (runs : daemon.world.exec op choice = some (result, after)) :
      daemon.world.store.Within (fun _ => True) after.store :=
    (World.Behaves.store_within ⟨choice, runs⟩).mono fun _ _ => trivial
  cases moves with
  | environment changes =>
      exact changes.sparesVPCs.store.mono fun _ _ => trivial
  | beginInstance change => exact .inl rfl
  | beginVPC change => exact .inl rfl
  | instanceCall working hooked runs => exact calls runs
  | vpcCall working runs => exact calls runs
  | plumbCall working runs => exact calls runs
  | _ => exact .inl rfl

theorem database_reachable {daemon : Daemon}
    (reachable : system.Reachable daemon) :
    database.Reachable daemon.world.store := by
  apply reachable.invariant fun daemon =>
    database.Reachable daemon.world.store
  · rintro daemon ⟨namespaces, -, rfl⟩
    exact .initial rfl
  · intro daemon label next held stepped
    rcases (Moves.of_step stepped).store_within with same | ⟨write, -, same⟩
    · rw [same]
      exact held
    · exact held.step same

/-- Some thread waits for the operation. -/
def Awaits (daemon : Daemon) (op : Op) : Prop :=
  (∃ thread ∈ daemon.instanceWork, thread.outstanding = some op) ∨
    (∃ thread ∈ daemon.vpcWork, thread.outstanding = some op) ∨
    ∃ thread ∈ daemon.plumbing, thread.outstanding = some op

/-- Every thread keeps to its own calls, and the hook runs only while a
container starts. -/
structure Formed (daemon : Daemon) : Prop where
  sound : daemon.world.store.Sound
  instanceWork : ∀ thread ∈ daemon.instanceWork, thread.Uses Op.OfInstance
  vpcWork : ∀ thread ∈ daemon.vpcWork, thread.Uses Op.OfVPC
  plumbing : ∀ thread ∈ daemon.plumbing, thread.Uses Op.OfPlumb
  hooked : daemon.plumbing ≠ [] →
    ∃ thread ∈ daemon.instanceWork, returnsFromStart thread = true

theorem Formed.initial (namespaces : List String) :
    (Daemon.initial namespaces).Formed where
  sound := ⟨.empty, .empty⟩
  instanceWork _ working := by cases working
  vpcWork _ working := by cases working
  plumbing _ working := by cases working
  hooked busy := absurd rfl busy

theorem Formed.awaits_instance {daemon : Daemon} {op : Op}
    (formed : daemon.Formed) (awaits : daemon.Awaits op)
    (notVPC : ¬ op.OfVPC) (notPlumb : ¬ op.OfPlumb) :
    ∃ thread ∈ daemon.instanceWork, thread.outstanding = some op := by
  rcases awaits with own | ⟨thread, working, waits⟩ |
    ⟨thread, working, waits⟩
  · exact own
  · exact absurd ((formed.vpcWork thread working).outstanding waits) notVPC
  · exact absurd ((formed.plumbing thread working).outstanding waits)
      notPlumb

theorem Formed.awaits_vpc {daemon : Daemon} {op : Op}
    (formed : daemon.Formed) (awaits : daemon.Awaits op)
    (notInstance : ¬ op.OfInstance) (notPlumb : ¬ op.OfPlumb) :
    ∃ thread ∈ daemon.vpcWork, thread.outstanding = some op := by
  rcases awaits with ⟨thread, working, waits⟩ | own |
    ⟨thread, working, waits⟩
  · exact absurd ((formed.instanceWork thread working).outstanding waits)
      notInstance
  · exact own
  · exact absurd ((formed.plumbing thread working).outstanding waits)
      notPlumb

theorem Formed.step {daemon next : Daemon} {label : Label}
    (formed : daemon.Formed) (moves : daemon.Moves label next) :
    next.Formed := by
  cases moves with
  | environment changes =>
      have sound := changes.sparesVPCs.store.sound formed.sound
      exact { formed with sound }
  | beginInstance change idle isPass =>
      refine { formed with
        sound := by simpa using formed.sound
        instanceWork := ?_, hooked := ?_ }
      · rintro _ ⟨⟩
        exact isPass.uses
      · intro busy
        obtain ⟨thread, working, -⟩ := formed.hooked busy
        rw [idle] at working
        cases working
  | beginVPC change idle isPass =>
      refine { formed with
        sound := by simpa using formed.sound
        vpcWork := ?_ }
      rintro _ ⟨⟩
      exact isPass.uses
  | @plumb request thread working starting =>
      refine { formed with
        plumbing := forall_append formed.plumbing (plumb_uses request)
        hooked := fun _ => ⟨thread, working, starting⟩ }
  | instanceDone working =>
      refine { formed with instanceWork := ?_, hooked := ?_ }
      · rintro _ ⟨⟩
      · intro busy
        obtain ⟨thread, same, starting⟩ := formed.hooked busy
        rw [working] at same
        cases same
        cases starting
  | @instanceCall choice op next result after working hooked runs =>
      have uses := formed.instanceWork _ working
      have behaves : World.Behaves _ op result after := ⟨choice, runs⟩
      refine { formed with
        sound := behaves.store_within.sound formed.sound
        instanceWork := ?_, hooked := ?_ }
      · rintro _ ⟨⟩
        exact uses.2 result
      · intro busy
        obtain ⟨thread, same, starting⟩ := formed.hooked busy
        rw [working] at same
        cases same
        exact absurd (hooked starting) busy
  | vpcDone working =>
      refine { formed with vpcWork := ?_ }
      rintro _ ⟨⟩
  | @vpcCall choice op next result after working runs =>
      have uses := formed.vpcWork _ working
      have behaves : World.Behaves _ op result after := ⟨choice, runs⟩
      refine { formed with
        sound := behaves.store_within.sound formed.sound
        vpcWork := ?_ }
      rintro _ ⟨⟩
      exact uses.2 result
  | @plumbDone index choice front back value working =>
      have all := formed.plumbing
      have hooked := formed.hooked
      rw [working] at all hooked
      simp only [List.forall_mem_append, List.forall_mem_cons] at all
      exact { formed with
        plumbing := List.forall_mem_append.mpr ⟨all.1, all.2.2⟩
        hooked := fun _ => hooked (by simp) }
  | @plumbCall index choice front back op next result after working runs =>
      have all := formed.plumbing
      have hooked := formed.hooked
      rw [working] at all hooked
      simp only [List.forall_mem_append, List.forall_mem_cons] at all
      have behaves : World.Behaves _ op result after := ⟨choice, runs⟩
      exact { formed with
        sound := behaves.store_within.sound formed.sound
        plumbing := by
          simp only [List.forall_mem_append, List.forall_mem_cons]
          exact ⟨all.1, all.2.1.2 result, all.2.2⟩
        hooked := fun _ => hooked (by simp) }
  | crash =>
      exact
        { sound := formed.sound
          instanceWork := fun _ working => by cases working
          vpcWork := fun _ working => by cases working
          plumbing := fun _ working => by cases working
          hooked := fun busy => absurd rfl busy }

end Daemon

end Nephos
