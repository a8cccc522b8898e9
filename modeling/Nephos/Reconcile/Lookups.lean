import Nephos.Constraints
import Nephos.Reconcile.Isolation
import Nephos.Reconcile.Served

/-!
# Lookups that cannot fail

The controllers give up on some answers of the database: a VPC that is being
deleted and still has subnets, or an instance whose subnet or VPC is not
there.  A resource with a deletion request never gets anything below it, and
an instance keeps what is above it for as long as it has a row, so no
interleaving of other transactions leads to such an answer.
-/

namespace Nephos

open Effects Transaction

theorem World.Behaves.valid {before after : World} {op : Op}
    {result : op.Result} (behaves : before.Behaves op result after)
    (valid : before.store.Valid) : after.store.Valid := by
  rcases behaves.store_within with same | ⟨write, -, same⟩
  · rw [same]
    exact valid
  · rw [same]
    exact write.valid valid

namespace VPCController

variable {world : World} {history : List PassEvent} {id : ID}

/-- A pass over a VPC stops only when its context ends or a sequence is
full. -/
def Stops (id : ID) (result : Except Failure Unit) : Prop :=
  ∀ failure, result = .error failure →
    failure = contextCanceled ∨
      failure = diskFull.wrap ("persist VPC " ++ id ++ " reconciliation")

def StopSafe (id : ID) (program : Pass) (world : World)
    (history : List PassEvent) : Prop :=
  (accompanied.contract fun _ => True).Safe (fun result _ => Stops id result)
    program ⟨world, history⟩

theorem stops_ok : Stops id (.ok ()) :=
  fun _ failed => by cases failed

theorem stop_invoke (op : Op) {rest : op.Result → Pass}
    (valid : world.store.Valid)
    (rule : ∀ {before result after}, world.store.Evolves before.store →
      before.store.Valid → after.store.Valid →
      before.Behaves op result after →
        StopSafe id (rest result) after
          (history ++ [⟨before, op, result, after⟩])) :
    StopSafe id (invoke op >>= rest) world history := by
  refine traced_invoke op fun {before result after} _ meanwhile behaves => ?_
  have evolves := (World.Meanwhile.evolves meanwhile valid.sound).1
  obtain ⟨writes, run⟩ := meanwhile
  have beforeValid := database_run_valid run valid
  exact ⟨trivial, rule evolves beforeValid (behaves.valid beforeValid)
    behaves⟩

theorem stop_external (call : External)
    {rest : Except String call.Value → Pass} (valid : world.store.Valid)
    (safe : ∀ {result world history}, world.store.Valid →
      StopSafe id (rest result) world history) :
    StopSafe id (external call >>= rest) world history :=
  stop_invoke _ valid fun _ _ valid _ =>
    stop_invoke _ valid fun _ _ valid _ => safe valid

theorem record_stops (valid : world.store.Valid) {vpc : VPC}
    {subnets : List Subnet} {effectErr : Option String} :
    StopSafe vpc.id (record vpc subnets effectErr) world history := by
  refine stop_invoke _ valid fun {_ cancelled _} _ _ valid _ => ?_
  cases cancelled with
  | true =>
      intro failure failed
      cases failed
      exact .inl rfl
  | false =>
      refine stop_invoke _ valid
        fun {before recorded after} _ beforeValid valid behaves => ?_
      obtain ⟨now, outcome, -⟩ := behaves.recordTopology
      split
      · exact stop_invoke _ valid fun _ _ _ _ => stops_ok
      · rename_i failure fresh
        intro cause failed
        cases failed
        have refused := recordTopology_failsOnly beforeValid _
          (commit_error_iff.mp outcome.symm)
        rcases refused with stale | full
        · exact absurd stale fresh
        · exact .inr (congrArg (Failure.wrap · _) full)
      · split <;> exact stop_invoke _ valid fun _ _ _ _ => stops_ok

theorem reconcileLocked_stops (valid : world.store.Valid) :
    StopSafe id (reconcileLocked id) world history := by
  refine stop_invoke _ valid
    fun {_ loaded after} _ _ valid behaves => ?_
  obtain ⟨found, rfl⟩ := behaves.getVPC
  rcases valid.sound.getVPC_cases id with
    ⟨vpc, member, rfl, isOk⟩ | ⟨-, missing⟩
  · obtain rfl := found.trans isOk
    have earlier := valid.sound
    refine stop_invoke _ valid
      fun {_ listed after} evolves _ valid behaves => ?_
    obtain ⟨read, rfl⟩ := behaves.listSubnetsByVPC
    cases requested : vpc.deletionRequested with
    | true =>
        obtain rfl := read.trans (earlier.childless_later valid.sound evolves
          member requested)
        simp only [ne_eq, not_true_eq_false, if_false, if_true]
        exact stop_external _ valid fun valid => record_stops valid
    | false =>
        obtain ⟨subnets, isOk⟩ := valid.sound.listSubnetsByVPC_total vpc.id
        obtain rfl := read.trans isOk
        simp only [Bool.false_eq_true, if_false]
        exact stop_external _ valid fun valid => record_stops valid
  · obtain rfl := found.trans missing
    exact stop_invoke _ valid fun _ _ _ _ => stops_ok

end VPCController

/-- The operations that look the network of an instance up. -/
def Op.Looks : Op → Prop
  | .getSubnet _ _ | .getVPC _ _ => True
  | _ => False

theorem Op.OfMake.blind {op : Op} (make : op.OfMake) : ¬ op.Looks := by
  cases op <;> first | exact not_false | exact make.elim

/-- The subnet or the VPC of an instance is not there. -/
def PassEvent.Misses (event : PassEvent) : Prop :=
  match event with
  | ⟨_, .getSubnet _ _, .error _, _⟩ => True
  | ⟨_, .getVPC _ _, .error _, _⟩ => True
  | _ => False

theorem PassEvent.Misses.looks {event : PassEvent} (misses : event.Misses) :
    event.op.Looks := by
  unfold Misses at misses
  split at misses
  · trivial
  · trivial
  · exact misses.elim

def NoneMisses (history : List PassEvent) : Prop :=
  ∀ event ∈ history, ¬ event.Misses

def LookupSafe {α : Type} (post : α → World → Prop) (program : Call α)
    (world : World) (history : List PassEvent) : Prop :=
  (served.contract NoneMisses).Safe
    (fun result traced => post result traced.state) program ⟨world, history⟩

/-- The instance is there, in the subnet of the snapshot. -/
structure Store.Lodges (store : Store) (inst : Instance) : Prop where
  sound : store.Sound
  workspace : inst.workspaceID = defaultWorkspace
  row : ∃ row ∈ store.instances, row.id = inst.id ∧
    row.subnetID = inst.subnetID

theorem Store.Lodges.later {store later : Store} {inst : Instance}
    (lodges : store.Lodges inst) (kept : RowsKept store later)
    (sound : later.Sound) : later.Lodges inst := by
  obtain ⟨row, member, sameID, sameSubnet⟩ := lodges.row
  obtain ⟨still, inside, stillID⟩ := kept.instances row member
  have evolved := kept.evolves.inst lodges.sound member inside stillID
  exact ⟨sound, lodges.workspace, still, inside, stillID.trans sameID,
    evolved.subnetID.trans sameSubnet⟩

theorem Store.Lodges.getSubnet {store : Store} {inst : Instance}
    (lodges : store.Lodges inst) :
    ∃ subnet ∈ store.subnets, subnet.id = inst.subnetID ∧
      store.getSubnet inst.workspaceID inst.subnetID = .ok subnet := by
  obtain ⟨row, member, -, sameSubnet⟩ := lodges.row
  obtain ⟨parent, inside, parentID, -⟩ :=
    lodges.sound.topology.instanceParent row member
  rw [lodges.workspace]
  rcases lodges.sound.getSubnet_cases inst.subnetID with found | ⟨missing, -⟩
  · exact found
  · exact absurd (parentID.trans sameSubnet) (missing parent inside)

/-- The VPC of the subnet is there for as long as the instance is. -/
theorem Store.Lodges.getVPC {store later : Store} {inst : Instance}
    {subnet : Subnet} (lodges : later.Lodges inst)
    (evolves : store.Evolves later) (sound : store.Sound)
    (member : subnet ∈ store.subnets) (sameID : subnet.id = inst.subnetID) :
    ∃ vpc, later.getVPC inst.workspaceID subnet.vpcID = .ok vpc := by
  obtain ⟨still, inside, stillID, -⟩ := lodges.getSubnet
  have evolved := evolves.subnet sound member inside
    (stillID.trans sameID.symm)
  obtain ⟨vpc, vpcInside, parentID, -⟩ :=
    lodges.sound.topology.subnetParent still inside
  rw [lodges.workspace]
  rcases lodges.sound.getVPC_cases subnet.vpcID with
    ⟨found, -, -, isOk⟩ | ⟨missing, -⟩
  · exact ⟨found, isOk⟩
  · exact absurd (parentID.trans evolved.vpcID) (missing vpc vpcInside)

section Rules

variable {α : Type} {post : α → World → Prop} {world : World}
  {history : List PassEvent} {inst : Instance}

/-- The rule for an operation that looks nothing up. -/
theorem lookup_invoke (op : Op) {rest : op.Result → Call α}
    (blind : ¬ op.Looks)
    (rule : ∀ {before result after history}, NoneMisses history →
      world.Served before → before.Behaves op result after →
        LookupSafe post (rest result) after history) :
    LookupSafe post (invoke op >>= rest) world history := by
  refine traced_invoke op fun {before result after} kept others behaves => ?_
  have all : NoneMisses (history ++ [⟨before, op, result, after⟩]) :=
    forall_append kept fun misses => blind misses.looks
  exact ⟨all, rule all others behaves⟩

/-- A program that looks nothing up. -/
theorem blind_lookupSafe {program : Call α}
    (blind : program.Uses fun op => ¬ op.Looks) :
    LookupSafe (fun _ _ => True) program world history := by
  induction program generalizing world history with
  | done value => trivial
  | call op next induction =>
      exact lookup_invoke op blind.1 fun _ _ _ =>
        induction _ (blind.2 _)

theorem make_lookupSafe {program : Call α}
    (makes : program.Uses Op.OfMake) :
    LookupSafe (fun _ _ => True) program world history :=
  blind_lookupSafe (makes.mono fun _ => Op.OfMake.blind)

/-- The subnet and the VPC of an instance are found. -/
theorem lookup_network (lodges : world.store.Lodges inst)
    {missing : Failure → Call α} {rest : Subnet → VPC → Call α}
    (safe : ∀ {subnet vpc world history},
      LookupSafe post (rest subnet vpc) world history) :
    LookupSafe post (do
      match ← invoke (.getSubnet inst.workspaceID inst.subnetID) with
      | .error failure => missing failure
      | .ok subnet =>
          match ← invoke (.getVPC inst.workspaceID subnet.vpcID) with
          | .error failure => missing failure
          | .ok vpc => rest subnet vpc) world history := by
  refine traced_invoke _ fun {before result after} kept others behaves => ?_
  have served := others.kept lodges.sound
  have lodges := lodges.later served.rows served.sound
  obtain ⟨read, rfl⟩ := behaves.getSubnet
  obtain ⟨subnet, member, sameID, found⟩ := lodges.getSubnet
  obtain rfl := read.trans found
  refine ⟨forall_append kept not_false, ?_⟩
  refine traced_invoke _ fun {later result final} kept others behaves => ?_
  have served := others.kept lodges.sound
  obtain ⟨read, rfl⟩ := behaves.getVPC
  obtain ⟨vpc, found⟩ := (lodges.later served.rows served.sound).getVPC
    served.rows.evolves lodges.sound member sameID
  obtain rfl := read.trans found
  exact ⟨forall_append kept not_false, safe⟩

/-- A call leaves the instance in its subnet. -/
theorem lookup_external (call : External)
    {rest : Except String call.Value → Call α}
    (lodges : world.store.Lodges inst)
    (rule : ∀ {result after history}, after.store.Lodges inst →
      LookupSafe post (rest result) after history) :
    LookupSafe post (external call >>= rest) world history := by
  refine lookup_invoke (.act call) not_false
    fun {before _ acted _} _ others behaves => ?_
  have served := others.kept lodges.sound
  have lodges := lodges.later served.rows served.sound
  rw [← behaves.act_store] at lodges
  refine lookup_invoke (.answer call) not_false
    fun {later result after _} _ others behaves => ?_
  have served := others.kept lodges.sound
  obtain ⟨rfl, -⟩ := behaves.answer
  exact rule (lodges.later served.rows served.sound)

end Rules

namespace InstanceController

variable {world : World} {history : List PassEvent} {id : ID}
  {inst : Instance}

theorem fail_lookupSafe {cause : String} :
    LookupSafe (fun _ _ => True) (fail inst cause) world history :=
  make_lookupSafe ((fail_reports inst cause).mono
    fun _ => Op.OfReport.ofMake)

theorem releaseENI_lookupSafe (lodges : world.store.Lodges inst) :
    LookupSafe (fun _ _ => True) (releaseENI inst) world history := by
  refine lookup_network lodges fun {subnet vpc world history} => ?_
  refine lookup_invoke _ not_false fun _ _ _ =>
    lookup_invoke _ not_false fun {_ result _ _} _ _ _ => ?_
  cases result with
  | error cause => exact fail_lookupSafe
  | ok released =>
      refine lookup_invoke _ not_false fun {_ result _ _} _ _ _ => ?_
      split
      · exact lookup_invoke _ not_false fun _ _ _ => trivial
      · trivial
      · exact lookup_invoke _ not_false fun _ _ _ => trivial

theorem terminate_lookupSafe (lodges : world.store.Lodges inst) :
    LookupSafe (fun _ _ => True) (terminate inst) world history := by
  unfold terminate
  split
  · refine lookup_external _ lodges fun {result after _} lodges => ?_
    cases result with
    | error cause => exact fail_lookupSafe
    | ok deleted => exact releaseENI_lookupSafe lodges
  · exact releaseENI_lookupSafe lodges

theorem converge_lookupSafe (kept : NoneMisses history)
    (lodges : world.store.Lodges inst) :
    LookupSafe (fun _ _ => True) (converge id inst) world history := by
  have launches {world : World} {history : List PassEvent} :
      LookupSafe (fun _ _ => True) (launch inst) world history :=
    make_lookupSafe (launch_makes inst)
  have looks : LookupSafe (fun _ _ => True) (ready inst) world history := by
    refine lookup_external _ lodges fun {result after _} lodges => ?_
    cases result with
    | error cause => trivial
    | ok called => exact lookup_network lodges trivial
  refine looks.bind kept fun {isReady traced} _ _ => ?_
  obtain ⟨later, history⟩ := traced
  change LookupSafe (fun _ _ => True) _ later history
  split
  · exact fail_lookupSafe
  · trivial
  · split
    · refine lookup_invoke _ not_false fun _ _ _ =>
        lookup_invoke _ not_false fun {_ result _ _} _ _ _ => ?_
      split
      · exact lookup_invoke _ not_false fun _ _ _ => trivial
      · exact fail_lookupSafe
      · exact launches
    · exact launches

theorem reconcileLocked_lookupSafe (sound : world.store.Sound) :
    LookupSafe (fun _ _ => True) (reconcileLocked id) world history := by
  refine lookup_invoke _ not_false
    fun {before result after history} kept others behaves => ?_
  have served := others.kept sound
  obtain ⟨read, rfl⟩ := behaves.getInstance
  rcases served.sound.getInstance_cases id with
    ⟨row, member, rfl, eni, eniMember, owner, isOk⟩ | ⟨-, missing⟩
  · obtain rfl := read.trans isOk
    have lodges : after.store.Lodges (row.snapshot eni) :=
      ⟨served.sound, served.sound.keyed.instances.workspace row member, row,
        member, rfl, rfl⟩
    dsimp only
    split
    · exact terminate_lookupSafe lodges
    · exact converge_lookupSafe kept lodges
  · obtain rfl := read.trans missing
    exact lookup_invoke _ not_false fun _ _ _ => trivial

end InstanceController

/-- In a database that the writes can reach, a write violates a constraint
only by a collision of new identities, and a recorded topology is only
refused.  A pass over a VPC stops only when its context ends or a sequence is
full, whatever is written in between, and a pass over an instance finds the
subnet and the VPC of the instance, whatever the others write in between. -/
theorem database_violations_collide {store : Store}
    (reachable : database.Reachable store) :
    (∀ write violation, Write.Raises store violation write →
      write.Collides store) ∧
    (∀ vpc subnets effectErr now failure,
      (store.withTx (recordTopology vpc subnets effectErr now)).1 =
        .error failure → failure.Refused) ∧
    (∀ (world : World) (events : List PassEvent) (id : ID)
        (failure : Failure), world.store = store →
      accompanied.Executes (VPCController.reconcileLocked id) world events
        (.done (.error failure)) →
      failure = contextCanceled ∨
        failure = diskFull.wrap ("persist VPC " ++ id ++ " reconciliation")) ∧
    ∀ (world : World) (events : List PassEvent) (id : ID) (rest : Pass),
      world.store = store →
      served.Executes (InstanceController.reconcileLocked id) world events
        rest → ∀ event ∈ events, ¬ event.Misses := by
  have valid := database_reachable_valid reachable
  refine ⟨fun _ _ raises => raises.collides valid,
    fun _ _ _ _ _ failed =>
      recordTopology_failsOnly valid _ (commit_error_iff.mp failed),
    fun world events id failure same executes => ?_,
    fun world events id rest same executes => ?_⟩
  · rw [← same] at valid
    have safe : VPCController.StopSafe id (VPCController.reconcileLocked id)
        world [] :=
      VPCController.reconcileLocked_stops valid
    obtain ⟨-, ends⟩ := executes.safe safe trivial
    obtain ⟨_, stops⟩ := ends _ rfl
    exact stops failure rfl
  · have none : NoneMisses [] := fun _ member => by cases member
    rw [← same] at valid
    have safe : LookupSafe (fun _ _ => True)
        (InstanceController.reconcileLocked id) world [] :=
      InstanceController.reconcileLocked_lookupSafe valid.sound
    exact (executes.safe safe none).1

/-- A second VPC for which the bytes of the first are drawn again. -/
theorem firstStore_violations_collide :
    let again : Write := .createVPC
      { name := "again", cidrBlock := "10.1.0.0/16" } ""
      (List.replicate 9 1) 0
    again.Raises firstStore .unique ∧ again.Collides firstStore := by
  intro again
  have fails : (checkVPCRequest
      { name := "again", cidrBlock := "10.1.0.0/16" } ""
      (List.replicate 9 1) 0).toOption.any (fun request =>
        decide (createVPCWith id request firstStore =
          .error (.constraint .unique))) = true := by decide +kernel
  have raises : again.Raises firstStore .unique := by
    cases checked : checkVPCRequest
      { name := "again", cidrBlock := "10.1.0.0/16" } ""
      (List.replicate 9 1) 0 with
    | error failure =>
        rw [checked] at fails
        cases fails
    | ok request =>
        rw [checked] at fails
        exact ⟨request, checked, of_decide_eq_true fails⟩
  exact ⟨raises,
    (database_violations_collide firstStore_reachable).1 _ _ raises⟩

end Nephos
