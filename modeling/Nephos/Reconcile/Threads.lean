import Nephos.Reconcile.Behaviour

/-!
# The threads of the daemon

Each thread makes calls of its own kind, and so leaves the rest of the world
to the others: only the instance controller touches containers and the rows
of instances, only the VPC controller touches namespaces and removes VPCs,
and only the hook adds links.  The moves of the daemon are listed once, for
all invariants of it.
-/

namespace Nephos

open Effects Transaction

theorem invoke_bind {α : Type} (op : Op) (rest : op.Result → Call α) :
    invoke op >>= rest = .call op rest :=
  rfl

theorem external_bind {α : Type} (call : External)
    (rest : Except String call.Value → Call α) :
    external call >>= rest =
      .call (.act call) fun _ => .call (.answer call) rest :=
  rfl

theorem uses_invoke {α : Type} {allowed : Op → Prop} {op : Op}
    {rest : op.Result → Call α} (fine : allowed op)
    (continues : ∀ result, (rest result).Uses allowed) :
    (invoke op >>= rest).Uses allowed :=
  ⟨fine, continues⟩

theorem uses_external {α : Type} {allowed : Op → Prop} {call : External}
    {rest : Except String call.Value → Call α} (acts : allowed (.act call))
    (answers : allowed (.answer call))
    (continues : ∀ result, (rest result).Uses allowed) :
    (external call >>= rest).Uses allowed :=
  ⟨acts, fun _ => ⟨answers, continues⟩⟩

theorem uses_call {allowed : Op → Prop} {call : External}
    (acts : allowed (.act call)) (answers : allowed (.answer call)) :
    (external call).Uses allowed :=
  ⟨acts, fun _ => ⟨answers, fun _ => trivial⟩⟩

theorem safe_invoke {α : Type} {contract : Contract Op Op.Result World}
    {post : α → World → Prop} {world : World} {op : Op}
    {rest : op.Result → Call α}
    (rule : ∀ {later}, contract.invariant later →
      contract.change op world later → contract.outstanding op later ∧
        ∀ {result final}, contract.behaviour later op result final →
          contract.invariant final ∧
            contract.Safe post (rest result) final) :
    contract.Safe post (invoke op >>= rest) world :=
  .wait rule

def External.OfVPC : External → Prop
  | .ensureVPC _ _ | .deleteVPC _ _ | .listVPCNames => True
  | _ => False

/-- The operations of the VPC controller, except for the listing. -/
def Op.OfVPCPass : Op → Prop
  | .getVPC _ _ | .listSubnetsByVPC _ | .recordTopology _ _ _ | .contextErr
  | .enqueue .vpc _ | .retry .vpc _ | .clearRetry .vpc _ => True
  | .act call | .answer call => call.OfVPC
  | _ => False

def Op.OfVPC : Op → Prop
  | .listVPCPage _ => True
  | op => op.OfVPCPass

theorem Op.OfVPCPass.ofVPC {op : Op} (pass : op.OfVPCPass) : op.OfVPC := by
  unfold OfVPC
  split <;> first | exact pass | trivial

namespace VPCController

theorem record_uses (vpc : VPC) (subnets : List Subnet)
    (effectErr : Option String) :
    (record vpc subnets effectErr).Uses Op.OfVPCPass := by
  refine uses_invoke trivial fun cancelled => ?_
  cases cancelled with
  | true => trivial
  | false =>
      refine uses_invoke trivial fun result => ?_
      split
      · exact uses_invoke trivial fun _ => trivial
      · trivial
      · split <;> exact uses_invoke trivial fun _ => trivial

theorem reconcileLocked_uses (id : ID) :
    (reconcileLocked id).Uses Op.OfVPCPass := by
  refine uses_invoke trivial fun result => ?_
  split
  · exact uses_invoke trivial fun _ => trivial
  · trivial
  · refine uses_invoke trivial fun listed => ?_
    split
    · trivial
    · split
      · split
        · trivial
        · exact uses_external trivial trivial fun _ => record_uses _ _ _
      · exact uses_external trivial trivial fun _ => record_uses _ _ _

theorem readPages_uses (pages : Nat) (afterID : ID) (wanted : List String)
    (vpcs : List VPC) : (readPages pages afterID wanted vpcs).Uses
      Op.OfVPC := by
  induction pages generalizing afterID wanted vpcs with
  | zero => trivial
  | succ pages induction =>
      refine uses_invoke trivial fun result => ?_
      split
      · trivial
      · trivial
      · split
        · trivial
        · exact induction _ _ _

theorem removeOrphans_uses (wanted names : List String) :
    (removeOrphans wanted names).Uses Op.OfVPCPass := by
  induction names with
  | nil => trivial
  | cons name names induction =>
      rw [removeOrphans]
      split
      · exact induction
      · split
        · exact induction
        · refine uses_external trivial trivial fun result => ?_
          split
          · trivial
          · exact induction

theorem reconcileAll_uses (vpcs : List VPC) :
    (reconcileAll vpcs).Uses Op.OfVPCPass := by
  induction vpcs with
  | nil => trivial
  | cons vpc vpcs induction =>
      refine (reconcileLocked_uses vpc.id).bind fun result => ?_
      split
      · trivial
      · exact induction

theorem sweep_uses (pages : Nat) : (sweep pages).Uses Op.OfVPC := by
  refine (readPages_uses _ _ _ _).bind fun result => ?_
  split
  · trivial
  · refine uses_external trivial trivial fun names => ?_
    split
    · trivial
    · refine ((removeOrphans_uses _ _).mono fun _ =>
        Op.OfVPCPass.ofVPC).bind fun removed => ?_
      split
      · trivial
      · exact (reconcileAll_uses _).mono fun _ => Op.OfVPCPass.ofVPC

end VPCController

def External.OfWatch : External → Prop
  | .ready _ | .ensureImage _ | .start _ | .inspect _ => True
  | _ => False

/-- The operations of the instance controller that neither make nor remove
containers or rows, nor look the network of an instance up. -/
def Op.OfReport : Op → Prop
  | .getInstance _ | .recordInstance _ _ _ _ | .contextErr
  | .enqueue .inst _ | .retry .inst _ | .clearRetry .inst _ => True
  | .act call | .answer call => call.OfWatch
  | _ => False

/-- The operations of the instance controller that neither make nor remove
containers or rows. -/
def Op.OfWatch : Op → Prop
  | .getSubnet _ _ | .getVPC _ _ => True
  | op => op.OfReport

/-- The operations of the instance controller that make, name and discard
containers. -/
def Op.OfMake : Op → Prop
  | .act (.create _) | .answer (.create _) | .act (.delete _)
  | .answer (.delete _) | .recordRuntimeID _ _ _
  | .retainTerminatingRuntimeID _ _ => True
  | op => op.OfReport

/-- The operations of the instance controller, except for the two with which
it releases the interface of an instance. -/
def Op.OfLaunch : Op → Prop
  | .act (.create _) | .answer (.create _) | .act (.delete _)
  | .answer (.delete _) | .recordRuntimeID _ _ _
  | .retainTerminatingRuntimeID _ _ => True
  | op => op.OfWatch

/-- The operations of the instance controller, except for the listing. -/
def Op.OfInstancePass : Op → Prop
  | .act (.deleteENI _ _) | .answer (.deleteENI _ _)
  | .finishInstanceTermination _ => True
  | op => op.OfLaunch

def Op.OfInstance : Op → Prop
  | .listInstancePage _ => True
  | op => op.OfInstancePass

theorem Op.OfReport.ofWatch {op : Op} (report : op.OfReport) :
    op.OfWatch := by
  unfold OfWatch
  split
  · trivial
  · trivial
  · exact report

theorem Op.OfReport.ofMake {op : Op} (report : op.OfReport) : op.OfMake := by
  unfold OfMake
  split <;> first | exact report | trivial

theorem Op.OfWatch.ofLaunch {op : Op} (watch : op.OfWatch) :
    op.OfLaunch := by
  unfold OfLaunch
  split <;> first | exact watch | trivial

theorem Op.OfMake.ofLaunch {op : Op} (make : op.OfMake) : op.OfLaunch := by
  unfold OfMake at make
  split at make <;> first | exact make.ofWatch.ofLaunch | trivial

theorem Op.OfLaunch.ofPass {op : Op} (launch : op.OfLaunch) :
    op.OfInstancePass := by
  unfold OfInstancePass
  split <;> first | exact launch | trivial

theorem Op.OfInstancePass.ofInstance {op : Op} (pass : op.OfInstancePass) :
    op.OfInstance := by
  unfold OfInstance
  split <;> first | exact pass | trivial

namespace InstanceController

theorem fail_reports (inst : Instance) (cause : String) :
    (fail inst cause).Uses Op.OfReport := by
  refine uses_invoke trivial fun cancelled => ?_
  cases cancelled with
  | true => trivial
  | false =>
      refine uses_invoke trivial fun result => ?_
      split
      · exact uses_invoke trivial fun _ => trivial
      · trivial
      · exact uses_invoke trivial fun _ => trivial

theorem fail_uses (inst : Instance) (cause : String) :
    (fail inst cause).Uses Op.OfWatch :=
  (fail_reports inst cause).mono fun _ => Op.OfReport.ofWatch

theorem ready_uses (inst : Instance) : (ready inst).Uses Op.OfWatch := by
  refine uses_external trivial trivial fun called => ?_
  split
  · trivial
  · refine uses_invoke trivial fun subnet => ?_
    split
    · trivial
    · refine uses_invoke trivial fun vpc => ?_
      split <;> trivial

theorem discard_makes (inst : Instance) (runtimeID : RuntimeID)
    (recordErr : Failure) :
    (discard inst runtimeID recordErr).Uses Op.OfMake := by
  refine uses_external trivial trivial fun result => ?_
  split
  · trivial
  · exact uses_invoke trivial fun _ => trivial

theorem createdDuringStateChange_makes (inst : Instance)
    (runtimeID : RuntimeID) (recordErr : Failure) :
    (createdDuringStateChange inst runtimeID recordErr).Uses
      Op.OfMake := by
  unfold createdDuringStateChange
  split
  · refine uses_invoke trivial fun retained => ?_
    split
    · refine uses_external trivial trivial fun result => ?_
      split
      · refine uses_invoke trivial fun current => ?_
        split
        · trivial
        · exact (fail_reports _ _).mono fun _ => Op.OfReport.ofMake
      · exact uses_invoke trivial fun _ => trivial
    · exact discard_makes _ _ _
  · exact discard_makes _ _ _

theorem start_reports (id : ID) (runtimeID : RuntimeID) :
    (start id runtimeID).Uses Op.OfReport := by
  refine uses_invoke trivial fun result => ?_
  split
  · trivial
  · split
    · exact uses_invoke trivial fun _ => trivial
    · refine uses_external trivial trivial fun started => ?_
      split
      · exact fail_reports _ _
      · refine uses_external trivial trivial fun inspected => ?_
        split
        · exact fail_reports _ _
        · exact fail_reports _ _
        · refine uses_invoke trivial fun recorded => ?_
          split
          · exact uses_invoke trivial fun _ => trivial
          · trivial
          · exact uses_invoke trivial fun _ => trivial

theorem start_uses (id : ID) (runtimeID : RuntimeID) :
    (start id runtimeID).Uses Op.OfWatch :=
  (start_reports id runtimeID).mono fun _ => Op.OfReport.ofWatch

theorem launch_makes (inst : Instance) : (launch inst).Uses Op.OfMake := by
  have failed (cause : String) : (fail inst cause).Uses Op.OfMake :=
    (fail_reports inst cause).mono fun _ => Op.OfReport.ofMake
  refine uses_external trivial trivial fun image => ?_
  split
  · exact failed _
  · refine uses_external trivial trivial fun created => ?_
    split
    · exact failed _
    · refine uses_invoke trivial fun recorded => ?_
      split
      · exact createdDuringStateChange_makes _ _ _
      · exact (start_reports _ _).mono fun _ => Op.OfReport.ofMake

theorem releaseENI_uses (inst : Instance) :
    (releaseENI inst).Uses Op.OfInstancePass := by
  have failed (cause : String) : (fail inst cause).Uses Op.OfInstancePass :=
    (fail_uses inst cause).mono fun _ watch => watch.ofLaunch.ofPass
  refine uses_invoke trivial fun subnet => ?_
  split
  · exact failed _
  · refine uses_invoke trivial fun vpc => ?_
    split
    · exact failed _
    · refine uses_external trivial trivial fun released => ?_
      split
      · exact failed _
      · refine uses_invoke trivial fun finished => ?_
        split
        · exact uses_invoke trivial fun _ => trivial
        · trivial
        · exact uses_invoke trivial fun _ => trivial

theorem terminate_uses (inst : Instance) :
    (terminate inst).Uses Op.OfInstancePass := by
  unfold terminate
  split
  · refine uses_external trivial trivial fun result => ?_
    split
    · exact (fail_uses _ _).mono fun _ watch => watch.ofLaunch.ofPass
    · exact releaseENI_uses _
  · exact releaseENI_uses _

theorem converge_uses (id : ID) (inst : Instance) :
    (converge id inst).Uses Op.OfLaunch := by
  have failed (cause : String) : (fail inst cause).Uses Op.OfLaunch :=
    (fail_uses inst cause).mono fun _ => Op.OfWatch.ofLaunch
  refine ((ready_uses _).mono fun _ => Op.OfWatch.ofLaunch).bind
    fun isReady => ?_
  split
  · exact failed _
  · trivial
  · split
    · refine uses_external trivial trivial fun inspected => ?_
      split
      · exact uses_invoke trivial fun _ => trivial
      · exact failed _
      · exact (launch_makes _).mono fun _ => Op.OfMake.ofLaunch
    · exact (launch_makes _).mono fun _ => Op.OfMake.ofLaunch

theorem reconcileLocked_uses (id : ID) :
    (reconcileLocked id).Uses Op.OfInstancePass := by
  refine uses_invoke trivial fun result => ?_
  split
  · exact uses_invoke trivial fun _ => trivial
  · trivial
  · split
    · exact terminate_uses _
    · exact (converge_uses _ _).mono fun _ => Op.OfLaunch.ofPass

theorem reconcilePage_uses (page : List Instance) :
    (reconcilePage page).Uses Op.OfInstancePass := by
  induction page with
  | nil => trivial
  | cons inst page induction =>
      refine (reconcileLocked_uses inst.id).bind fun result => ?_
      split
      · trivial
      · exact induction

theorem sweep_uses (pages : Nat) (afterID : ID) :
    (sweep pages afterID).Uses Op.OfInstance := by
  induction pages generalizing afterID with
  | zero => trivial
  | succ pages induction =>
      refine uses_invoke trivial fun result => ?_
      split
      · trivial
      · trivial
      · refine ((reconcilePage_uses _).mono fun _ =>
          Op.OfInstancePass.ofInstance).bind fun reconciled => ?_
        split
        · trivial
        · exact induction _

end InstanceController

def External.OfPlumb : External → Prop
  | .openInstance _ _ | .ensureENI _ _ _ => True
  | _ => False

def Op.OfPlumb : Op → Prop
  | .loadPlumbing _ _ | .getInstance _ => True
  | .act call | .answer call => call.OfPlumb
  | _ => False

/-- The link that an operation may add. -/
def Op.link : Op → Option Link
  | .act (.ensureENI vpc _ eni) => some (eni.link vpc)
  | _ => none

theorem plumb_uses (request : PlumbRequest) :
    (plumb request).Uses Op.OfPlumb := by
  refine uses_invoke trivial fun loaded => ?_
  split
  · trivial
  · refine uses_external trivial trivial fun opened => ?_
    split
    · trivial
    · refine uses_external trivial trivial fun ensured => ?_
      split
      · trivial
      · refine uses_invoke trivial fun current => ?_
        split
        · trivial
        · split <;> trivial

end Nephos
