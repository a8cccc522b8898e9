import Nephos.Reconcile.Namespaces

/-!
# Observations of VPCs

A pass of the VPC controller reads a VPC, then its subnets, sets the kernel
up and records the outcome, each in a step of its own.  The record is made
only for the rows that the kernel was set up for: the comparison with the
snapshot looks at identities, generations and deletion requests, and these
decide everything else that the setup depends on.
-/

namespace Nephos

open Effects Transaction Transition.System

variable {store final : Store}

/-- Children that are the same for the comparison have the same gateways. -/
theorem sameDesiredChildren_gateways {children applied : List Subnet}
    (same : sameDesiredChildren children applied)
    (blocks : ∀ row ∈ children, ∀ snapshot ∈ applied,
      row.id = snapshot.id → row.cidrBlock = snapshot.cidrBlock) :
    (children.filter fun subnet => !subnet.deletionRequested).map
        Subnet.gateway =
      (applied.filter fun subnet => !subnet.deletionRequested).map
        Subnet.gateway := by
  induction children generalizing applied with
  | nil =>
      cases applied with
      | nil => rfl
      | cons snapshot applied => exact same.elim
  | cons child children induction =>
      cases applied with
      | nil => exact same.elim
      | cons snapshot applied =>
          obtain ⟨⟨sameID, -, sameRequest, -⟩, rest⟩ := same
          have gateway : child.gateway = snapshot.gateway := by
            rw [Subnet.gateway, Subnet.gateway, blocks child
              List.mem_cons_self snapshot List.mem_cons_self sameID]
          have others := induction rest fun row member other otherMember =>
            blocks row (List.mem_cons_of_mem _ member) other
              (List.mem_cons_of_mem _ otherMember)
          cases requested : snapshot.deletionRequested with
          | true =>
              rw [List.filter_cons_of_neg (by simp [sameRequest, requested]),
                List.filter_cons_of_neg (by simp [requested]), others]
          | false =>
              rw [List.filter_cons_of_pos (by simp [sameRequest, requested]),
                List.filter_cons_of_pos (by simp [requested]), List.map_cons,
                List.map_cons, gateway, others]

/-- Siblings have different gateways. -/
theorem Store.Sound.gateways_distinct (sound : store.Sound)
    {left right : Subnet} (leftMember : left ∈ store.subnets)
    (rightMember : right ∈ store.subnets) (siblings : left.vpcID = right.vpcID)
    (same : left.gateway = right.gateway) : left.id = right.id := by
  by_contra different
  obtain ⟨ip, leftNext, -, inLeft⟩ :=
    (sound.topology.subnetBlock left leftMember).next
  obtain ⟨other, rightNext, -, inRight⟩ :=
    (sound.topology.subnetBlock right rightMember).next
  rw [Subnet.gateway, Subnet.gateway, leftNext, rightNext] at same
  cases same
  exact sound.subnets_disjoint leftMember rightMember different siblings _
    ⟨inLeft, inRight⟩

theorem vpcEdits_vpcs {state : State} {reason : String} {succeeded : Bool}
    {time : Int} {vpc : VPC} (keyed : store.Keyed) (member : vpc ∈ store.vpcs)
    (run : edits.Run store (vpcEdits state reason succeeded time vpc) final) :
    final.vpcs = replace VPC.id (vpc.withStatus state reason succeeded)
      store.vpcs := by
  unfold vpcEdits at run
  split at run
  · rename_i same
    rw [Run.nil_iff.mp run, same, replace_self keyed.vpcs.unique member]
  · rw [(Run.single_iff.mp run).2]
    rfl

theorem childEdits_vpcs {state : State} {reason : String} {succeeded : Bool}
    {time : Int} {child : Subnet} {edit : Edit}
    (member : edit ∈ childEdits state reason succeeded time child)
    (store : Store) : (edit.apply store).vpcs = store.vpcs := by
  unfold childEdits at member
  split at member
  · rw [List.mem_singleton.mp member]
    rfl
  · split at member
    · cases member
    · rw [List.mem_singleton.mp member]
      rfl

theorem edits_run_vpcs {labels : List Edit}
    (run : edits.Run store labels final)
    (quiet : ∀ edit ∈ labels, ∀ store : Store,
      (edit.apply store).vpcs = store.vpcs) : final.vpcs = store.vpcs := by
  induction run with
  | nil => rfl
  | cons step _ induction =>
      rw [List.forall_mem_cons] at quiet
      rw [induction quiet.2, step.2, quiet.1]

/-- Nothing is left to do for the row. -/
def VPC.Settled (vpc : VPC) : Prop :=
  vpc.deletionRequested = false ∧ vpc.state = .available ∧
    vpc.stateReason = "" ∧ vpc.observedGeneration = vpc.generation

def Subnet.Settled (subnet : Subnet) : Prop :=
  subnet.deletionRequested = false ∧ subnet.state = .available ∧
    subnet.stateReason = "" ∧ subnet.observedGeneration = subnet.generation

/-- The rows that a recorded success leaves of a live VPC. -/
theorem recordTopology_live (sound : store.Sound) {vpc : VPC}
    {subnets : List Subnet} {now : Time} {result : Unit}
    (live : vpc.deletionRequested = false)
    (run : recordTopology vpc subnets none now store = .ok (result, final)) :
    ∃ current children, Matches store vpc subnets current children ∧
      final.vpcs = replace VPC.id (current.withStatus .available "" true)
        store.vpcs ∧
      ∀ subnet, subnet ∈ final.subnets ∧ subnet.vpcID = vpc.id ↔
        ∃ child ∈ children, child.deletionRequested = false ∧
          subnet = child.withStatus .available "" true := by
  obtain ⟨current, children, matched, removed | kept⟩ :=
    recordTopology_ok sound.keyed run
  · rw [live] at removed
    exact absurd removed.1 Bool.false_ne_true
  · obtain ⟨-, middle, first, rest⟩ := kept
    have sameSubnets := vpcEdits_subnets first
    have listed (subnet : Subnet) : subnet ∈ children ↔ _ :=
      Store.mem_listSubnetsByVPC matched.listed
    obtain ⟨loop, rows⟩ := each_recordChild_run
      (Edit.Allowed.run_keyed first sound.keyed)
      (fun child inside => sameSubnets ▸ ((listed _).mp inside).1)
      (Store.unique_listSubnetsByVPC sound.keyed matched.listed)
      (engineOutcome none) rest
    refine ⟨current, children, matched, ?_, fun subnet => ?_⟩
    · rw [edits_run_vpcs loop, vpcEdits_vpcs sound.keyed matched.member first]
      · rfl
      · intro edit member
        obtain ⟨child, -, inside⟩ := List.mem_flatMap.mp member
        exact childEdits_vpcs inside
    · rw [rows subnet, sameSubnets]
      constructor
      · rintro ⟨⟨old, untouched⟩ | ⟨child, inside, stays, rfl⟩, owner⟩
        · exact absurd rfl (untouched subnet ((listed _).mpr ⟨old, owner⟩))
        · exact ⟨child, inside, by simpa using stays, rfl⟩
      · rintro ⟨child, inside, stays, rfl⟩
        exact ⟨.inr ⟨child, inside, by simp [stays], rfl⟩,
          ((listed _).mp inside).2⟩

/-- What a recorded success says about the kernel and the rows. -/
structure World.Observes (world after : World) (vpc : VPC) : Prop where
  gateways : vpc.deletionRequested = false → ∀ address,
    address ∈ after.gateways vpc.shortIndex ↔
      ∃ subnet ∈ after.store.subnets, subnet.vpcID = vpc.id ∧
        subnet.gateway = address
  present : vpc.deletionRequested = false →
    ∃ row ∈ after.store.vpcs, row.id = vpc.id ∧
      row.shortIndex = vpc.shortIndex
  vpcs : ∀ row ∈ after.store.vpcs, row.id = vpc.id → row.Settled
  subnets : ∀ subnet ∈ after.store.subnets, subnet.vpcID = vpc.id →
    subnet.Settled
  removed : ∀ subnet ∈ world.store.subnets, subnet.vpcID = vpc.id →
    (∀ kept ∈ after.store.subnets, kept.id ≠ subnet.id) →
      subnet.gateway ∉ after.gateways vpc.shortIndex
  deleted : vpc.deletionRequested = true →
    (∀ row ∈ after.store.vpcs, row.id ≠ vpc.id) ∧
      ∀ name, netnsName vpc.shortIndex = .ok name → name ∉ after.namespaces

namespace World.Reflects

variable {world : World} {vpc : VPC} {subnets : List Subnet} {now : Time}
  {result : Unit}

theorem observes_live (reflects : world.Reflects vpc subnets)
    (sound : world.store.Sound) (live : vpc.deletionRequested = false)
    (run : recordTopology vpc subnets none now world.store =
      .ok (result, final)) :
    world.Observes { world with store := final } vpc := by
  obtain ⟨current, children, matched, sameVPCs, rows⟩ :=
    recordTopology_live sound live run
  have listed (subnet : Subnet) : subnet ∈ children ↔ _ :=
    Store.mem_listSubnetsByVPC matched.listed
  have kernel (address : Addr) :
      address ∈ world.gateways vpc.shortIndex ↔
        ∃ child ∈ children, child.deletionRequested = false ∧
          child.gateway = address := by
    rw [reflects.gateways live, ← sameDesiredChildren_gateways matched.same
      fun row member => reflects.recalls.blocks row ((listed _).mp member).1]
    simp [and_assoc]
  have sameID : (current.withStatus .available "" true).id = current.id := rfl
  have isVPC {row : VPC} (member : row ∈ final.vpcs) (same : row.id = vpc.id) :
      row = current.withStatus .available "" true := by
    rw [sameVPCs, mem_replace_iff matched.member sameID] at member
    exact member.resolve_right fun old =>
      old.2 (same.trans matched.id.symm)
  have requested := matched.requested.trans live
  refine
    { gateways := fun _ address => ?_
      present := fun _ => ?_
      vpcs := fun row member same => ?_
      subnets := fun subnet member owner => ?_
      removed := fun subnet member owner absent inside => ?_
      deleted := fun deleting => ?_ }
  · rw [kernel address]
    constructor
    · rintro ⟨child, inside, stays, rfl⟩
      obtain ⟨member, owner⟩ := (rows _).mpr ⟨child, inside, stays, rfl⟩
      exact ⟨_, member, owner, rfl⟩
    · rintro ⟨subnet, member, owner, rfl⟩
      obtain ⟨child, inside, stays, rfl⟩ := (rows subnet).mp ⟨member, owner⟩
      exact ⟨child, inside, stays, rfl⟩
  · refine ⟨current.withStatus .available "" true, ?_, matched.id,
      matched.index⟩
    rw [sameVPCs]
    exact (mem_replace_iff matched.member sameID).mpr (.inl rfl)
  · rw [isVPC member same]
    exact ⟨requested, rfl, rfl, rfl⟩
  · obtain ⟨child, inside, stays, rfl⟩ := (rows subnet).mp ⟨member, owner⟩
    exact ⟨stays, rfl, rfl, rfl⟩
  · obtain ⟨child, childInside, stays, same⟩ := (kernel _).mp inside
    obtain ⟨childMember, childOwner⟩ := (listed _).mp childInside
    obtain ⟨kept, -⟩ := (rows _).mpr ⟨child, childInside, stays, rfl⟩
    have sameSubnet := sound.gateways_distinct childMember member
      (childOwner.trans owner.symm) same
    exact absent _ kept sameSubnet
  · rw [live] at deleting
    cases deleting

theorem observes_deleting (reflects : world.Reflects vpc subnets)
    (sound : world.store.Sound) (deleting : vpc.deletionRequested = true)
    (run : recordTopology vpc subnets none now world.store =
      .ok (result, final)) :
    world.Observes { world with store := final } vpc := by
  obtain ⟨current, children, matched, removed | kept⟩ :=
    recordTopology_ok sound.keyed run
  · obtain ⟨-, -, rfl, rfl⟩ := removed
    have childless : ∀ subnet ∈ world.store.subnets,
        subnet.vpcID ≠ vpc.id := by
      intro subnet member owner
      cases (Store.mem_listSubnetsByVPC matched.listed).mpr ⟨member, owner⟩
    have gone : ∀ row ∈ remove VPC.id current.id world.store.vpcs,
        row.id ≠ vpc.id := fun row member =>
      matched.id ▸ (mem_remove_iff.mp member).2
    exact
      { gateways := fun live => by rw [deleting] at live; cases live
        present := fun live => by rw [deleting] at live; cases live
        vpcs := fun row member same => absurd same (gone row member)
        subnets := fun subnet member owner =>
          absurd owner (childless subnet member)
        removed := fun subnet member owner =>
          absurd owner (childless subnet member)
        deleted := fun _ => ⟨gone, reflects.removed deleting⟩ }
  · exact absurd ⟨deleting, rfl⟩ kept.1

end World.Reflects

/-- A stale snapshot makes the VPC pending again. -/
def requeues : (op : Op) → op.Result → Option Op → Prop
  | .recordTopology vpc _ _, .error .staleSnapshot, next =>
      next = some (.enqueue .vpc vpc.id)
  | _, _, _ => True

theorem requeues_free (op : Op) (result : op.Result) (next : Option Op)
    (ended : requeues op result none) : requeues op result next := by
  cases op with
  | recordTopology vpc subnets effectErr =>
      cases result with
      | error failure =>
          cases failure with
          | staleSnapshot => cases ended
          | _ => trivial
      | ok value => trivial
  | _ => trivial

theorem follows_invoke {α : Type} {op : Op} {rest : op.Result → Call α}
    (rule : ∀ result, requeues op result (rest result).outstanding)
    (continues : ∀ result, (rest result).Follows requeues) :
    (invoke op >>= rest).Follows requeues :=
  fun result => ⟨rule result, continues result⟩

theorem follows_external {α : Type} {call : External}
    {rest : Except String call.Value → Call α}
    (continues : ∀ result, (rest result).Follows requeues) :
    (external call >>= rest).Follows requeues :=
  fun _ => ⟨trivial, fun result => ⟨trivial, continues result⟩⟩

namespace VPCController

theorem record_follows (vpc : VPC) (subnets : List Subnet)
    (effectErr : Option String) :
    (record vpc subnets effectErr).Follows requeues := by
  refine follows_invoke (fun _ => trivial) fun cancelled => ?_
  cases cancelled with
  | true => trivial
  | false =>
      refine follows_invoke (fun result => ?_) fun result => ?_
      · cases result with
        | error failure => cases failure <;> trivial
        | ok value => trivial
      · split
        · exact follows_invoke (fun _ => trivial) fun _ => trivial
        · trivial
        · split <;> exact follows_invoke (fun _ => trivial) fun _ => trivial

theorem reconcileLocked_follows (id : ID) :
    (reconcileLocked id).Follows requeues := by
  refine follows_invoke (fun _ => trivial) fun found => ?_
  split
  · exact follows_invoke (fun _ => trivial) fun _ => trivial
  · trivial
  · refine follows_invoke (fun _ => trivial) fun listed => ?_
    split
    · trivial
    · split
      · split
        · trivial
        · exact follows_external fun _ => record_follows _ _ _
      · exact follows_external fun _ => record_follows _ _ _

theorem readPages_follows (pages : Nat) (afterID : ID)
    (wanted : List String) (vpcs : List VPC) :
    (readPages pages afterID wanted vpcs).Follows requeues := by
  induction pages generalizing afterID wanted vpcs with
  | zero => trivial
  | succ pages induction =>
      refine follows_invoke (fun _ => trivial) fun listed => ?_
      split
      · trivial
      · trivial
      · split
        · trivial
        · exact induction _ _ _

theorem removeOrphans_follows (wanted names : List String) :
    (removeOrphans wanted names).Follows requeues := by
  induction names with
  | nil => trivial
  | cons name names induction =>
      rw [removeOrphans]
      split
      · exact induction
      · split
        · exact induction
        · refine follows_external fun result => ?_
          split
          · trivial
          · exact induction

theorem reconcileAll_follows (vpcs : List VPC) :
    (reconcileAll vpcs).Follows requeues := by
  induction vpcs with
  | nil => trivial
  | cons vpc vpcs induction =>
      refine .bind requeues_free (reconcileLocked_follows vpc.id)
        fun result => ?_
      split
      · trivial
      · exact induction

theorem sweep_follows (pages : Nat) : (sweep pages).Follows requeues := by
  refine .bind requeues_free (readPages_follows pages "" [] [])
    fun result => ?_
  split
  · trivial
  · refine follows_external fun listed => ?_
    split
    · trivial
    · refine .bind requeues_free (removeOrphans_follows _ _) fun result => ?_
      split
      · trivial
      · exact reconcileAll_follows _

end VPCController

theorem Daemon.requeues_of_reachable {daemon : Daemon}
    (reachable : system.Reachable daemon) :
    ∀ thread ∈ daemon.vpcWork, thread.Follows requeues := by
  apply reachable.invariant fun daemon =>
    ∀ thread ∈ daemon.vpcWork, thread.Follows requeues
  · rintro daemon ⟨namespaces, -, rfl⟩ thread working
    cases working
  · intro daemon label next follows stepped
    cases Moves.of_step stepped with
    | beginVPC change idle isPass =>
        rintro _ ⟨⟩
        cases isPass with
        | reconcile id => exact VPCController.reconcileLocked_follows id
        | sweep pages => exact VPCController.sweep_follows pages
    | vpcDone working =>
        rintro _ ⟨⟩
    | @vpcCall choice op next result after working runs =>
        rintro _ ⟨⟩
        exact (follows _ working result).2
    | crash =>
        rintro _ ⟨⟩
    | _ => exact follows

/-- When a topology is recorded, the kernel is as the rows say after a
success, and a stale snapshot is dropped and the VPC made pending again. -/
theorem system_topology_observed {daemon next : Daemon} {thread : Pass}
    {vpc : VPC} {subnets : List Subnet} {effectErr : Option String}
    {now : Time} (reachable : system.Reachable daemon)
    (working : thread ∈ daemon.vpcWork)
    (waits : thread.outstanding =
      some (.recordTopology vpc subnets effectErr))
    (stepped : daemon.step (.vpcStep (.clock now)) = some next) :
    (effectErr = none →
      (daemon.world.store.withTx
        (recordTopology vpc subnets effectErr now)).1 = .ok () →
      daemon.world.Observes next.world vpc) ∧
    ((daemon.world.store.withTx
        (recordTopology vpc subnets effectErr now)).1 =
          .error .staleSnapshot →
      next.world.store = daemon.world.store ∧
        next.Awaits (.enqueue .vpc vpc.id)) := by
  obtain ⟨formed, safe⟩ := Daemon.PlaneSafe.of_reachable reachable
  have permits := safe.permits working waits
  have follows := Daemon.requeues_of_reachable reachable thread working
  cases thread with
  | done value => cases waits
  | call op rest =>
      cases waits
      obtain rfl : next =
          { daemon with
            world := { daemon.world with
              store := (daemon.world.store.withTx
                (recordTopology vpc subnets effectErr now)).2 }
            vpcWork := some (rest (daemon.world.store.withTx
              (recordTopology vpc subnets effectErr now)).1) } := by
        rw [Daemon.step, Option.mem_def.mp working] at stepped
        exact (Option.some.inj stepped).symm
      constructor
      · rintro rfl success
        rcases commit_cases (recordTopology vpc subnets none now)
          daemon.world.store with
          ⟨failure, failed⟩ | ⟨value, final, run, committed⟩
        · rw [Store.withTx, failed] at success
          cases success
        · simp only [Store.withTx, committed]
          cases live : vpc.deletionRequested with
          | false =>
              exact { permits.observes_live safe.plane.sound live run with }
          | true =>
              exact
                { permits.observes_deleting safe.plane.sound live run with }
      · intro stale
        refine ⟨?_, .inr (.inl ⟨_, rfl, ?_⟩)⟩
        · rcases commit_cases (recordTopology vpc subnets effectErr now)
            daemon.world.store with
            ⟨failure, failed⟩ | ⟨value, final, run, committed⟩
          · simp only [Store.withTx, failed]
          · rw [Store.withTx, committed] at stale
            cases stale
        · have follows := (follows (.error .staleSnapshot)).1
          rw [stale]
          exact follows

/-- The operation records a VPC without a deletion request, at time one and
with success. -/
def World.recordsLive (world : World) : Op → Bool
  | .recordTopology vpc subnets none => decide (vpc.deletionRequested = false) &&
      (world.store.withTx (recordTopology vpc subnets none 1)).1.toBool
  | _ => false

theorem World.eq_of_recordsLive {world : World} {op : Op}
    (live : world.recordsLive op = true) :
    ∃ vpc subnets, op = .recordTopology vpc subnets none ∧
      vpc.deletionRequested = false ∧
      (world.store.withTx (recordTopology vpc subnets none 1)).1 = .ok () := by
  unfold World.recordsLive at live
  split at live
  · rename_i vpc subnets
    rw [Bool.and_eq_true, decide_eq_true_iff] at live
    refine ⟨vpc, subnets, rfl, live.1, ?_⟩
    cases result : (world.store.withTx
        (recordTopology vpc subnets none 1)).1 with
    | error failure =>
        rw [result] at live
        cases live.2
    | ok value => rfl
  · cases live

/-- The first subnet becomes available with its VPC. -/
theorem firstNetwork_topology_observed :
    ∃ daemon next vpc,
      (Daemon.initial []).run (firstNetwork.take 8) = some daemon ∧
      daemon.step (.vpcStep (.clock 1)) = some next ∧
      vpc.deletionRequested = false ∧ next.world.store.subnets ≠ [] ∧
      daemon.world.Observes next.world vpc := by
  have runs : ((Daemon.initial []).run (firstNetwork.take 8)).any
      (fun daemon => (daemon.step (.vpcStep (.clock 1))).any fun next =>
        decide (next.world.store.subnets ≠ []) &&
          daemon.vpcWork.any fun thread =>
            thread.outstanding.any daemon.world.recordsLive) = true := by
    decide +kernel
  obtain ⟨daemon, ran, checked⟩ := (Option.any_eq_true _ _).mp runs
  obtain ⟨next, stepped, checked⟩ := (Option.any_eq_true _ _).mp checked
  rw [Bool.and_eq_true, decide_eq_true_iff] at checked
  obtain ⟨thread, working, waiting⟩ := (Option.any_eq_true _ _).mp checked.2
  obtain ⟨op, waits, live⟩ := (Option.any_eq_true _ _).mp waiting
  obtain ⟨vpc, subnets, rfl, wanted, succeeded⟩ :=
    World.eq_of_recordsLive live
  exact ⟨daemon, next, vpc, ran, stepped, wanted, checked.1,
    (system_topology_observed (Daemon.run_reachable ran) working waits
      stepped).1 rfl succeeded⟩

end Nephos
