import Nephos.KeyedCreates
import Nephos.Network.Engine
import Nephos.Reconcile.Lookups

/-!
# Names for the kernel

All resources draw their short indexes from one sequence, which never gives
an index twice and ends only with the numbers of the database.  The names
that are derived from the indexes end earlier, and nothing compares the two:
a VPC that is created behind the last index with a name is committed all the
same, and from then on no sweep gets past it.
-/

namespace Nephos

open Effects Transaction Transition.System

def VPC.Nameable (vpc : VPC) : Prop :=
  ∃ name, netnsName vpc.shortIndex = .ok name

def ENI.Nameable (eni : ENI) : Prop :=
  ∃ name, eniLinkName eni.shortIndex = .ok name

theorem netnsName_ok_iff {index : Int} :
    (∃ name, netnsName index = .ok name) ↔ 1 ≤ index ∧ index ≤ maxIndex := by
  unfold netnsName
  split
  · rename_i outside
    refine iff_of_false (fun ⟨_, impossible⟩ => by cases impossible) ?_
    omega
  · rename_i inside
    exact iff_of_true ⟨_, rfl⟩ (by omega)

theorem eniLinkName_ok_iff {index : Int} :
    (∃ name, eniLinkName index = .ok name) ↔
      1 ≤ index ∧ index ≤ maxENIIndex := by
  unfold eniLinkName
  split
  · rename_i outside
    refine iff_of_false (fun ⟨_, impossible⟩ => by cases impossible) ?_
    omega
  · rename_i inside
    exact iff_of_true ⟨_, rfl⟩ (by omega)

/-- Every row that needs a name of the kernel has one. -/
structure Store.Nameable (store : Store) : Prop where
  vpcs : ∀ vpc ∈ store.vpcs, vpc.Nameable
  enis : ∀ eni ∈ store.enis, eni.Nameable

/-- The next indexes have names, for a write that needs them. -/
def Write.Fits (store : Store) : Write → Prop
  | .createVPC _ _ _ _ => store.indexSequence < maxIndex
  | .run _ _ _ _ _ => store.indexSequence + 2 ≤ maxENIIndex
  | _ => True

section Creations

variable {store : Store}

theorem Store.remember_vpcs (record : Idempotency) :
    (store.remember record).vpcs = store.vpcs := by
  unfold Store.remember
  split <;> rfl

theorem Store.remember_enis (record : Idempotency) :
    (store.remember record).enis = store.enis := by
  unfold Store.remember
  split <;> rfl

theorem createVPC_cases (input : CreateVPCInput) (key : String)
    (random : List UInt8) (now : Time) (store : Store) :
    ((createVPC input key random now store).store = store ∧
        (createVPC input key random now store).enqueued = []) ∨
      ∃ vpc : VPC,
        (createVPC input key random now store).result = .ok vpc ∧
        vpc.shortIndex = store.indexSequence + 1 ∧
        (createVPC input key random now store).store.vpcs =
          store.vpcs ++ [vpc] ∧
        (createVPC input key random now store).store.enis = store.enis := by
  unfold createVPC
  split
  · exact .inl ⟨rfl, rfl⟩
  · rename_i request _
    rcases Outcome.ofTx_cases (createVPCTx request) VPC.id store with
      ⟨failure, shape⟩ | ⟨value, changed, final, run, shape⟩
    · rw [shape]
      exact .inl ⟨rfl, rfl⟩
    · rw [shape]
      rcases createVPCTx_ok run with
        ⟨_, _, -, -, -, same, rfl⟩ | ⟨-, -, same, rfl⟩
      · cases same
        exact .inl ⟨rfl, rfl⟩
      · cases same
        refine .inr ⟨_, rfl, rfl, ?_, ?_⟩
        · rw [Store.remember_vpcs]
          rfl
        · rw [Store.remember_enis]
          rfl

theorem run_cases (input : RunInstanceInput) (key : String)
    (random eniRandom : List UInt8) (now : Time) (store : Store) :
    ((run input key random eniRandom now store).store = store ∧
        (run input key random eniRandom now store).enqueued = []) ∨
      ∃ inst : Instance,
        (run input key random eniRandom now store).result = .ok inst ∧
        inst.eni.shortIndex = store.indexSequence + 2 ∧
        (run input key random eniRandom now store).store.vpcs =
          store.vpcs ∧
        (run input key random eniRandom now store).store.enis =
          store.enis ++ [inst.eni] := by
  unfold run
  split
  · exact .inl ⟨rfl, rfl⟩
  · rename_i request _
    rcases Outcome.ofTx_cases (runTx request) Instance.id store with
      ⟨failure, shape⟩ | ⟨value, changed, final, run, shape⟩
    · rw [shape]
      exact .inl ⟨rfl, rfl⟩
    · rw [shape]
      rcases runTx_ok run with
        ⟨_, _, -, -, -, same, rfl⟩ | ⟨-, subnet, address, -, -, same, rfl⟩
      · cases same
        exact .inl ⟨rfl, rfl⟩
      · cases same
        refine .inr ⟨_, rfl, ?_, ?_, ?_⟩
        · change store.indexSequence + 1 + 1 = store.indexSequence + 2
          omega
        · rw [Store.remember_vpcs]
          rfl
        · rw [Store.remember_enis]
          rfl

/-- A new VPC has a name exactly if the sequence was short enough. -/
theorem createVPC_nameable (sound : store.Sound) {input : CreateVPCInput}
    {key : String} {random : List UInt8} {now : Time} {vpc : VPC}
    (created : (createVPC input key random now store).result = .ok vpc)
    (changed : (createVPC input key random now store).enqueued ≠ []) :
    vpc.Nameable ↔ store.indexSequence < maxIndex := by
  rcases createVPC_cases input key random now store with
    ⟨-, same⟩ | ⟨other, isOk, index, -, -⟩
  · exact absurd same changed
  · rw [isOk] at created
    cases created
    rw [VPC.Nameable, netnsName_ok_iff, index]
    have positive := sound.keyed.sequence
    omega

theorem run_nameable (sound : store.Sound) {input : RunInstanceInput}
    {key : String} {random eniRandom : List UInt8} {now : Time}
    {inst : Instance}
    (created : (run input key random eniRandom now store).result = .ok inst)
    (changed : (run input key random eniRandom now store).enqueued ≠ []) :
    inst.eni.Nameable ↔ store.indexSequence + 2 ≤ maxENIIndex := by
  rcases run_cases input key random eniRandom now store with
    ⟨-, same⟩ | ⟨other, isOk, index, -, -⟩
  · exact absurd same changed
  · rw [isOk] at created
    cases created
    rw [ENI.Nameable, eniLinkName_ok_iff, index]
    have positive := sound.keyed.sequence
    omega

/-- The edits that give a row its index. -/
def Edit.Indexes : Edit → Prop
  | .createVPC _ _ | .createInstance _ _ _ => True
  | _ => False

theorem Edit.Allowed.nameable {edit : Edit} (allowed : edit.Allowed store)
    (quiet : ¬ edit.Indexes) (nameable : store.Nameable) :
    (edit.apply store).Nameable := by
  cases allowed with
  | createVPC => exact absurd trivial quiet
  | createInstance => exact absurd trivial quiet
  | @markVPC row time member live childless =>
      exact ⟨forall_replace member (by rfl) nameable.vpcs
        (nameable.vpcs row member), nameable.enis⟩
  | @vpcStatus row state reason succeeded time member =>
      exact ⟨forall_replace member (by rfl) nameable.vpcs
        (nameable.vpcs row member), nameable.enis⟩
  | removeVPC =>
      exact ⟨fun vpc inside => nameable.vpcs vpc (mem_remove_iff.mp inside).1,
        nameable.enis⟩
  | @instanceStatus row eni status reason observed time member eniMember =>
      refine ⟨nameable.vpcs, forall_replace eniMember (ENI.withStatus_id ..)
        nameable.enis ?_⟩
      rw [ENI.Nameable, ENI.withStatus_shortIndex]
      exact nameable.enis eni eniMember
  | removeInstance =>
      exact ⟨nameable.vpcs,
        fun eni inside => nameable.enis eni (mem_remove_iff.mp inside).1⟩
  | _ => exact ⟨nameable.vpcs, nameable.enis⟩

theorem edits_run_nameable {labels : List Edit} {final : Store}
    (run : edits.Run store labels final)
    (quiet : ∀ edit ∈ labels, ¬ edit.Indexes) (nameable : store.Nameable) :
    final.Nameable := by
  induction run with
  | nil store => exact nameable
  | cons step _ induction =>
      rw [List.forall_mem_cons] at quiet
      obtain ⟨allowed, rfl⟩ := step
      exact induction quiet.2 (allowed.nameable quiet.1 nameable)

theorem createVPC_fits (sound : store.Sound) (nameable : store.Nameable)
    (fits : store.indexSequence < maxIndex) (input : CreateVPCInput)
    (key : String) (random : List UInt8) (now : Time) :
    (createVPC input key random now store).store.Nameable := by
  have positive := sound.keyed.sequence
  rcases createVPC_cases input key random now store with
    ⟨same, -⟩ | ⟨vpc, -, index, vpcs, enis⟩
  · rw [same]
    exact nameable
  · constructor
    · rw [vpcs]
      exact forall_append nameable.vpcs (netnsName_ok_iff.mpr (by omega))
    · rw [enis]
      exact nameable.enis

theorem run_fits (sound : store.Sound) (nameable : store.Nameable)
    (fits : store.indexSequence + 2 ≤ maxENIIndex) (input : RunInstanceInput)
    (key : String) (random eniRandom : List UInt8) (now : Time) :
    (run input key random eniRandom now store).store.Nameable := by
  have positive := sound.keyed.sequence
  rcases run_cases input key random eniRandom now store with
    ⟨same, -⟩ | ⟨inst, -, index, vpcs, enis⟩
  · rw [same]
    exact nameable
  · constructor
    · rw [vpcs]
      exact nameable.vpcs
    · rw [enis]
      exact forall_append nameable.enis (eniLinkName_ok_iff.mpr (by omega))

/-- Only the two writes with a condition give a row its index. -/
theorem Write.Makes.quiet {write : Write} {edit : Edit}
    (makes : write.Makes edit)
    (vpcless : ∀ input key random now, write ≠ .createVPC input key random now)
    (runless : ∀ input key random eniRandom now,
      write ≠ .run input key random eniRandom now) : ¬ edit.Indexes := by
  intro gives
  cases edit with
  | createVPC row time =>
      cases write <;> try exact makes
      exact vpcless _ _ _ _ rfl
  | createInstance row eni time =>
      cases write <;> try exact makes
      exact runless _ _ _ _ _ rfl
  | _ => exact gives

theorem Write.nameable {write : Write} (sound : store.Sound)
    (fits : write.Fits store) (nameable : store.Nameable) :
    (write.apply store).Nameable := by
  by_cases vpcless : ∀ input key random now,
      write ≠ .createVPC input key random now
  · by_cases runless : ∀ input key random eniRandom now,
        write ≠ .run input key random eniRandom now
    · obtain ⟨labels, run, -, all⟩ := write.edited sound.keyed
      exact edits_run_nameable run (fun edit member =>
        (all edit member).quiet vpcless runless) nameable
    · push Not at runless
      obtain ⟨input, key, random, eniRandom, now, rfl⟩ := runless
      exact run_fits sound nameable fits input key random eniRandom now
  · push Not at vpcless
    obtain ⟨input, key, random, now, rfl⟩ := vpcless
    exact createVPC_fits sound nameable fits input key random now

end Creations

/-- The database while its sequence is short enough for what is created. -/
def roomyDatabase : Transition.System Store Write :=
  database.restrict fun store write _ => write.Fits store

theorem roomyDatabase_run {store final : Store} {writes : List Write}
    (run : roomyDatabase.Run store writes final) (sound : store.Sound)
    (nameable : store.Nameable) : final.Sound ∧ final.Nameable := by
  refine run.invariant (fun store => store.Sound ∧ store.Nameable)
    (fun {state write next} held step => ?_) ⟨sound, nameable⟩
  obtain ⟨rfl, fits⟩ := step
  exact ⟨write.sound held.1, write.nameable held.1 fits held.2⟩

theorem roomyDatabase_reachable {store : Store}
    (reachable : roomyDatabase.Reachable store) :
    store.Sound ∧ store.Nameable := by
  obtain ⟨start, writes, rfl, run⟩ := reachable
  have nameable : Store.empty.Nameable := by
    constructor <;> simp [Store.empty]
  exact roomyDatabase_run run ⟨.empty, .empty⟩ nameable

/-- A sweep among such writes. -/
def roomy : Setting Op Op.Result World where
  others world later :=
    ∃ writes, roomyDatabase.Run world.store writes later.store
  behaviour := World.Behaves
  refl world := ⟨[], .nil world.store⟩
  trans first second := by
    obtain ⟨front, run⟩ := first
    obtain ⟨back, onward⟩ := second
    exact ⟨front ++ back, run.append onward⟩

namespace VPCController

theorem readPages_named (pages : Nat) (afterID : ID) (wanted : List String)
    (vpcs : List VPC) {world : World} {history : List PassEvent}
    (sound : world.store.Sound) (nameable : world.store.Nameable) :
    (roomy.contract fun _ => True).Safe
      (fun result _ => ∀ failure, result = .error failure →
        failure = contextCanceled)
      (readPages pages afterID wanted vpcs) ⟨world, history⟩ := by
  induction pages generalizing afterID wanted vpcs world history with
  | zero =>
      intro failure failed
      cases failed
      rfl
  | succ pages induction =>
      refine traced_invoke (.listVPCPage afterID)
        fun {before result after} _ others behaves => ⟨trivial, ?_⟩
      obtain ⟨writes, run⟩ := others
      obtain ⟨sound, nameable⟩ := roomyDatabase_run run sound nameable
      obtain ⟨read, rfl⟩ := behaves.listVPCPage
      obtain ⟨page, listed⟩ :=
        sound.listVPCPage_total defaultWorkspace afterID 100
      obtain rfl := read.trans listed
      have onPage : ∀ vpc ∈ page, ∃ name, sweepName vpc = .ok name := by
        intro vpc member
        rw [Store.listVPCPage_ok listed] at member
        have inside := List.mem_of_mem_take member
        rw [mem_orderByID] at inside
        obtain ⟨name, named⟩ :=
          nameable.vpcs vpc (List.mem_filter.mp inside).1
        exact ⟨name, sweepName_ok_iff.mpr named⟩
      cases page with
      | nil =>
          intro failure failed
          cases failed
      | cons first rest =>
          obtain ⟨names, named⟩ := mapM_total onPage
          dsimp only
          rw [named]
          exact induction _ _ _ sound nameable

end VPCController

/-- Nine bytes that begin with the number. -/
def cycleRandom (number : Nat) : List UInt8 :=
  [ UInt8.ofNat number, UInt8.ofNat (number / 256),
    UInt8.ofNat (number / 65536), UInt8.ofNat (number / 16777216),
    0, 0, 0, 0, 0 ]

def cycleID (number : Nat) : ID :=
  "vpc-" ++ String.ofList
    ((Text.hexEncode (cycleRandom number)).toList.take 17)

theorem hexDigit_injective : ∀ left < 16, ∀ right < 16,
    Text.hexDigit left = Text.hexDigit right → left = right := by
  decide

theorem byte_eq_of_digits {left right : UInt8}
    (high : Text.hexDigit (left.toNat / 16) =
      Text.hexDigit (right.toNat / 16))
    (low : Text.hexDigit (left.toNat % 16) =
      Text.hexDigit (right.toNat % 16)) : left.toNat = right.toNat := by
  have leftBound := left.toNat_lt
  have rightBound := right.toNat_lt
  have highs := hexDigit_injective _ (by omega) _ (by omega) high
  have lows := hexDigit_injective _ (by omega) _ (by omega) low
  omega

theorem cycleID_injective {left right : Nat} (leftBound : left < 2 ^ 32)
    (rightBound : right < 2 ^ 32) (same : cycleID left = cycleID right) :
    left = right := by
  have digits := congrArg String.toList same
  simp only [cycleID, cycleRandom, Text.hexEncode, Text.hexByte,
    String.toList_append, String.toList_ofList, List.flatMap_cons,
    List.cons_append, List.nil_append, List.take_succ_cons,
    List.append_cancel_left_eq, List.cons.injEq] at digits
  obtain ⟨high0, low0, high1, low1, high2, low2, high3, low3, -⟩ := digits
  have byte0 := byte_eq_of_digits high0 low0
  have byte1 := byte_eq_of_digits high1 low1
  have byte2 := byte_eq_of_digits high2 low2
  have byte3 := byte_eq_of_digits high3 low3
  simp only [UInt8.toNat_ofNat'] at byte0 byte1 byte2 byte3
  omega

section Totals

variable {store : Store}

theorem commit_total {α : Type} {body : Tx α} (total : Total body store) :
    ∃ value final, body store = .ok (value, final) ∧
      store.withTx body = (.ok value, final) := by
  rcases commit_cases body store with ⟨failure, failed⟩ | succeeded
  · have refused := commit_error_iff.mp (congrArg Prod.fst failed)
    exact absurd refused (total failure)
  · exact succeeded

theorem Outcome.ofTx_total {α : Type} {body : Tx (α × Bool)}
    (total : Total body store) (hint : α → ID) :
    ∃ result final, body store = .ok (result, final) ∧
      (Outcome.ofTx body hint store).store = final := by
  obtain ⟨result, final, run, committed⟩ := commit_total total
  refine ⟨result, final, run, ?_⟩
  rw [Outcome.ofTx, committed]

theorem appendEvent_total {event : Event}
    (workspace : event.workspaceID = defaultWorkspace)
    (room : store.eventSequence < 2 ^ 63 - 1) :
    Total (appendEvent event) store := by
  refine .get_bind (.ensure_bind ?_ (.ensure_bind room (.modify _)))
  rw [workspace]
  decide

theorem allocateIndex_total {kind : ResourceKind} {id : ID}
    (unused : store.Unused id) (room : store.indexSequence < 2 ^ 63 - 1) :
    Total (allocateIndex kind id) store :=
  .get_bind (.ensure_bind unused (.ensure_bind room
    (.bind (.modify _) fun _ => .pure _)))

theorem createVPCTx_total (sound : store.Sound) {request : VPCRequest}
    (fits : nameFits request.name) (unused : store.Unused request.id)
    (unkeyed : request.key = "") (free : store.vpcs = [])
    (room : store.indexSequence < 2 ^ 63 - 1)
    (eventRoom : store.eventSequence < 2 ^ 63 - 1) :
    Total (createVPCTx request) store := by
  unfold createVPCTx createVPCWith
  have fresh : loadReplay Response.vpc? .createVPC request.key
      (hashPayload request.payload) request.now store =
        .ok (none, store) := by
    rw [loadReplay, if_pos unkeyed]
    rfl
  refine .bind (fun failure failed => ?_) fun {replay middle} loaded => ?_
  · rw [fresh] at failed
    cases failed
  rw [fresh] at loaded
  cases loaded
  have missing : store.getVPCByName defaultWorkspace request.name =
      .error .noRows := by
    rw [Store.getVPCByName, free]
    rfl
  refine .get_bind ?_
  rw [missing]
  refine .bind (allocateIndex_total unused room)
    fun {index indexed} allocated => ?_
  obtain ⟨-, rfl, rfl⟩ := allocateIndex_ok allocated
  have nameFree : ∀ row ∈ store.vpcs,
      ¬ (row.workspaceID = defaultWorkspace ∧ row.name = request.name) := by
    rw [free]
    exact fun _ member => absurd member List.not_mem_nil
  refine .bind (rescue_total (insertVPC_total sound fits unused rfl nameFree
    rfl)) fun {value inserted} insertion => ?_
  obtain rfl := insertVPC_ok (rescue_ok_iff.mp insertion)
  refine .bind (appendEvent_total rfl eventRoom) fun _ => ?_
  exact .bind saveReplay_total fun _ => .pure _

theorem Store.getVPC_found {vpc : VPC} (member : vpc ∈ store.vpcs)
    (blocks : ∀ row ∈ store.vpcs, Admissible row.cidrBlock) :
    ∃ found, store.getVPC vpc.workspaceID vpc.id = .ok found := by
  unfold getVPC
  split
  · rename_i missing
    have other := List.find?_eq_none.mp missing vpc member
    simp at other
  · rename_i row found
    have block := blocks row (List.mem_of_find?_eq_some found)
    exact ⟨row, if_pos ⟨block.valid, block.is4⟩⟩

theorem deleteVPCTx_total (valid : store.Valid) {vpc : VPC}
    (member : vpc ∈ store.vpcs) (childless : store.subnets = [])
    (eventRoom : store.eventSequence < 2 ^ 63 - 1) {now : Time} :
    Total (deleteVPCTx vpc.id now) store := by
  have sound := valid.sound
  have workspace := sound.keyed.vpcs.workspace vpc member
  have listed : store.listSubnetsByVPC vpc.id = .ok [] := by
    rw [Store.listSubnetsByVPC, childless]
    rfl
  refine .get_bind ?_
  obtain ⟨found, isOk⟩ :=
    Store.getVPC_found member sound.topology.vpcBlock
  obtain ⟨foundMember, sameID, -⟩ := Store.getVPC_ok isOk
  obtain rfl := sound.keyed.vpcs.unique.eq_of_mem foundMember member sameID
  rw [workspace] at isOk
  rw [isOk]
  refine .get_bind ?_
  rw [listed]
  refine .ite (fun nonempty => absurd rfl nonempty) fun _ =>
    .ite (fun _ => .pure _) fun live =>
      .bind ?_ fun {value middle} marking => .get_bind ?_
  · exact .get_bind (.ensure_bind (fun row inside _ =>
      (valid.counted.vpcs row inside).marked) (.modify _))
  · rw [Bool.not_eq_true] at live
    rw [← workspace] at marking
    have shape := markVPCDeleting_ok sound.keyed member live marking
    have sameMarked : found.marked.id = found.id := rfl
    have inside : found.marked ∈ middle.vpcs := by
      rw [shape]
      exact (mem_replace_iff member sameMarked).mpr (.inl rfl)
    have blocks : ∀ row ∈ middle.vpcs, Admissible row.cidrBlock := by
      rw [shape]
      exact forall_replace member sameMarked sound.topology.vpcBlock
        (sound.topology.vpcBlock found member)
    obtain ⟨again, reread⟩ := Store.getVPC_found inside blocks
    have sameWorkspace : found.marked.workspaceID = defaultWorkspace :=
      workspace
    rw [sameWorkspace, sameMarked] at reread
    rw [reread]
    refine .bind (appendEvent_total rfl ?_) fun _ => .pure _
    rw [shape]
    exact eventRoom

/-- The deletion of a VPC that is marked ends. -/
theorem recordTopology_total (valid : store.Valid) {vpc : VPC}
    (member : vpc ∈ store.vpcs) (requested : vpc.deletionRequested = true)
    (childless : store.subnets = [])
    (eventRoom : store.eventSequence < 2 ^ 63 - 1) {now : Time} :
    Total (recordTopology vpc [] none now) store := by
  have sound := valid.sound
  have workspace := sound.keyed.vpcs.workspace vpc member
  have listed : store.listSubnetsByVPC vpc.id = .ok [] := by
    rw [Store.listSubnetsByVPC, childless]
    rfl
  refine .get_bind ?_
  obtain ⟨found, isOk⟩ :=
    Store.getVPC_found member sound.topology.vpcBlock
  obtain ⟨foundMember, sameID, -⟩ := Store.getVPC_ok isOk
  obtain rfl := sound.keyed.vpcs.unique.eq_of_mem foundMember member sameID
  rw [isOk]
  refine .ite (fun stale => absurd stale (by simp)) fun _ => .get_bind ?_
  rw [listed]
  refine .ite (fun stale => absurd trivial stale) fun _ =>
    .ite (fun _ => ?_) fun kept => absurd ⟨requested, rfl⟩ kept
  refine .ite (fun nonempty => absurd rfl nonempty) fun _ =>
    .bind ?_ fun {value removed} removal => ?_
  · refine .get_bind (.ensure_bind ?_ (.modify _))
    rw [childless]
    exact fun _ inside => absurd inside List.not_mem_nil
  · refine appendEvent_total workspace ?_
    rw [deleteVPCRow_ok sound.keyed member removal]
    exact eventRoom

theorem deleteVPC_marks (valid : store.Valid) {vpc : VPC}
    (member : vpc ∈ store.vpcs) (live : vpc.deletionRequested = false)
    (childless : store.subnets = [])
    (eventRoom : store.eventSequence < 2 ^ 63 - 1) (now : Time) :
    (deleteVPC vpc.id now store).store =
      Edit.apply store (.markVPC vpc now.unix) := by
  obtain ⟨result, final, run, same⟩ := Outcome.ofTx_total
    (deleteVPCTx_total valid member childless eventRoom) fun _ => vpc.id
  obtain ⟨found, foundMember, sameID, -, outcome⟩ :=
    deleteVPCTx_ok valid.sound.keyed run
  obtain rfl := valid.sound.keyed.vpcs.unique.eq_of_mem foundMember member
    sameID
  rw [deleteVPC, same]
  rcases outcome with ⟨requested, -⟩ | ⟨-, -, change⟩
  · rw [live] at requested
    cases requested
  · exact change

theorem recordTopology_removes (valid : store.Valid) {vpc : VPC}
    (member : vpc ∈ store.vpcs) (requested : vpc.deletionRequested = true)
    (childless : store.subnets = [])
    (eventRoom : store.eventSequence < 2 ^ 63 - 1) (now : Time) :
    (store.withTx (recordTopology vpc [] none now)).2 =
      Edit.apply store (.removeVPC vpc now.unix) := by
  obtain ⟨value, final, run, committed⟩ := commit_total
    (recordTopology_total valid member requested childless eventRoom)
  obtain ⟨current, children, matched, outcome⟩ :=
    recordTopology_ok valid.sound.keyed run
  obtain rfl := valid.sound.keyed.vpcs.unique.eq_of_mem matched.member
    member matched.id
  rw [committed]
  rcases outcome with ⟨-, -, -, change⟩ | ⟨kept, -⟩
  · exact change
  · exact absurd ⟨requested, rfl⟩ kept

end Totals

/-- A database that has created and deleted a number of VPCs. -/
structure Store.Spent (store : Store) (number : Nat) : Prop where
  reachable : database.Reachable store
  indexes : store.indexSequence = number
  events : store.eventSequence = 3 * number
  vpcs : store.vpcs = []
  subnets : store.subnets = []
  drawn : ∀ index ∈ store.kernelIndexes, ∃ earlier < number,
    index.resourceID = cycleID earlier

/-- The request for a VPC of which only the identity varies. -/
def cycleWrite (number : Nat) : Write :=
  .createVPC { name := "net", cidrBlock := "10.0.0.0/16" } ""
    (cycleRandom number) 0

theorem cycleRequest (number : Nat) :
    ∃ request, checkVPCRequest
        { name := "net", cidrBlock := "10.0.0.0/16" } ""
        (cycleRandom number) 0 = .ok request ∧
      request.id = cycleID number ∧ request.name = "net" ∧
      request.key = "" ∧ request.now = 0 := by
  have named : validateName "net" = .ok "net" := by decide +kernel
  have parses : (parseCIDR "10.0.0.0/16").toOption.isSome = true := by
    decide +kernel
  cases parsed : parseCIDR "10.0.0.0/16" with
  | error failure =>
      rw [parsed] at parses
      cases parses
  | ok cidr =>
      refine ⟨⟨cycleID number, "net", cidr, "", 0⟩, ?_, rfl, rfl, rfl, rfl⟩
      rw [checkVPCRequest, named, parsed]
      rfl

/-- The database with the VPC it creates next. -/
theorem Store.Spent.create {store : Store} {number : Nat}
    (spent : store.Spent number) (bounded : number < 2 ^ 32) :
    ∃ vpc : VPC, vpc.id = cycleID number ∧ vpc.shortIndex = number + 1 ∧
      vpc.deletionRequested = false ∧
      (cycleWrite number).apply store =
        Edit.apply store (.createVPC vpc 0) := by
  have sound := database_reachable_sound spent.reachable
  obtain ⟨request, checked, id, name, key, now⟩ := cycleRequest number
  have unused : store.Unused request.id := by
    intro index member same
    obtain ⟨earlier, below, drawn⟩ := spent.drawn index member
    have repeated := cycleID_injective (by omega) bounded
      (drawn.symm.trans (same.trans id))
    omega
  have room : store.indexSequence < 2 ^ 63 - 1 := by
    rw [spent.indexes]
    omega
  have eventRoom : store.eventSequence < 2 ^ 63 - 1 := by
    rw [spent.events]
    omega
  have total := createVPCTx_total sound (by rw [name]; decide) unused key
    spent.vpcs room eventRoom
  have created : (cycleWrite number).apply store =
      (Outcome.ofTx (createVPCTx request) VPC.id store).store := by
    change (createVPC _ _ _ _ store).store = _
    rw [createVPC, checked]
  obtain ⟨result, final, run, same⟩ := Outcome.ofTx_total total VPC.id
  rw [created, same]
  rcases createVPCTx_ok run with
    ⟨record, _, live, -⟩ | ⟨-, -, rfl, rfl⟩
  · exact absurd key live.1
  · refine ⟨request.snapshot (store.indexSequence + 1), id, ?_, rfl, ?_⟩
    · change store.indexSequence + 1 = _
      rw [spent.indexes]
    · rw [Store.remember, if_pos (by exact key), now]
      rfl

theorem Store.Spent.cycle {store : Store} {number : Nat}
    (spent : store.Spent number) (bounded : number < 2 ^ 32) :
    ∃ later : Store, later.Spent (number + 1) := by
  obtain ⟨vpc, id, index, live, created⟩ := spent.create bounded
  have createStep : database.Step store (cycleWrite number)
      (Edit.apply store (.createVPC vpc 0)) := created.symm
  have made := spent.reachable.step createStep
  have madeVPCs : (Edit.apply store (.createVPC vpc 0)).vpcs = [vpc] := by
    change store.vpcs ++ [vpc] = [vpc]
    rw [spent.vpcs, List.nil_append]
  have madeEvents : (Edit.apply store (.createVPC vpc 0)).eventSequence =
      3 * number + 1 := by
    change store.eventSequence + 1 = _
    rw [spent.events]
  have inside : vpc ∈ (Edit.apply store (.createVPC vpc 0)).vpcs := by
    rw [madeVPCs]
    exact List.mem_singleton.mpr rfl
  have marks := deleteVPC_marks (database_reachable_valid made) inside live
    spent.subnets (by omega) 0
  have markStep : database.Step _ (.deleteVPC vpc.id 0) _ := marks.symm
  have marked := made.step markStep
  have markedVPCs : (Edit.apply (Edit.apply store (.createVPC vpc 0))
      (.markVPC vpc (Time.unix 0))).vpcs = [vpc.marked] := by
    change replace VPC.id vpc.marked _ = _
    rw [madeVPCs]
    simp [replace, update, VPC.marked]
  have markedInside : vpc.marked ∈ (Edit.apply (Edit.apply store
      (.createVPC vpc 0)) (.markVPC vpc (Time.unix 0))).vpcs := by
    rw [markedVPCs]
    exact List.mem_singleton.mpr rfl
  have markedEvents : (Edit.apply (Edit.apply store (.createVPC vpc 0))
      (.markVPC vpc (Time.unix 0))).eventSequence = 3 * number + 1 + 1 := by
    change (Edit.apply store (.createVPC vpc 0)).eventSequence + 1 = _
    rw [madeEvents]
  have removes := recordTopology_removes (database_reachable_valid marked)
    markedInside rfl spent.subnets (by omega) 0
  have removeStep : database.Step _
      (.recordTopology vpc.marked [] none 0) _ := removes.symm
  refine ⟨_, marked.step removeStep, ?_, ?_, ?_, spent.subnets, ?_⟩
  · change store.indexSequence + 1 = _
    rw [spent.indexes]
    rfl
  · change store.eventSequence + 1 + 1 + 1 = _
    rw [spent.events]
    push_cast
    omega
  · change remove VPC.id _ _ = _
    rw [markedVPCs]
    simp [remove, delete]
  · refine forall_append (fun index member => ?_)
      ⟨number, Nat.lt_succ_self number, id⟩
    obtain ⟨earlier, below, drawn⟩ := spent.drawn index member
    exact ⟨earlier, Nat.lt_succ_of_lt below, drawn⟩

theorem spent_exists (number : Nat) (bounded : number ≤ 2 ^ 32) :
    ∃ store : Store, store.Spent number := by
  induction number with
  | zero =>
      exact ⟨.empty, .initial rfl, rfl, rfl, rfl, rfl,
        fun _ member => by cases member⟩
  | succ number induction =>
      obtain ⟨store, spent⟩ := induction (by omega)
      exact spent.cycle (by omega)

/-- While the sequence is short enough for what is created, every row has a
name, and the pages of a sweep end early only with their context.  A row that
is created later has no name. -/
theorem names_available (store : Store) :
    (roomyDatabase.Reachable store → store.Nameable ∧
      ∀ (world : World) (events : List PassEvent) (pages : Nat)
        (failure : Failure), world.store = store →
      roomy.Executes (VPCController.readPages pages "" [] []) world events
        (.done (.error failure)) → failure = contextCanceled) ∧
    (database.Reachable store →
      (∀ (input : CreateVPCInput) (key : String) (random : List UInt8)
          (now : Time) (vpc : VPC),
        (createVPC input key random now store).result = .ok vpc →
        (createVPC input key random now store).enqueued ≠ [] →
        (vpc.Nameable ↔ store.indexSequence < maxIndex)) ∧
      ∀ (input : RunInstanceInput) (key : String)
          (random eniRandom : List UInt8) (now : Time) (inst : Instance),
        (run input key random eniRandom now store).result = .ok inst →
        (run input key random eniRandom now store).enqueued ≠ [] →
        (inst.eni.Nameable ↔ store.indexSequence + 2 ≤ maxENIIndex)) := by
  constructor
  · intro reachable
    obtain ⟨sound, nameable⟩ := roomyDatabase_reachable reachable
    refine ⟨nameable, ?_⟩
    rintro world events pages failure rfl executes
    have safe : (roomy.contract fun _ => True).Safe _
        (VPCController.readPages pages "" [] []) ⟨world, []⟩ :=
      VPCController.readPages_named pages "" [] [] sound nameable
    obtain ⟨-, ends⟩ := executes.safe safe trivial
    obtain ⟨_, stops⟩ := ends _ rfl
    exact stops failure rfl
  · intro reachable
    have sound := database_reachable_sound reachable
    exact ⟨fun _ _ _ _ _ => createVPC_nameable sound,
      fun _ _ _ _ _ _ => run_nameable sound⟩

theorem firstStore_nameable :
    firstStore.vpcs.length = 1 ∧ firstStore.enis.length = 1 ∧
      firstStore.Nameable := by
  refine ⟨by decide +kernel, by decide +kernel,
    ((names_available firstStore).1 ?_).1⟩
  unfold firstStore
  refine ⟨.empty, firstRequests, rfl, .cons ⟨rfl, ?_⟩ (.cons ⟨rfl, trivial⟩
    (.single ⟨rfl, ?_⟩))⟩
  · change (0 : Int) < maxIndex
    decide
  · change Store.indexSequence _ + 2 ≤ maxENIIndex
    decide +kernel

/-- A sweep reads the only VPC on its first page. -/
theorem only_page {store : Store} (sound : store.Sound) {vpc : VPC}
    (only : store.vpcs = [vpc]) :
    store.listVPCPage defaultWorkspace "" 100 = .ok [vpc] := by
  have member : vpc ∈ store.vpcs := by
    rw [only]
    exact List.mem_singleton.mpr rfl
  have workspace := sound.keyed.vpcs.workspace vpc member
  have identified := sound.topology.vpcIdentified vpc member
  obtain ⟨page, listed⟩ := sound.listVPCPage_total defaultWorkspace "" 100
  have shape := Store.listVPCPage_ok listed
  have positive : "" < vpc.id := by
    by_contra small
    exact identified (Text.eq_empty_of_le (not_lt.mp small))
  have selected : (store.vpcs.filter fun row =>
      row.workspaceID = defaultWorkspace ∧ "" < row.id) = [vpc] := by
    rw [only, List.filter_eq_self]
    intro row inside
    obtain rfl := List.mem_singleton.mp inside
    exact decide_eq_true ⟨workspace, positive⟩
  rw [selected] at shape
  rw [listed, shape]
  rfl

/-- With the indexes up to the last name used, a new VPC is committed, and the
sweep that finds it stops the daemon. -/
theorem lastName_stops :
    ∃ (world : World) (vpc : VPC) (events : List PassEvent),
      database.Reachable world.store ∧ world.store.vpcs = [vpc] ∧
      ¬ vpc.Nameable ∧
      accompanied.Executes (VPCController.sweep 1) world events
        (.done (.error (.other ("VPC " ++ vpc.id ++ " namespace name: " ++
          "VPC namespace index 100000000 is outside 1..99999999")))) := by
  obtain ⟨store, spent⟩ := spent_exists 99999999 (by decide)
  obtain ⟨vpc, -, index, -, created⟩ := spent.create (by decide)
  have createStep : database.Step store (cycleWrite 99999999)
      (Edit.apply store (.createVPC vpc 0)) := created.symm
  have reachable := spent.reachable.step createStep
  have vpcs : (Edit.apply store (.createVPC vpc 0)).vpcs = [vpc] := by
    change store.vpcs ++ [vpc] = [vpc]
    rw [spent.vpcs, List.nil_append]
  generalize Edit.apply store (.createVPC vpc 0) = last at reachable vpcs
  have unnamed : netnsName vpc.shortIndex = .error (.other
      "VPC namespace index 100000000 is outside 1..99999999") := by
    rw [index]
    decide
  have listed := only_page (database_reachable_sound reachable) vpcs
  let world : World := { (Daemon.initial []).world with store := last }
  have reads : world.Behaves (.listVPCPage "") (.ok [vpc]) world :=
    ⟨.plain, congrArg some (Prod.ext listed rfl)⟩
  refine ⟨world, vpc, [⟨world, .listVPCPage "", .ok [vpc], world⟩], reachable,
    vpcs, ?_, .call (accompanied.refl world) reads ?_⟩
  · rintro ⟨name, named⟩
    rw [unnamed] at named
    cases named
  · dsimp only [Program.bind]
    rw [List.mapM_cons, VPCController.sweepName, unnamed]
    exact .stop _ _

end Nephos
