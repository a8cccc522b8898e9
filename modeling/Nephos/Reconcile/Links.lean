import Nephos.Reconcile.Moves
import Nephos.Consistency

/-!
# Router links

The lease of an address is a row of the database, while the link that carries
the address is in the kernel and is put there by the hook.  A link never
outlives the row: the hook plumbs only while the instance controller waits
for it, the row is removed only after the link is, and the place of an
interface never changes.
-/

namespace Nephos

open Effects Transaction

/-- The interface is in the database, and this is its link. -/
def Store.Places (store : Store) (eniID : ID) (link : Link) : Prop :=
  ∃ eni ∈ store.enis, eni.id = eniID ∧
    ∃ subnet ∈ store.subnets, subnet.id = eni.subnetID ∧
      ∃ vpc ∈ store.vpcs, vpc.id = subnet.vpcID ∧ eni.link vpc = link

theorem ENI.Evolves.link {eni later : ENI} {vpc laterVPC : VPC}
    (evolves : eni.Evolves later)
    (sameIndex : laterVPC.shortIndex = vpc.shortIndex) :
    later.link laterVPC = eni.link vpc := by
  rw [ENI.link, ENI.link, evolves.shortIndex, evolves.privateIP, sameIndex]

namespace Store.Places

variable {store later : Store} {eniID otherID : ID} {link other : Link}

theorem unique (sound : store.Sound) (places : store.Places eniID link)
    (again : store.Places eniID other) : link = other := by
  obtain ⟨eni, member, rfl, subnet, subnetMember, parent, vpc, vpcMember,
    owner, rfl⟩ := places
  obtain ⟨eni', member', sameID, subnet', subnetMember', parent', vpc',
    vpcMember', owner', rfl⟩ := again
  obtain rfl := sound.keyed.enis.unique.eq_of_mem member' member sameID
  obtain rfl := sound.keyed.subnets.unique.eq_of_mem subnetMember'
    subnetMember (parent'.trans parent.symm)
  obtain rfl := sound.keyed.vpcs.unique.eq_of_mem vpcMember' vpcMember
    (owner'.trans owner.symm)
  rfl

/-- An interface that is still there has the link it had. -/
theorem kept (sound : store.Sound) (laterSound : later.Sound)
    (kept : RowsKept store later) (places : store.Places eniID link) :
    later.Places eniID link := by
  obtain ⟨eni, member, rfl, subnet, subnetMember, parent, vpc, vpcMember,
    owner, rfl⟩ := places
  obtain ⟨eni', member', sameID⟩ := kept.enis eni member
  have evolved := kept.evolves.eni sound member member' sameID
  obtain ⟨subnet', subnetMember', parent', -⟩ :=
    laterSound.eni_subnet member'
  have subnetEvolved := kept.evolves.subnet sound subnetMember subnetMember'
    (by rw [parent', evolved.subnetID, parent])
  obtain ⟨vpc', vpcMember', owner', -⟩ :=
    laterSound.topology.subnetParent subnet' subnetMember'
  have vpcEvolved := kept.evolves.vpc sound vpcMember vpcMember'
    (by rw [owner', subnetEvolved.vpcID, owner])
  exact ⟨eni', member', sameID, subnet', subnetMember', parent', vpc',
    vpcMember', owner', evolved.link vpcEvolved.shortIndex⟩

/-- Two links of one VPC with one address are one link. -/
theorem same_link (sound : store.Sound) (places : store.Places eniID link)
    (others : store.Places otherID other)
    (sameVPC : link.vpcIndex = other.vpcIndex) (sameIP : link.ip = other.ip) :
    link = other := by
  by_cases sameID : eniID = otherID
  · exact places.unique sound (sameID ▸ others)
  · obtain ⟨eni, member, rfl, subnet, subnetMember, parent, vpc, vpcMember,
      owner, rfl⟩ := places
    obtain ⟨eni', member', rfl, subnet', subnetMember', parent', vpc',
      vpcMember', owner', rfl⟩ := others
    obtain rfl := sound.keyed.eq_of_index sound.keyed.vpcs vpcMember
      vpcMember' sameVPC
    exact absurd sameIP (sound.addresses_distinct member member' sameID
      subnetMember subnetMember' parent parent' (owner.symm.trans owner'))

theorem remove_other {row : InstanceRow} {eni : ENI} {time : Int}
    (places : store.Places eniID link) (different : eniID ≠ eni.id) :
    (Edit.apply store (.removeInstance row eni time)).Places eniID link := by
  obtain ⟨kept, member, rfl, rest⟩ := places
  exact ⟨kept, mem_remove_iff.mpr ⟨member, different⟩, rfl, rest⟩

end Store.Places

/-- Every link belongs to an interface in the database. -/
structure World.LinksOwned (world : World) : Prop where
  sound : world.store.Sound
  owned : ∀ link ∈ world.links, ∃ eniID, world.store.Places eniID link

namespace World.LinksOwned

variable {world after : World}

theorem kept (owned : world.LinksOwned) (sound : after.store.Sound)
    (kept : RowsKept world.store after.store)
    (links : ∀ link ∈ after.links, link ∈ world.links ∨
      ∃ eniID, after.store.Places eniID link) : after.LinksOwned where
  sound
  owned link member := by
    rcases links link member with old | new
    · obtain ⟨eniID, places⟩ := owned.owned link old
      exact ⟨eniID, places.kept owned.sound sound kept⟩
    · exact new

/-- An operation that is not the end of a termination and adds no link. -/
theorem behaves (owned : world.LinksOwned) {op : Op} {result : op.Result}
    (behaves : world.Behaves op result after)
    (unfinished : ∀ snapshot, op ≠ .finishInstanceTermination snapshot)
    (links : ∀ link ∈ after.links, link ∈ world.links) :
    after.LinksOwned := by
  exact owned.kept (behaves.store_within.sound owned.sound)
    (behaves.rowsKept owned.sound unfinished)
    fun link member => .inl (links link member)

end World.LinksOwned

/-- While the instance controller waits for anything but the start of a
container, no link is added. -/
def linkContract : Contract Op Op.Result World where
  invariant := World.LinksOwned
  change op world later :=
    RowsKept world.store later.store ∧
      ((∀ id, op ≠ .answer (.start id)) →
        ∀ link ∈ later.links, link ∈ world.links)
  behaviour := World.Behaves
  outstanding _ _ := True
  refl _ world := ⟨.refl world.store, fun _ _ member => member⟩
  trans first second := ⟨first.1.trans second.1, fun waits link member =>
    first.2 waits link (second.2 waits link member)⟩

theorem Op.OfLaunch.harmless {op : Op} (ofLaunch : op.OfLaunch) :
    linkContract.Harmless op := by
  intro world owned
  refine ⟨trivial, fun result final behaves => ?_⟩
  refine owned.behaves behaves ?_ ?_
  · rintro snapshot rfl
    exact ofLaunch
  · rcases behaves.store_or_surroundings.2 with ⟨call, rfl⟩ | same
    · cases call with
      | ready | ensureImage | inspect =>
          rw [behaves.idle trivial]
          exact fun _ member => member
      | create =>
          rcases behaves.create with rfl | ⟨id, added⟩
          · exact fun _ member => member
          · rw [(World.addContainer_some added).2.2.2]
            exact fun _ member => member
      | start =>
          rcases behaves.start with rfl | rfl <;> exact fun _ member => member
      | delete =>
          rcases behaves.delete with rfl | rfl <;>
            exact fun _ member => member
      | _ => exact ofLaunch.elim
    · rw [same.links]
      exact fun _ member => member

theorem launch_linkSafe {α : Type} {program : Call α} {world : World}
    (uses : program.Uses Op.OfLaunch) :
    linkContract.Keeps program world :=
  .uses (uses.mono fun _ => Op.OfLaunch.harmless)

theorem watch_linkSafe {α : Type} {program : Call α} {world : World}
    (uses : program.Uses Op.OfWatch) :
    linkContract.Keeps program world :=
  launch_linkSafe (uses.mono fun _ => Op.OfWatch.ofLaunch)

/-- The end of a termination, once the link is gone. -/
theorem World.Behaves.finish_owned {world after : World}
    {snapshot : Instance} {result : Except Failure Unit} {link : Link}
    (behaves : world.Behaves (.finishInstanceTermination snapshot) result
      after)
    (owned : world.LinksOwned)
    (places : world.store.Places snapshot.eni.id link)
    (unlinked : link ∉ world.links) : after.LinksOwned := by
  have sound := behaves.store_within.sound owned.sound
  obtain ⟨now, -, rfl⟩ := behaves.finishInstanceTermination
  rcases commit_cases (Nephos.finishInstanceTermination snapshot now)
    world.store with ⟨failure, failed⟩ | ⟨value, final, run, committed⟩
  · rw [Store.withTx, failed] at sound ⊢
    exact owned
  · rw [Store.withTx, committed] at sound ⊢
    refine ⟨sound, fun other member => ?_⟩
    obtain ⟨row, eni, describes, requested, rfl⟩ :=
      finishInstanceTermination_ok owned.sound.keyed run
    obtain ⟨eniID, placed⟩ := owned.owned other member
    refine ⟨eniID, placed.remove_other ?_⟩
    obtain ⟨-, -, -, -, -, -, -, sameENI, -⟩ := describes.same
    rintro rfl
    have sameID : eni.id = snapshot.eni.id := sameENI
    rw [sameID] at placed
    exact unlinked (placed.unique owned.sound places ▸ member)

namespace InstanceController

/-- The interface of an instance that was read from the database. -/
theorem read_eni {store : Store} (sound : store.Sound) {id : ID}
    {inst : Instance}
    (found : store.getInstance defaultWorkspace id = .ok inst) :
    inst.eni ∈ store.enis ∧ inst.subnetID = inst.eni.subnetID := by
  obtain ⟨row, member, eni, eniMember, -, -, owner, -, rfl⟩ :=
    Store.getInstance_ok found
  obtain ⟨other, otherMember, sameOwner, sameSubnet⟩ :=
    sound.topology.instanceENI row member
  obtain rfl := sound.keyed.owners.eq_of_mem otherMember eniMember
    (sameOwner.trans owner.symm)
  exact ⟨eniMember, sameSubnet.symm⟩

/-- The part of `releaseENI` that removes the link and then the row. -/
theorem release_linkSafe {inst : Instance} {vpc : VPC} {origin : Store}
    {world : World} {next : Except Failure Unit → Pass}
    (sound : origin.Sound)
    (places : origin.Places inst.eni.id (inst.eni.link vpc))
    (kept : RowsKept origin world.store)
    (failed : ∀ cause world, linkContract.Keeps
      (fail inst cause) world)
    (continues : ∀ result world, linkContract.Keeps
      (next result) world) :
    linkContract.Keeps
      (external (.deleteENI vpc inst.eni) >>= fun released =>
        match released with
        | .error cause => fail inst cause
        | .ok _ => invoke (.finishInstanceTermination inst) >>= next)
      world := by
  rw [external_bind]
  refine .call (fun world => RowsKept origin world.store) kept
    (fun _ change held => held.trans change.1) (fun _ _ => trivial)
    fun {later result after} owned held behaves => ?_
  obtain ⟨links, fewer, rfl⟩ := behaves.deleteENI
  refine ⟨owned.behaves behaves (fun _ => nofun) fewer, ?_⟩
  refine .call (fun world => RowsKept origin world.store) held
    (fun _ change held => held.trans change.1) (fun _ _ => trivial)
    fun {later result after} owned held behaves => ?_
  obtain ⟨rfl, -⟩ := behaves.answer
  refine ⟨owned, ?_⟩
  cases result with
  | error cause => exact failed cause after
  | ok value =>
      refine .call (fun world => RowsKept origin world.store ∧
          inst.eni.link vpc ∉ world.links) ⟨held, behaves.deletedENI⟩
        (fun _ change held => ⟨held.1.trans change.1,
          fun member => held.2 (change.2 (fun _ => nofun) _ member)⟩)
        (fun _ _ => trivial) fun {later result after} owned held behaves => ?_
      exact ⟨behaves.finish_owned owned
        (places.kept sound owned.sound held.1) held.2, continues _ _⟩

theorem releaseENI_linkSafe {inst : Instance} {origin : Store}
    {world : World} (sound : origin.Sound) (member : inst.eni ∈ origin.enis)
    (sameSubnet : inst.subnetID = inst.eni.subnetID)
    (kept : RowsKept origin world.store) :
    linkContract.Keeps (releaseENI inst) world := by
  refine .call (fun world => RowsKept origin world.store) kept
    (fun _ change held => held.trans change.1) (fun _ _ => trivial)
    fun {middle result final} owned held behaves => ?_
  obtain ⟨rfl, rfl⟩ := behaves.getSubnet
  refine ⟨owned, ?_⟩
  cases subnetFound : final.store.getSubnet inst.workspaceID
      inst.subnetID with
  | error failure => exact watch_linkSafe (fail_uses _ _)
  | ok subnet =>
      obtain ⟨subnetMember, subnetID, -⟩ := Store.getSubnet_ok subnetFound
      have subnetSound := owned.sound
      refine .call (fun world => RowsKept origin world.store ∧
          RowsKept final.store world.store) ⟨held, .refl final.store⟩
        (fun _ change held => ⟨held.1.trans change.1, held.2.trans change.1⟩)
        (fun _ _ => trivial) fun {later result last} owned held behaves => ?_
      obtain ⟨rfl, rfl⟩ := behaves.getVPC
      refine ⟨owned, ?_⟩
      cases vpcFound : last.store.getVPC inst.workspaceID subnet.vpcID with
      | error failure => exact watch_linkSafe (fail_uses _ _)
      | ok vpc =>
          obtain ⟨vpcMember, vpcID, -⟩ := Store.getVPC_ok vpcFound
          -- the interface is still where it was when the instance was read
          have places : last.store.Places inst.eni.id (inst.eni.link vpc) := by
            obtain ⟨eni, eniMember, sameID⟩ := held.1.enis _ member
            have evolved := held.1.evolves.eni sound member eniMember sameID
            obtain ⟨parent, parentMember, parentID, -⟩ :=
              owned.sound.eni_subnet eniMember
            have parentEvolved := held.2.evolves.subnet subnetSound
              subnetMember parentMember
              (by rw [parentID, evolved.subnetID, subnetID, sameSubnet])
            exact ⟨eni, eniMember, sameID, parent, parentMember, parentID,
              vpc, vpcMember, by rw [vpcID, parentEvolved.vpcID],
              evolved.link rfl⟩
          refine release_linkSafe owned.sound places (.refl _)
            (fun cause _ => watch_linkSafe (fail_uses inst cause)) ?_
          intro result world
          apply watch_linkSafe
          split
          · exact uses_invoke trivial fun _ => trivial
          · trivial
          · exact uses_invoke trivial fun _ => trivial

theorem terminate_linkSafe {inst : Instance} {origin : Store}
    {world : World} (sound : origin.Sound) (member : inst.eni ∈ origin.enis)
    (sameSubnet : inst.subnetID = inst.eni.subnetID)
    (kept : RowsKept origin world.store) :
    linkContract.Keeps (terminate inst) world := by
  unfold terminate
  split
  · rw [external_bind]
    refine .call (fun world => RowsKept origin world.store) kept
      (fun _ change held => held.trans change.1) (fun _ _ => trivial)
      fun {later result after} owned held behaves => ?_
    have deletes : Op.OfLaunch (.act (.delete inst.runtimeID)) := trivial
    refine ⟨(deletes.harmless _ owned).2 _ _ behaves, ?_⟩
    have same := behaves.act_store
    refine .call (fun world => RowsKept origin world.store) (same ▸ held)
      (fun _ change held => held.trans change.1) (fun _ _ => trivial)
      fun {later result after} owned held behaves => ?_
    obtain ⟨rfl, -⟩ := behaves.answer
    refine ⟨owned, ?_⟩
    cases result with
    | error cause => exact watch_linkSafe (fail_uses _ _)
    | ok value => exact releaseENI_linkSafe sound member sameSubnet held
  · exact releaseENI_linkSafe sound member sameSubnet kept

theorem reconcileLocked_linkSafe (id : ID) (world : World) :
    linkContract.Keeps (reconcileLocked id) world := by
  rw [reconcileLocked, invoke_bind]
  refine .harmless (Op.OfLaunch.harmless trivial)
    fun {later result after} owned behaves _ => ?_
  obtain ⟨rfl, rfl⟩ := behaves.getInstance
  split
  · exact watch_linkSafe (uses_invoke trivial fun _ => trivial)
  · trivial
  · rename_i inst found
    split
    · obtain ⟨member, sameSubnet⟩ := read_eni owned.sound found
      exact terminate_linkSafe owned.sound member sameSubnet (.refl _)
    · exact launch_linkSafe (converge_uses _ _)

theorem reconcilePage_linkSafe (page : List Instance) {world : World}
    (owned : world.LinksOwned) :
    linkContract.Keeps (reconcilePage page) world := by
  induction page generalizing world with
  | nil => trivial
  | cons inst page induction =>
      refine (reconcileLocked_linkSafe inst.id world).bind owned
        fun {result later} owned _ => ?_
      split
      · trivial
      · exact induction owned

theorem listing_harmless (afterID : ID) :
    linkContract.Harmless (.listInstancePage afterID) := by
  intro world owned
  refine ⟨trivial, fun result final behaves => ?_⟩
  rw [behaves.listInstancePage.2]
  exact owned

theorem sweep_linkSafe (pages : Nat) (afterID : ID) (world : World) :
    linkContract.Keeps (sweep pages afterID) world := by
  induction pages generalizing afterID world with
  | zero => trivial
  | succ pages induction =>
      rw [sweep, invoke_bind]
      refine .harmless (listing_harmless afterID)
        fun {later result after} _ _ owned => ?_
      split
      · trivial
      · trivial
      · refine (reconcilePage_linkSafe _ owned).bind owned
          fun {result later} _ _ => ?_
        split
        · trivial
        · exact induction _ _

end InstanceController

theorem InstancePass.linkSafe {label : Label} {pass : Pass}
    (isPass : InstancePass label pass)
    (world : World) : linkContract.Keeps pass world := by
  cases isPass with
  | reconcile id => exact InstanceController.reconcileLocked_linkSafe id world
  | sweep pages => exact InstanceController.sweep_linkSafe pages "" world

/-- Whatever the others do meanwhile, the hook adds only links of interfaces
that are in the database. -/
def plumbContract : Contract Op Op.Result World where
  invariant := World.LinksOwned
  change _ world later := RowsKept world.store later.store
  behaviour := World.Behaves
  outstanding op world :=
    ∀ link ∈ op.link, ∃ eniID, world.store.Places eniID link
  refl _ world := .refl world.store
  trans first second := first.trans second

/-- A resource that is wanted and up. -/
structure Subnet.Up (subnet : Subnet) : Prop where
  wanted : subnet.deletionRequested = false
  available : subnet.state = .available
  observed : subnet.observedGeneration = subnet.generation

structure VPC.Up (vpc : VPC) : Prop where
  wanted : vpc.deletionRequested = false
  available : vpc.state = .available
  observed : vpc.observedGeneration = vpc.generation

/-- The rows that the hook's handler takes for the identity of a container. -/
structure Plumbable (store : Store) (instanceID : ID)
    (containerID : RuntimeID) (inst : Instance) (subnet : Subnet)
    (vpc : VPC) : Prop where
  instFound : store.getInstance defaultWorkspace instanceID = .ok inst
  subnetFound : store.getSubnet defaultWorkspace inst.subnetID = .ok subnet
  vpcFound : store.getVPC defaultWorkspace subnet.vpcID = .ok vpc
  wanted : inst.deletionRequested = false
  container : inst.runtimeID = containerID
  subnetUp : subnet.Up
  vpcUp : vpc.Up

theorem plumbingTx_ok {store final : Store} {instanceID : ID}
    {containerID : RuntimeID} {inst : Instance} {subnet : Subnet} {vpc : VPC}
    (run : plumbingTx instanceID containerID store =
      .ok ((inst, subnet, vpc), final)) :
    Plumbable store instanceID containerID inst subnet vpc := by
  unfold plumbingTx at run
  rw [get_bind_ok_iff] at run
  cases instFound : store.getInstance defaultWorkspace instanceID with
  | error failure => simp [instFound] at run
  | ok found =>
      simp only [instFound, ite_ok_iff, bind_ok_iff, throw_ok_iff, false_and,
        exists_false, and_false, false_or, not_or, ne_eq, not_not,
        Bool.not_eq_true] at run
      obtain ⟨⟨wanted, container⟩, _, current, read, run⟩ := run
      obtain ⟨rfl, rfl⟩ := get_ok_iff.mp read
      cases subnetFound : current.getSubnet defaultWorkspace
          found.subnetID with
      | error failure => simp [subnetFound] at run
      | ok parent =>
          simp only [subnetFound] at run
          rw [get_bind_ok_iff] at run
          cases vpcFound : current.getVPC defaultWorkspace parent.vpcID with
          | error failure => simp [vpcFound] at run
          | ok owner =>
              simp only [vpcFound, ite_ok_iff, bind_ok_iff, throw_ok_iff,
                false_and, exists_false, and_false, false_or, pure_ok_iff,
                not_or, not_not, Bool.not_eq_true] at run
              obtain ⟨⟨subnetWanted, vpcWanted, subnetAvailable, vpcAvailable,
                subnetObserved, vpcObserved⟩, same, -⟩ := run
              cases same
              exact ⟨instFound, subnetFound, vpcFound, wanted, container,
                ⟨subnetWanted, subnetAvailable, subnetObserved⟩,
                ⟨vpcWanted, vpcAvailable, vpcObserved⟩⟩

theorem World.Behaves.loaded {world after : World} {instanceID : ID}
    {containerID : RuntimeID} {inst : Instance} {subnet : Subnet} {vpc : VPC}
    (behaves : world.Behaves (.loadPlumbing instanceID containerID)
      (.ok (inst, subnet, vpc)) after) :
    Plumbable world.store instanceID containerID inst subnet vpc := by
  obtain ⟨loaded, -⟩ := behaves.loadPlumbing
  rcases commit_cases (plumbingTx instanceID containerID) world.store with
    ⟨failure, failed⟩ | ⟨value, final, run, committed⟩
  · rw [Store.withTx, failed] at loaded
    cases loaded
  · rw [Store.withTx, committed] at loaded
    cases loaded
    exact plumbingTx_ok run

/-- What the hook has read is where the interface is. -/
theorem World.Behaves.loaded_places {world after : World} {instanceID : ID}
    {containerID : RuntimeID} {inst : Instance} {subnet : Subnet} {vpc : VPC}
    (behaves : world.Behaves (.loadPlumbing instanceID containerID)
      (.ok (inst, subnet, vpc)) after) (sound : world.store.Sound) :
    world.store.Places inst.eni.id (inst.eni.link vpc) := by
  have loaded := behaves.loaded
  obtain ⟨member, sameSubnet⟩ :=
    InstanceController.read_eni sound loaded.instFound
  obtain ⟨subnetMember, subnetID, -⟩ := Store.getSubnet_ok loaded.subnetFound
  obtain ⟨vpcMember, vpcID, -⟩ := Store.getVPC_ok loaded.vpcFound
  exact ⟨inst.eni, member, rfl, subnet, subnetMember,
    subnetID.trans sameSubnet, vpc, vpcMember, vpcID, rfl⟩

/-- A call of the hook that adds no link that is not in the database. -/
theorem World.LinksOwned.plumbs {world after : World} {op : Op}
    {result : op.Result} (owned : world.LinksOwned)
    (behaves : world.Behaves op result after) (ofPlumb : op.OfPlumb)
    (places : ∀ link ∈ op.link, ∃ eniID, world.store.Places eniID link) :
    after.LinksOwned := by
  obtain ⟨links, rfl, added⟩ := behaves.plumbs ofPlumb
  exact owned.kept owned.sound (.refl _) fun link member =>
    (added link member).imp_right (places link)

theorem plumbContract_harmless {op : Op} (ofPlumb : op.OfPlumb)
    (none : op.link = none) : plumbContract.Harmless op := by
  intro world owned
  have places : ∀ link ∈ op.link,
      ∃ eniID, world.store.Places eniID link := by
    simp [none]
  exact ⟨places, fun result final behaves =>
    owned.plumbs behaves ofPlumb places⟩

/-- The rule for a call of the hook before it has added its link. -/
theorem plumb_call {op : Op} {next : op.Result → Call Nat} {origin : Store}
    {world : World} (ofPlumb : op.OfPlumb)
    (places : ∀ later : Store, later.Sound → RowsKept origin later →
      ∀ link ∈ op.link, ∃ eniID, later.Places eniID link)
    (kept : RowsKept origin world.store)
    (step : ∀ {result final}, RowsKept origin final.store →
      plumbContract.Keeps (next result) final) :
    plumbContract.Keeps (.call op next) world := by
  refine .call (fun world => RowsKept origin world.store) kept
    (fun _ change held => held.trans change)
    (fun owned held => places _ owned.sound held)
    fun {later result final} owned held behaves => ?_
  refine ⟨owned.plumbs behaves ofPlumb (places _ owned.sound held),
    step ?_⟩
  obtain ⟨links, rfl, -⟩ := behaves.plumbs ofPlumb
  exact held

theorem plumb_safe (request : PlumbRequest) (world : World) :
    plumbContract.Keeps (plumb request) world := by
  rw [plumb, invoke_bind]
  refine .harmless (plumbContract_harmless trivial rfl)
    fun {later result after} owned behaves _ => ?_
  cases result with
  | error failure => trivial
  | ok loaded =>
      obtain ⟨inst, subnet, vpc⟩ := loaded
      have places := behaves.loaded_places owned.sound
      have sound := owned.sound
      obtain ⟨-, rfl⟩ := behaves.loadPlumbing
      refine plumb_call trivial (fun _ _ _ _ => nofun) (.refl _)
        fun {_ opening} kept => ?_
      refine plumb_call trivial (fun _ _ _ _ => nofun) kept
        fun {opened answered} kept => ?_
      cases opened with
      | error cause => trivial
      | ok value =>
          refine plumb_call trivial ?_ kept fun {_ ensuring} _ => ?_
          · rintro later laterSound laterKept link ⟨⟩
            exact ⟨_, places.kept sound laterSound laterKept⟩
          · apply Contract.Safe.uses
            refine ⟨plumbContract_harmless trivial rfl, fun ensured => ?_⟩
            cases ensured with
            | error cause => trivial
            | ok value =>
                refine uses_invoke (plumbContract_harmless trivial rfl)
                  fun current => ?_
                split
                · trivial
                · split <;> trivial

structure Daemon.LinkSafe (daemon : Daemon) : Prop where
  owned : daemon.world.LinksOwned
  instanceWork : ∀ thread ∈ daemon.instanceWork,
    linkContract.Keeps thread daemon.world
  plumbing : ∀ thread ∈ daemon.plumbing,
    plumbContract.Keeps thread daemon.world

namespace Daemon.LinkSafe

variable {daemon next : Daemon} {after : World}

theorem initial (namespaces : List String) :
    (Daemon.initial namespaces).LinkSafe where
  owned := ⟨(Formed.initial namespaces).sound,
    fun _ member => by cases member⟩
  instanceWork _ working := by cases working
  plumbing _ working := by cases working

/-- A move of a party that is neither the instance controller nor the
hook. -/
theorem aside (safe : daemon.LinkSafe)
    (store : daemon.world.store.Within Write.Foreign after.store)
    (links : ∀ link ∈ after.links, link ∈ daemon.world.links) :
    Daemon.LinkSafe { daemon with world := after } := by
  have kept := store.rowsKept safe.owned.sound fun _ _ => id
  exact
    { owned := safe.owned.kept (store.sound safe.owned.sound) kept
        fun link member => .inl (links link member)
      instanceWork := fun thread working =>
        (safe.instanceWork thread working).persist
          fun _ _ => ⟨kept, fun _ => links⟩
      plumbing := fun thread working =>
        (safe.plumbing thread working).persist fun _ _ => kept }

theorem onQueue (safe : daemon.LinkSafe) (controller : Controller)
    (change : Queue → Queue) :
    Daemon.LinkSafe { daemon with
      world := daemon.world.onQueue controller change } :=
  have spares := World.SparesInstances.onQueue daemon.world controller change
  safe.aside spares.store spares.links

/-- While the hook runs, the instance controller waits for a start. -/
theorem waits (formed : daemon.Formed) (busy : daemon.plumbing ≠ [])
    {thread : Pass} (working : thread ∈ daemon.instanceWork) :
    ∃ id, thread.outstanding = some (.answer (.start id)) := by
  obtain ⟨other, same, starting⟩ := formed.hooked busy
  obtain rfl := Option.mem_unique same working
  unfold returnsFromStart at starting
  split at starting
  · exact ⟨_, rfl⟩
  · cases starting

/-- A call of the hook. -/
theorem plumbCall (safe : daemon.LinkSafe) (formed : daemon.Formed)
    {front back : List (Call Nat)} {op : Op} {next : op.Result → Call Nat}
    {result : op.Result}
    (working : daemon.plumbing = front ++ .call op next :: back)
    (behaves : daemon.world.Behaves op result after) :
    Daemon.LinkSafe { daemon with
      world := after, plumbing := front ++ next result :: back } := by
  have uses := formed.plumbing
  have threads := safe.plumbing
  rw [working] at uses threads
  simp only [List.forall_mem_append, List.forall_mem_cons] at uses threads
  obtain ⟨owned, thread⟩ := threads.2.1.complete safe.owned behaves
  obtain ⟨links, rfl, -⟩ := behaves.plumbs uses.2.1.1
  refine ⟨owned, fun thread working => ?_, ?_⟩
  · obtain ⟨id, outstanding⟩ := waits formed (by simp [‹daemon.plumbing = _›])
      working
    refine (safe.instanceWork thread working).persist fun op same => ?_
    rw [outstanding] at same
    cases same
    exact ⟨.refl _, fun never => absurd rfl (never id)⟩
  · simp only [List.forall_mem_append, List.forall_mem_cons]
    exact ⟨fun other member => (threads.1 other member).persist
        fun _ _ => .refl _, thread,
      fun other member => (threads.2.2 other member).persist
        fun _ _ => .refl _⟩

/-- A call of the instance controller. -/
theorem instanceCall (safe : daemon.LinkSafe) (formed : daemon.Formed)
    {op : Op} {next : op.Result → Pass} {result : op.Result}
    (working : daemon.instanceWork = some (.call op next))
    (hooked : returnsFromStart (.call op next) = true →
      daemon.plumbing = [])
    (behaves : daemon.world.Behaves op result after) :
    Daemon.LinkSafe { daemon with
      world := after, instanceWork := some (next result) } := by
  obtain ⟨owned, thread⟩ :=
    (safe.instanceWork _ working).complete safe.owned behaves
  have idle : daemon.plumbing = [] := by
    by_contra busy
    obtain ⟨other, same, starting⟩ := formed.hooked busy
    obtain rfl := Option.mem_unique same working
    exact busy (hooked starting)
  refine ⟨owned, ?_, ?_⟩
  · rintro _ ⟨⟩
    exact thread
  · simp [idle]

theorem step {label : Label} (safe : daemon.LinkSafe)
    (formed : daemon.Formed) (moves : daemon.Moves label next) :
    next.LinkSafe := by
  cases moves with
  | environment changes =>
      obtain ⟨store, links⟩ := changes.sparesLinks
      exact safe.aside store fun link member => links ▸ member
  | beginInstance change idle isPass =>
      refine { safe.onQueue .inst change with instanceWork := ?_ }
      rintro _ ⟨⟩
      exact isPass.linkSafe _
  | beginVPC change idle isPass =>
      exact { safe.onQueue .vpc change with }
  | @plumb request thread working starting =>
      exact { safe with
        plumbing := forall_append safe.plumbing (plumb_safe request _) }
  | instanceDone working =>
      refine { safe with instanceWork := ?_ }
      rintro _ ⟨⟩
  | instanceCall working hooked runs =>
      exact safe.instanceCall formed working hooked ⟨_, runs⟩
  | vpcDone working => exact { safe with }
  | @vpcCall choice op next result after working runs =>
      have behaves : World.Behaves _ op result after := ⟨choice, runs⟩
      have spares := behaves.sparesInstances (formed.vpcWork _ working).1
      exact { safe.aside spares.store spares.links with }
  | @plumbDone index choice front back value working =>
      have threads := safe.plumbing
      rw [working] at threads
      simp only [List.forall_mem_append, List.forall_mem_cons] at threads
      exact { safe with
        plumbing := List.forall_mem_append.mpr ⟨threads.1, threads.2.2⟩ }
  | plumbCall working runs => exact safe.plumbCall formed working ⟨_, runs⟩
  | crash =>
      exact
        { owned := ⟨safe.owned.sound, safe.owned.owned⟩
          instanceWork := fun _ working => by cases working
          plumbing := fun _ working => by cases working }

theorem of_reachable (reachable : system.Reachable daemon) :
    daemon.LinkSafe := by
  have both : daemon.Formed ∧ daemon.LinkSafe := by
    apply reachable.invariant (fun daemon => daemon.Formed ∧ daemon.LinkSafe)
    · rintro daemon ⟨namespaces, -, rfl⟩
      exact ⟨.initial namespaces, .initial namespaces⟩
    · rintro daemon label next ⟨formed, safe⟩ stepped
      have moves := Moves.of_step stepped
      exact ⟨formed.step moves, safe.step formed moves⟩
  exact both.2

end Daemon.LinkSafe

/-- Whatever fails and wherever the daemon crashes, every router link belongs
to an interface that is in the database, in a subnet of the VPC of its
namespace; so no address of a VPC is live twice. -/
theorem system_links_owned {daemon : Daemon}
    (reachable : system.Reachable daemon) :
    (∀ link ∈ daemon.world.links,
      ∃ eni ∈ daemon.world.store.enis, ∃ subnet ∈ daemon.world.store.subnets,
        ∃ vpc ∈ daemon.world.store.vpcs, subnet.id = eni.subnetID ∧
          vpc.id = subnet.vpcID ∧ link.vpcIndex = vpc.shortIndex ∧
          link.eniIndex = eni.shortIndex ∧ link.ip = eni.privateIP) ∧
    ∀ link ∈ daemon.world.links, ∀ other ∈ daemon.world.links,
      link.vpcIndex = other.vpcIndex → link.ip = other.ip →
        link = other := by
  have owned := (Daemon.LinkSafe.of_reachable reachable).owned
  refine ⟨fun link member => ?_, fun link member other otherMember => ?_⟩
  · obtain ⟨_, eni, eniMember, -, subnet, subnetMember, parent, vpc,
      vpcMember, owner, rfl⟩ := owned.owned link member
    exact ⟨eni, eniMember, subnet, subnetMember, vpc, vpcMember, parent,
      owner, rfl, rfl, rfl⟩
  · obtain ⟨_, places⟩ := owned.owned link member
    obtain ⟨_, others⟩ := owned.owned other otherMember
    exact places.same_link owned.sound others

theorem firstPlumb_links_owned :
    ∃ daemon, (Daemon.initial []).run firstPlumb = some daemon ∧
      daemon.world.links ≠ [] ∧
      ∀ link ∈ daemon.world.links, ∀ other ∈ daemon.world.links,
        link.vpcIndex = other.vpcIndex → link.ip = other.ip →
          link = other := by
  have runs : ((Daemon.initial []).run firstPlumb).any
      (fun daemon => decide (daemon.world.links ≠ [])) = true := by
    decide +kernel
  obtain ⟨daemon, ran, linked⟩ := (Option.any_eq_true _ _).mp runs
  exact ⟨daemon, ran, of_decide_eq_true linked,
    (system_links_owned (Daemon.run_reachable ran)).2⟩

end Nephos
