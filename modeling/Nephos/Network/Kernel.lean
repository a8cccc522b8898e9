import Nephos.Library.Machine
import Nephos.Network.Ruleset

/-!
# The kernel's side of the topology engine

The namespaces that the engine works in, as far as the engine reads them back:
the links of the namespace of a VPC and of the namespaces of its instances,
the IPv4 addresses of the router link, the policy rules, and the table of
source checks.  Every netlink request, sysctl and run of `nft` is a call
that the kernel answers or refuses.
-/

namespace Nephos.Kernel

open Effects

structure Link where
  index : Nat
  name : String
  kind : String
  /-- The alias of the link. -/
  marker : String
  up : Bool
  /-- The index of the other end of a pair, in the namespace of that end. -/
  parentIndex : Nat
  /-- The id by which this namespace knows the namespace of the other end. -/
  netNsID : Int
deriving DecidableEq, Repr

/-- The links of a namespace.  The kernel gives each an index and a name of
its own. -/
structure LinkTable where
  links : List Link
  indexes : (links.map Link.index).Nodup
  names : (links.map Link.name).Nodup

namespace LinkTable

def find (table : LinkTable) (name : String) : Option Link :=
  table.links.find? fun link => link.name == name

/-- The kernel's next index. -/
def next (table : LinkTable) : Nat :=
  (table.links.map Link.index).foldr max 0 + 1

theorem index_lt_next {table : LinkTable} {link : Link}
    (member : link ∈ table.links) : link.index < table.next := by
  have bound : ∀ {indexes : List Nat} {index : Nat}, index ∈ indexes →
      index ≤ indexes.foldr max 0 := by
    intro indexes index inside
    induction indexes with
    | nil => cases inside
    | cons head tail induction =>
        rw [List.foldr_cons]
        rcases List.mem_cons.mp inside with rfl | later
        · exact Nat.le_max_left _ _
        · exact Nat.le_trans (induction later) (Nat.le_max_right _ _)
  exact Nat.lt_succ_of_le (bound (List.mem_map_of_mem member))

/-- Change the link with an index, but neither its index nor its name. -/
def update (table : LinkTable) (index : Nat) (change : Link → Link)
    (sameIndex : ∀ link, (change link).index = link.index)
    (sameName : ∀ link, (change link).name = link.name) : LinkTable where
  links := table.links.map fun link =>
    if link.index = index then change link else link
  indexes := by
    have same : (table.links.map fun link =>
        if link.index = index then change link else link).map Link.index =
        table.links.map Link.index := by
      rw [List.map_map]
      apply List.map_congr_left
      intro link _
      simp only [Function.comp_apply]
      split
      · exact sameIndex link
      · rfl
    rw [same]
    exact table.indexes
  names := by
    have same : (table.links.map fun link =>
        if link.index = index then change link else link).map Link.name =
        table.links.map Link.name := by
      rw [List.map_map]
      apply List.map_congr_left
      intro link _
      simp only [Function.comp_apply]
      split
      · exact sameName link
      · rfl
    rw [same]
    exact table.names

def setUp (table : LinkTable) (index : Nat) (up : Bool) : LinkTable :=
  table.update index (fun link => { link with up }) (fun _ => rfl)
    (fun _ => rfl)

def setAlias (table : LinkTable) (index : Nat) (marker : String) :
    LinkTable :=
  table.update index (fun link => { link with marker }) (fun _ => rfl)
    (fun _ => rfl)

def remove (table : LinkTable) (index : Nat) : LinkTable where
  links := table.links.filter fun link => link.index ≠ index
  indexes := table.indexes.sublist (List.filter_sublist.map _)
  names := table.names.sublist (List.filter_sublist.map _)

theorem find_eq_none {table : LinkTable} {name : String} :
    table.find name = none ↔ ∀ link ∈ table.links, link.name ≠ name := by
  simp [find, List.find?_eq_none]

theorem find_mem {table : LinkTable} {name : String} {link : Link}
    (found : table.find name = some link) :
    link ∈ table.links ∧ link.name = name := by
  refine ⟨List.mem_of_find?_eq_some found, ?_⟩
  simpa using List.find?_some found

theorem eq_of_index {table : LinkTable} {left right : Link}
    (leftMember : left ∈ table.links) (rightMember : right ∈ table.links)
    (same : left.index = right.index) : left = right :=
  List.inj_on_of_nodup_map table.indexes leftMember rightMember same

theorem mem_setUp {table : LinkTable} {index : Nat} {up : Bool}
    {link : Link} (member : link ∈ (table.setUp index up).links) :
    ∃ old ∈ table.links,
      link = if old.index = index then { old with up } else old := by
  obtain ⟨old, inside, rfl⟩ := List.mem_map.mp member
  exact ⟨old, inside, rfl⟩

theorem mem_setAlias {table : LinkTable} {index : Nat} {marker : String}
    {link : Link} (member : link ∈ (table.setAlias index marker).links) :
    ∃ old ∈ table.links,
      link = if old.index = index then { old with marker } else old := by
  obtain ⟨old, inside, rfl⟩ := List.mem_map.mp member
  exact ⟨old, inside, rfl⟩

/-- Give a link a name that no link has. -/
def rename (table : LinkTable) (index : Nat) (name : String)
    (free : table.find name = none) : LinkTable where
  links := table.links.map fun link =>
    if link.index = index then { link with name } else link
  indexes := by
    have same : (table.links.map fun link => if link.index = index then
        { link with name } else link).map Link.index =
        table.links.map Link.index := by
      rw [List.map_map]
      apply List.map_congr_left
      intro link _
      simp only [Function.comp_apply]
      split <;> rfl
    rw [same]
    exact table.indexes
  names := by
    have apart := (List.pairwise_map.mp table.indexes).and
      (List.pairwise_map.mp table.names)
    rw [List.map_map, List.Nodup, List.pairwise_map]
    refine apart.imp_of_mem fun {left right} leftMember rightMember both => ?_
    have leftFree := find_eq_none.mp free left leftMember
    have rightFree := find_eq_none.mp free right rightMember
    simp only [Function.comp_apply]
    split
    · rename_i leftIndex
      rw [if_neg fun rightIndex => both.1 (leftIndex.trans rightIndex.symm)]
      exact Ne.symm rightFree
    · split
      · exact leftFree
      · exact both.2

/-- A new link, with an index and a name that no link has. -/
def add (table : LinkTable) (link : Link) (fresh : link.index = table.next)
    (free : table.find link.name = none) : LinkTable where
  links := table.links ++ [link]
  indexes := by
    rw [List.map_append, List.map_singleton, List.nodup_append]
    refine ⟨table.indexes, List.nodup_singleton _, ?_⟩
    intro index old other new
    obtain ⟨existing, member, rfl⟩ := List.mem_map.mp old
    rw [List.mem_singleton.mp new, fresh]
    exact Nat.ne_of_lt (index_lt_next member)
  names := by
    rw [List.map_append, List.map_singleton, List.nodup_append]
    refine ⟨table.names, List.nodup_singleton _, ?_⟩
    intro name old other new
    obtain ⟨existing, member, rfl⟩ := List.mem_map.mp old
    rw [List.mem_singleton.mp new]
    exact find_eq_none.mp free existing member

end LinkTable

/-- A `net.IPNet`, whose mask is only read through `Mask.Size`. -/
structure IPNet where
  ip : List UInt8
  maskSize : Nat × Nat
deriving DecidableEq, Repr

/-- A `netlink.Addr` of the router link. -/
structure Address where
  ipNet : Option IPNet
  label : String
deriving DecidableEq, Repr

/-- A reply to the request for the policy rules: its header and its
attributes, which the kernel reports once each.  A source is reported as an
attribute, so its length in the header is left out. -/
structure RuleMessage where
  /-- The reply has a whole header. -/
  complete : Bool
  dstLen : UInt8
  tos : UInt8
  table : UInt8
  action : UInt8
  flags : UInt32
  /-- The attributes, unless they cannot be decoded. -/
  attributes : Option (List (Nat × List UInt8))
  once : ((attributes.getD []).map Prod.fst).Nodup
deriving DecidableEq, Repr

/-- The namespace of a VPC. -/
structure Router where
  links : LinkTable
  /-- The IPv4 addresses of `nxr0`. -/
  addresses : List Address
  rules : List RuleMessage
  /-- The table `inet nephos`. -/
  table : Option Ruleset.Policy

structure Network where
  router : Router
  /-- The namespaces that the namespace of the VPC has ids for, in the order
  of the ids. -/
  known : List Nat
  /-- The links of the namespaces of the instances, by inode. -/
  instances : Nat → LinkTable

/-- The namespace that a handle is bound to. -/
inductive Side where
  | router
  | inst (inode : Nat)
deriving DecidableEq, Repr

inductive CallError where
  /-- `LinkNotFoundError`. -/
  | notFound
  | failed (text : String)
deriving DecidableEq, Repr

def CallError.text : CallError → String
  | .notFound => "Link not found"
  | .failed text => text

inductive Op where
  /-- Run on a thread of its own in a namespace. -/
  | enter (side : Side)
  | linkByName (side : Side) (name : String)
  | linkList
  | linkAdd (name marker peerName : String) (inode : Nat)
  | linkSetAlias (side : Side) (link : Link) (marker : String)
  | linkSetDown (side : Side) (link : Link)
  | linkSetUp (side : Side) (link : Link)
  | linkSetName (side : Side) (link : Link) (name : String)
  | linkSetHardwareAddr (side : Side) (link : Link) (mac : List UInt8)
  | linkDel (link : Link)
  | addrList
  | addrDel (address : Address)
  | addrAdd (address : Address)
  | addrReplace (side : Side) (link : Link) (address : String)
  | routeReplace (side : Side) (link : Link) (destination : Option String)
      (gateway : Option String)
  | ruleList
  | ruleAdd (rule : RuleMessage)
  | writeSysctl (path value : String)
  | netNsIDByFd (inode : Nat)
  | nftList
  | nftApply (script : String)
deriving DecidableEq, Repr

/-- A table of the ruleset, as it is listed. -/
structure TableEntry where
  family : String
  name : String
  comment : String

abbrev Op.Value : Op → Type
  | .linkByName _ _ => Link
  | .linkList => List Link
  | .addrList => List Address
  | .ruleList => List RuleMessage
  | .netNsIDByFd _ => Int
  | .nftList => List TableEntry
  | _ => Unit

abbrev Op.Result (op : Op) : Type := Except CallError op.Value

namespace Network

variable (network : Network)

def table : Side → LinkTable
  | .router => network.router.links
  | .inst inode => network.instances inode

def withTable (side : Side) (table : LinkTable) : Network :=
  match side with
  | .router => { network with router := { network.router with links := table } }
  | .inst inode =>
      { network with instances := fun other =>
          if other = inode then table else network.instances other }

/-- The id of a namespace, or `-1`. -/
def netNsID (inode : Nat) : Int :=
  match network.known.idxOf? inode with
  | some id => id
  | none => -1

/-- Both ends of a new pair are down. -/
def addPair (keepsAlias : Bool) (name marker peerName : String) (inode : Nat) :
    Except CallError Unit × Network :=
  let peers := network.instances inode
  if free : network.router.links.find name = none then
    if peerFree : peers.find peerName = none then
      let known :=
        if inode ∈ network.known then network.known
        else network.known ++ [inode]
      let joined := { network with known }
      let router : Link :=
        { index := network.router.links.next, name, kind := "veth"
          marker := if keepsAlias then marker else "", up := false
          parentIndex := peers.next, netNsID := joined.netNsID inode }
      let peer : Link :=
        { index := peers.next, name := peerName, kind := "veth", marker := ""
          up := false, parentIndex := network.router.links.next
          netNsID := 0 }
      (.ok (), (joined.withTable .router
        (network.router.links.add router rfl free)).withTable (.inst inode)
          (peers.add peer rfl peerFree))
    else (.error (.failed "file exists"), network)
  else (.error (.failed "file exists"), network)

/-- The namespace that goes by an id. -/
def namespaceOf : Int → Option Nat
  | .ofNat id => network.known[id]?
  | .negSucc _ => none

/-- A link of the router goes with its other end. -/
def removePair (link : Link) : Network :=
  let removed := network.withTable .router
    (network.router.links.remove link.index)
  match network.namespaceOf link.netNsID with
  | some inode => removed.withTable (.inst inode)
      ((network.instances inode).remove link.parentIndex)
  | none => removed

/-- Run the script of a table as one transaction. -/
def applyScript (script : String) : Except CallError Unit × Network :=
  let replace (table : Ruleset.Policy) : Network :=
    { network with router := { network.router with table := some table } }
  match Ruleset.parse script, network.router.table with
  | none, _ => (.error (.failed "syntax error"), network)
  | some policy, none =>
      if policy.replaces then
        (.error (.failed "No such file or directory"), network)
      else (.ok (), replace policy)
  | some policy, some old =>
      if policy.replaces then (.ok (), replace policy)
      else (.ok (), replace { old with
        sources := old.sources ++ policy.sources
        rules := old.rules ++ policy.rules })

/-- A change of the link with an index. -/
def change (side : Side) (link : Link) (edit : LinkTable → LinkTable) :
    Except CallError Unit × Network :=
  if (network.table side).links.any (fun other => other.index == link.index)
  then (.ok (), network.withTable side (edit (network.table side)))
  else (.error (.failed "no such device"), network)

def answer (keepsAlias : Bool) : (op : Op) → op.Result × Network
  | .enter _ | .linkSetHardwareAddr _ _ _ | .addrReplace _ _ _
  | .routeReplace _ _ _ _ | .writeSysctl _ _ => (.ok (), network)
  | .linkByName side name =>
      match (network.table side).find name with
      | some link => (.ok link, network)
      | none => (.error .notFound, network)
  | .linkList => (.ok network.router.links.links, network)
  | .linkAdd name marker peerName inode =>
      network.addPair keepsAlias name marker peerName inode
  | .linkSetAlias side link marker =>
      network.change side link fun table => table.setAlias link.index marker
  | .linkSetDown side link =>
      network.change side link fun table => table.setUp link.index false
  | .linkSetUp side link =>
      network.change side link fun table => table.setUp link.index true
  | .linkSetName side link name =>
      if free : (network.table side).find name = none then
        network.change side link fun _ =>
          (network.table side).rename link.index name free
      else (.error (.failed "file exists"), network)
  | .linkDel link =>
      match network.router.links.links.find? (fun other =>
          other.index == link.index) with
      | some there => (.ok (), network.removePair there)
      | none => (.error (.failed "no such device"), network)
  | .addrList => (.ok network.router.addresses, network)
  | .addrDel address =>
      if address ∈ network.router.addresses then
        (.ok (), { network with router := { network.router with
          addresses := network.router.addresses.erase address } })
      else (.error (.failed "cannot assign requested address"), network)
  | .addrAdd address =>
      if network.router.addresses.any (fun other =>
          other.ipNet == address.ipNet) then
        (.error (.failed "file exists"), network)
      else (.ok (), { network with router := { network.router with
        addresses := network.router.addresses ++ [address] } })
  | .ruleList => (.ok network.router.rules, network)
  | .ruleAdd rule =>
      if rule ∈ network.router.rules then
        (.error (.failed "file exists"), network)
      else (.ok (), { network with router := { network.router with
        rules := network.router.rules ++ [rule] } })
  | .netNsIDByFd inode => (.ok (network.netNsID inode), network)
  | .nftList =>
      (.ok (network.router.table.toList.map fun table =>
        { family := "inet", name := "nephos", comment := table.comment }),
        network)
  | .nftApply script => network.applyScript script

end Network

/-- The kernel.  It may or may not keep the alias of a link that is
created. -/
def machine (keepsAlias : Bool) : Machine Op Op.Result Network where
  answer network := network.answer keepsAlias
  refuse _ := .error (.failed "refused")

/-- A call that fails has no effect. -/
theorem Network.answer_error {network after : Network} {keepsAlias : Bool}
    {op : Op} {error : CallError}
    (answer : network.answer keepsAlias op = (.error error, after)) :
    after = network := by
  cases op
  all_goals
    simp only [Network.answer, Network.addPair, Network.change,
      Network.applyScript] at answer
    repeat' split at answer
    all_goals
      first
        | exact (Prod.mk.inj answer).2.symm
        | cases (Prod.mk.inj answer).1

theorem Network.answer_linkByName {network after : Network}
    {keepsAlias : Bool} {side : Side} {name : String} {link : Link}
    (answer : network.answer keepsAlias (.linkByName side name) =
      (.ok link, after)) :
    (network.table side).find name = some link ∧ after = network := by
  simp only [Network.answer] at answer
  split at answer
  · rename_i found
    cases answer
    exact ⟨found, rfl⟩
  · cases answer

abbrev Task (α : Type) := Effects.Task String Op Op.Result α

/-- A call whose error is returned, with a text in front. -/
def perform (op : Op) (front : String) : Task op.Value := do
  match ← Task.attempt op with
  | .ok value => return value
  | .error error => throw (front ++ error.text)

/-- Look a link up, and see whether it is there. -/
def lookUp (side : Side) (name : String) : Task (Except CallError Link) :=
  Task.attempt (Op.linkByName side name)

theorem uses_perform {allowed : Op → Prop} {op : Op} {front : String}
    (fine : allowed op) : (perform op front).run.Uses allowed := by
  refine Task.uses_bind (Task.uses_attempt fine) fun result => ?_
  cases result with
  | ok value => exact Task.uses_pure value
  | error error => exact Task.uses_throw _

/-- The rule for a call whose error is returned. -/
theorem safe_perform {keepsAlias : Bool} {refusable : Op → Prop}
    {holds : Network → Prop} {op : Op} {front : String}
    {post : Except String op.Value → Network → Prop} {network : Network}
    (answered : ∀ {value after}, holds network →
      network.answer keepsAlias op = (.ok value, after) →
        holds after ∧ post (.ok value) after)
    (failed : ∀ {text}, holds network →
      (refusable op ∨ ∃ error,
        network.answer keepsAlias op = (.error error, network)) →
      post (.error text) network) :
    ((machine keepsAlias).contract refusable holds).Safe post
      (perform op front).run network := by
  refine Machine.safe_call (fun kept => ?_)
    (fun kept within => failed kept (.inl within))
  rcases answer : network.answer keepsAlias op with ⟨result, after⟩
  have same : (machine keepsAlias).answer network op = (result, after) :=
    answer
  rw [same]
  cases result with
  | ok value => exact answered kept answer
  | error error =>
      have unchanged := Network.answer_error answer
      subst unchanged
      exact ⟨kept, failed kept (.inr ⟨error, answer⟩)⟩

/-- A call that only reads, and always has an answer. -/
theorem safe_read {keepsAlias : Bool} {refusable : Op → Prop}
    {holds : Network → Prop} {op : Op} {front : String} {network : Network}
    {value : op.Value}
    (reads : network.answer keepsAlias op = (.ok value, network)) :
    ((machine keepsAlias).contract refusable holds).Safe
      (fun result now => now = network ∧
        (∀ other, result = .ok other → other = value) ∧
        ∀ text, result = .error text → refusable op)
      (perform op front).run network := by
  refine safe_perform (fun held answer => ?_) (fun held refusal => ?_)
  · rw [reads] at answer
    cases answer
    exact ⟨held, rfl, fun _ same => (Except.ok.inj same).symm, nofun⟩
  · refine ⟨rfl, nofun, fun _ _ => ?_⟩
    rcases refusal with within | ⟨error, answer⟩
    · exact within
    · rw [reads] at answer
      cases answer

/-- A link is looked up by its name. -/
theorem safe_linkByName {keepsAlias : Bool} {refusable : Op → Prop}
    {holds : Network → Prop} {side : Side} {name front : String}
    {network : Network} :
    ((machine keepsAlias).contract refusable holds).Safe
      (fun result now => now = network ∧
        (∀ link, result = .ok link →
          (network.table side).find name = some link) ∧
        ∀ text, result = .error text →
          refusable (.linkByName side name) ∨
            (network.table side).find name = none)
      (perform (.linkByName side name) front).run network := by
  refine safe_perform (fun held answer => ?_) (fun _ refusal => ?_)
  · obtain ⟨found, rfl⟩ := Network.answer_linkByName answer
    refine ⟨held, rfl, fun link same => ?_, nofun⟩
    rw [found, Except.ok.inj same]
  · refine ⟨rfl, nofun, fun _ _ => refusal.imp_right ?_⟩
    rintro ⟨error, answer⟩
    simp only [Network.answer] at answer
    split at answer
    · cases (Prod.mk.inj answer).1
    · assumption

/-- The call changes neither a link of the router nor the source checks. -/
def Op.SparesRouter : Op → Prop
  | .linkAdd _ _ _ _ | .linkSetAlias .router _ _ | .linkSetDown .router _
  | .linkSetUp .router _ | .linkSetName .router _ _ | .linkDel _
  | .nftApply _ => False
  | _ => True

theorem Network.change_inst (network : Network) (inode : Nat) (link : Link)
    (edit : LinkTable → LinkTable) :
    (network.change (.inst inode) link edit).2.router = network.router := by
  unfold Network.change
  split <;> rfl

theorem Network.change_ok {network after : Network} {side : Side}
    {link : Link} {edit : LinkTable → LinkTable}
    (changed : network.change side link edit = (.ok (), after)) :
    after = network.withTable side (edit (network.table side)) := by
  unfold Network.change at changed
  split at changed
  · exact (Prod.mk.inj changed).2.symm
  · cases (Prod.mk.inj changed).1

section Answers

variable {network after : Network} {keepsAlias : Bool} {side : Side}
  {link : Link} {value : Unit}

theorem Network.answer_linkSetDown
    (answer : network.answer keepsAlias (.linkSetDown side link) =
      (.ok value, after)) : after = network.withTable side
        ((network.table side).setUp link.index false) := by
  simp only [Network.answer] at answer
  exact Network.change_ok answer

theorem Network.answer_linkSetUp
    (answer : network.answer keepsAlias (.linkSetUp side link) =
      (.ok value, after)) : after = network.withTable side
        ((network.table side).setUp link.index true) := by
  simp only [Network.answer] at answer
  exact Network.change_ok answer

theorem Network.answer_linkSetAlias {marker : String}
    (answer : network.answer keepsAlias (.linkSetAlias side link marker) =
      (.ok value, after)) : after = network.withTable side
        ((network.table side).setAlias link.index marker) := by
  simp only [Network.answer] at answer
  exact Network.change_ok answer

theorem Network.answer_linkSetName {name : String}
    (answer : network.answer keepsAlias (.linkSetName side link name) =
      (.ok value, after)) : ∃ free, after = network.withTable side
        ((network.table side).rename link.index name free) := by
  simp only [Network.answer] at answer
  split at answer
  · rename_i free
    exact ⟨free, Network.change_ok answer⟩
  · cases (Prod.mk.inj answer).1

end Answers

theorem Network.removePair_router (network : Network) (link : Link) :
    (network.removePair link).router = { network.router with
      links := network.router.links.remove link.index } := by
  unfold Network.removePair
  dsimp only
  split <;> rfl

theorem Network.answer_spares (network : Network) (keepsAlias : Bool)
    {op : Op} (spares : op.SparesRouter) :
    (network.answer keepsAlias op).2.router.links = network.router.links ∧
      (network.answer keepsAlias op).2.router.table =
        network.router.table := by
  cases op with
  | linkAdd name marker peerName inode => exact spares.elim
  | linkDel link => exact spares.elim
  | nftApply script => exact spares.elim
  | linkSetAlias side link marker =>
      cases side with
      | router => exact spares.elim
      | inst inode => simp [Network.answer, Network.change_inst]
  | linkSetDown side link =>
      cases side with
      | router => exact spares.elim
      | inst inode => simp [Network.answer, Network.change_inst]
  | linkSetUp side link =>
      cases side with
      | router => exact spares.elim
      | inst inode => simp [Network.answer, Network.change_inst]
  | linkSetName side link name =>
      cases side with
      | router => exact spares.elim
      | inst inode =>
          simp only [Network.answer]
          split
          · simp [Network.change_inst]
          · exact ⟨rfl, rfl⟩
  | linkByName side name =>
      simp only [Network.answer]
      split <;> exact ⟨rfl, rfl⟩
  | addrDel address =>
      simp only [Network.answer]
      split <;> exact ⟨rfl, rfl⟩
  | addrAdd address =>
      simp only [Network.answer]
      split <;> exact ⟨rfl, rfl⟩
  | ruleAdd rule =>
      simp only [Network.answer]
      split <;> exact ⟨rfl, rfl⟩
  | enter | linkList | linkSetHardwareAddr | addrList | addrReplace
  | routeReplace | ruleList | writeSysctl | netNsIDByFd | nftList =>
      exact ⟨rfl, rfl⟩

/-- The call changes no link of an instance. -/
def Op.SparesInstances : Op → Prop
  | .linkAdd _ _ _ _ | .linkSetAlias (.inst _) _ _ | .linkSetDown (.inst _) _
  | .linkSetUp (.inst _) _ | .linkSetName (.inst _) _ _ | .linkDel _ => False
  | _ => True

theorem Network.change_of_router (network : Network) (link : Link)
    (edit : LinkTable → LinkTable) :
    (network.change .router link edit).2.known = network.known ∧
      (network.change .router link edit).2.instances =
        network.instances := by
  unfold Network.change
  split <;> exact ⟨rfl, rfl⟩

theorem Network.answer_sparesInstances (network : Network)
    (keepsAlias : Bool) {op : Op} (spares : op.SparesInstances) :
    (network.answer keepsAlias op).2.known = network.known ∧
      (network.answer keepsAlias op).2.instances = network.instances := by
  cases op with
  | linkAdd name marker peerName inode => exact spares.elim
  | linkDel link => exact spares.elim
  | linkSetAlias side link marker =>
      cases side with
      | router => exact network.change_of_router link _
      | inst inode => exact spares.elim
  | linkSetDown side link =>
      cases side with
      | router => exact network.change_of_router link _
      | inst inode => exact spares.elim
  | linkSetUp side link =>
      cases side with
      | router => exact network.change_of_router link _
      | inst inode => exact spares.elim
  | linkSetName side link name =>
      cases side with
      | router =>
          simp only [Network.answer]
          split
          · exact network.change_of_router link _
          · exact ⟨rfl, rfl⟩
      | inst inode => exact spares.elim
  | nftApply script =>
      simp only [Network.answer, Network.applyScript]
      split
      · exact ⟨rfl, rfl⟩
      · split <;> exact ⟨rfl, rfl⟩
      · split <;> exact ⟨rfl, rfl⟩
  | linkByName side name =>
      simp only [Network.answer]
      split <;> exact ⟨rfl, rfl⟩
  | addrDel address =>
      simp only [Network.answer]
      split <;> exact ⟨rfl, rfl⟩
  | addrAdd address =>
      simp only [Network.answer]
      split <;> exact ⟨rfl, rfl⟩
  | ruleAdd rule =>
      simp only [Network.answer]
      split <;> exact ⟨rfl, rfl⟩
  | enter | linkList | linkSetHardwareAddr | addrList | addrReplace
  | routeReplace | ruleList | writeSysctl | netNsIDByFd | nftList =>
      exact ⟨rfl, rfl⟩

end Nephos.Kernel
