import Nephos.Network.Router

/-!
# Interfaces of instances

`EnsureENI` and `DeleteENI`: the pair of links between the router of a VPC
and an instance, and the source checks that go with it.  The engine marks
both ends with the identity of the interface and derives the checks from the
markers of all links of the router.
-/

namespace Nephos

open Effects Kernel

/-- `strings.Fields`. -/
def Text.fields (raw : String) : List String :=
  ((raw.toList.splitOnP Text.isSpace).filter (· ≠ [])).map String.ofList

def isMarkerHex (char : Char) : Bool :=
  ('0' ≤ char && char ≤ '9') || ('a' ≤ char && char ≤ 'f')

def markerFront : String := "nephos:eni:"

def eniAlias (eni : ENI) (inode : Nat) : String :=
  markerFront ++ eni.id ++ " " ++ eni.privateIP.text ++ " " ++
    eni.macAddress ++ " " ++ Text.decimal inode

/-- The id of an interface: a prefix and 17 digits. -/
def markerID (field : String) : Except String ID :=
  let id := field.toList.drop markerFront.toList.length
  if markerFront.toList.isPrefixOf field.toList ∧ id.length = 21 ∧
      "eni-".toList.isPrefixOf id ∧ (id.drop 4).all isMarkerHex then
    return String.ofList id
  else throw "invalid ENI ownership ID"

/-- A locally administered unicast address. -/
def markerMAC (field : String) : Except String String :=
  match parseMAC field with
  | none => throw ("decode ENI marker MAC: address " ++ field ++
      ": invalid MAC address")
  | some mac =>
      if mac.length ≠ 6 ∨ (mac.headD 0).toNat % 4 ≠ 2 then
        throw "invalid ENI marker MAC"
      else return hardwareAddrText mac

def parseENIAlias (marker : String) : Except String ENIIdentity :=
  match Text.fields marker with
  | [first, second, third, fourth] => do
      let id ← markerID first
      match Netip.parseAddr second.toList with
      | none => throw ("decode ENI marker IP: ParseAddr(" ++
          Text.quote second ++ "): unable to parse IP")
      | some ip =>
          if ¬ ip.is4 then throw "ENI marker IP is not IPv4"
          else do
            let mac ← markerMAC third
            match parseUint64 fourth with
            | none => throw ("decode ENI namespace inode: " ++
                "strconv.ParseUint: parsing " ++ Text.quote fourth ++ ": " ++
                uint64Error fourth)
            | some inode =>
                if inode = 0 then throw "invalid ENI namespace inode"
                else return { id, ip, mac, namespaceInode := inode }
  | _ => throw ("foreign ENI ownership marker " ++ Text.quote marker)

/-- The loop of `applyENISourceChecks` over the links of the router. -/
def collectRecords : List Link → Except String (List (String × ENIIdentity))
  | [] => return []
  | link :: links =>
      if ¬ "ve".toList.isPrefixOf link.name.toList then collectRecords links
      else if ¬ canonicalENILink link.name ∨ link.kind ≠ "veth" then
        throw ("refusing foreign ENI link " ++ Text.quote link.name)
      else do
        let record ← parseENIAlias link.marker
        let records ← collectRecords links
        return (link.name, record) :: records

/-- The loop over the tables of the ruleset: whether the table of the source
checks is there. -/
def findTable : List TableEntry → Except String Bool
  | [] => return false
  | entry :: entries =>
      if entry.family = "inet" ∧ entry.name = "nephos" then
        if entry.comment ≠ eniPolicyComment then
          throw "refusing foreign nftables table inet nephos"
        else do
          let _ ← findTable entries
          return true
      else findTable entries

def orThrow {α : Type} : Except String α → Kernel.Task α
  | .ok value => return value
  | .error text => throw text

/-- Return with an error in a case that is not allowed. -/
def refuseIf (bad : Prop) [Decidable bad] (text : String) :
    Kernel.Task Unit :=
  if bad then throw text else return ()

def applyENISourceChecks : Kernel.Task Unit := do
  let links ← perform .linkList "list router ENIs: "
  let records ← orThrow (collectRecords links)
  let entries ← perform .nftList "inspect VPC nftables: "
  let existing ← orThrow (findTable entries)
  let script ← orThrow (renderENISourceChecks records existing)
  perform (.nftApply script) "apply ENI source checks: "

/-- What a call of `EnsureENI` works on, after its checks. -/
structure Attachment where
  name : String
  marker : String
  peerName : String
  inode : Nat
  subnetID : ID
  gateway : Addr
  privateIP : Addr
  /-- The prefix length of the subnet. -/
  bits : Nat
  macAddress : String

/-- The checks of `EnsureENI` before it takes the lock. -/
def attachment (vpc : VPC) (subnet : Subnet) (eni : ENI) (inode : Nat) :
    Except String Attachment := do
  if inode = 0 then throw "missing verified instance namespace"
  checkENI vpc subnet eni
  let name ← eniLinkName eni.shortIndex
  match netnsName vpc.shortIndex with
  | .error _ => throw ("VPC namespace index " ++ toString vpc.shortIndex ++
      " is outside 1.." ++ toString maxIndex)
  | .ok _ =>
      let marker := eniAlias eni inode
      let _ ← parseENIAlias marker
      return { name, marker, peerName := "vp" ++ toString eni.shortIndex
               inode, subnetID := subnet.id
               gateway := subnet.cidrBlock.addr.next
               privateIP := eni.privateIP, bits := subnet.cidrBlock.length
               macAddress := eni.macAddress }

/-- How a call ends. -/
inductive Ending where
  | returned (result : Except String Unit)
  /-- A nil pointer was dereferenced. -/
  | panicked
deriving DecidableEq

namespace Attachment

variable (attachment : Attachment)

def side : Side := .inst attachment.inode

def hasGateway (address : Address) : Bool :=
  address.label == gatewayLabel && address.ipNet.any fun ipNet =>
    (addrFromSlice ipNet.ip).map Addr.unmap == some attachment.gateway

def checkGateway : Kernel.Task Unit := do
  let _ ← perform (.linkByName .router routerLinkName)
    "find converged router: "
  let addresses ← perform .addrList ""
  refuseIf (¬ addresses.any attachment.hasGateway)
    ("subnet " ++ attachment.subnetID ++ " gateway is not ready")

/-- The part of `EnsureENI` for a link that is missing, up to the lookup of
the new link. -/
def create : Kernel.Task Link := do
  perform (.enter attachment.side) "enter pinned instance namespace: "
  match ← lookUp attachment.side "eth0" with
  | .ok _ => throw "refusing pre-existing foreign eth0"
  | .error (.failed text) => throw text
  | .error .notFound =>
      perform (.linkAdd attachment.name attachment.marker
        attachment.peerName attachment.inode)
        ("create ENI pair " ++ attachment.name ++ ": ")
      perform (.linkByName .router attachment.name)
        ("find created ENI " ++ attachment.name ++ ": ")

/-- The link of the router, and whether it was created. -/
def findOrCreate : Kernel.Task (Bool × Link) := do
  perform (.enter .router) ""
  attachment.checkGateway
  match ← lookUp .router attachment.name with
  | .error (.failed text) =>
      throw ("find router ENI " ++ attachment.name ++ ": " ++ text)
  | .ok router =>
      refuseIf (router.kind ≠ "veth" ∨ router.marker ≠ attachment.marker)
        ("refusing foreign or mismatched router link " ++ attachment.name)
      return (false, router)
  | .error .notFound =>
      let router ← attachment.create
      return (true, router)

/-- Look up a link that was marked.  An error comes with the value that the
variable `router` has then. -/
def findMarked : Program Op Op.Result (Except (String × Option Link) Link) := do
  let found : Except CallError Link ←
    Program.perform (Op.linkByName .router attachment.name)
  match found with
  | .error error => return .error (error.text, none)
  | .ok link =>
      if link.marker ≠ attachment.marker then
        return .error ("router ENI " ++ attachment.name ++
          " ownership marker did not persist", some link)
      else return .ok link

/-- Mark a new link and look it up again. -/
def mark (router : Link) :
    Program Op Op.Result (Except (String × Option Link) Link) := do
  let set : Except CallError Unit ←
    Program.perform (Op.linkSetAlias .router router attachment.marker)
  match set with
  | .error error => return .error ("mark router ENI " ++ attachment.name ++
      ": " ++ error.text, some router)
  | .ok () => attachment.findMarked

/-- The three settings of the router's end. -/
def eniSysctls : List (String × String) :=
  [("proxy_arp", "1"), ("send_redirects", "0"), ("rp_filter", "0")]

def writeSysctls : List (String × String) → Kernel.Task Unit
  | [] => return ()
  | (key, value) :: rest => do
      perform (.writeSysctl ("/proc/sys/net/ipv4/conf/" ++ attachment.name ++
        "/" ++ key) value)
        ("set router ENI " ++ attachment.name ++ " " ++ key ++ ": ")
      writeSysctls rest

def setENISysctls : Kernel.Task Unit := do
  refuseIf (¬ canonicalENILink attachment.name)
    ("invalid ENI sysctl target " ++ Text.quote attachment.name)
  attachment.writeSysctls eniSysctls

/-- The end of the pair in the namespace of the instance. -/
def findPeer : Kernel.Task Link := do
  match ← lookUp attachment.side "eth0" with
  | .ok peer => return peer
  | .error .notFound =>
      perform (.linkByName attachment.side attachment.peerName)
        "find instance ENI: "
  | .error (.failed text) => throw ("find instance ENI: " ++ text)

def renamePeer (peer : Link) : Kernel.Task Link :=
  if peer.name ≠ "eth0" then do
    perform (.linkSetName attachment.side peer "eth0") "rename instance ENI: "
    perform (.linkByName attachment.side "eth0") ""
  else return peer

/-- The first visit to the namespace of the instance. -/
def configurePeer (created : Bool) (router : Link) : Kernel.Task Unit := do
  perform (.enter attachment.side) "enter pinned instance namespace: "
  let peer ← attachment.findPeer
  refuseIf (peer.kind ≠ "veth" ∨ peer.parentIndex ≠ router.index ∨
    router.parentIndex ≠ peer.index) "refusing unrelated instance link"
  refuseIf (peer.marker ≠ attachment.marker ∧
    (¬ created ∨ peer.marker ≠ "")) "refusing foreign instance ENI"
  perform (.linkSetDown attachment.side peer) ""
  perform (.linkSetAlias attachment.side peer attachment.marker)
    "mark instance ENI: "
  let peer ← attachment.renamePeer peer
  let mac ← orThrow ((parseMAC attachment.macAddress).elim (.error
    ("address " ++ attachment.macAddress ++ ": invalid MAC address")) .ok)
  perform (.linkSetHardwareAddr attachment.side peer mac) "set instance MAC: "
  perform (.addrReplace attachment.side peer
    (attachment.privateIP.text ++ "/" ++ Text.decimal attachment.bits))
    "set instance address: "
  let lo ← perform (.linkByName attachment.side "lo") ""
  perform (.linkSetUp attachment.side lo) ""

/-- The second visit, after the source checks. -/
def activatePeer : Kernel.Task Unit := do
  perform (.enter attachment.side) "enter pinned instance namespace: "
  let peer ← perform (.linkByName attachment.side "eth0") ""
  perform (.linkSetUp attachment.side peer) ""
  perform (.routeReplace attachment.side peer
    (some (attachment.gateway.text ++ "/32")) none)
    "set on-link gateway route: "
  perform (.routeReplace attachment.side peer none
    (some attachment.gateway.text)) "set instance default route: "

/-- The rest of `EnsureENI`, with a link that is marked. -/
def activate (created : Bool) (router : Link) : Kernel.Task Unit := do
  perform (.linkSetDown .router router)
    ("quiesce ENI " ++ attachment.name ++ ": ")
  attachment.setENISysctls
  let nsID ← perform (.netNsIDByFd attachment.inode)
    "verify ENI peer namespace: "
  refuseIf (nsID < 0 ∨ router.netNsID ≠ nsID) ("ENI " ++ attachment.name ++
    " peer is not in pinned instance namespace")
  attachment.configurePeer created router
  -- The source checks are there before either end becomes active.
  applyENISourceChecks
  attachment.activatePeer
  perform (.linkSetUp .router router)
    ("activate ENI " ++ attachment.name ++ ": ")
  perform (.routeReplace .router router
    (some (attachment.privateIP.text ++ "/32")) none) "set ENI host route: "

/-- The deferred function: a link that was created goes again, by the value
that the variable `router` has at the end. -/
def cleanUp (created : Bool) (router : Option Link) (text : String) :
    Program Op Op.Result Ending :=
  match created, router with
  | true, some link => do
      let _ ← Program.perform (Op.linkDel link)
      return .returned (.error text)
  | true, none => return .panicked
  | false, _ => return .returned (.error text)

def ensure : Program Op Op.Result Ending := do
  match ← attachment.findOrCreate.run with
  | .error text => return .returned (.error text)
  | .ok (created, found) =>
      let marked ←
        if created then attachment.mark found else pure (.ok found)
      match marked with
      | .error (text, router) => cleanUp created router text
      | .ok router =>
          match ← (attachment.activate created router).run with
          | .ok () => return .returned (.ok ())
          | .error text => cleanUp created (some router) text

end Attachment

def ensureENI (vpc : VPC) (subnet : Subnet) (eni : ENI) (inode : Nat) :
    Program Op Op.Result Ending :=
  match attachment vpc subnet eni inode with
  | .error text => return .returned (.error text)
  | .ok attachment => attachment.ensure

/-- `DeleteENI`, in the namespace of the VPC. -/
def detach (eni : ENI) (name : String) : Kernel.Task Unit := do
  perform (.enter .router) ""
  match ← lookUp .router name with
  | .error (.failed text) => throw text
  | .error .notFound => applyENISourceChecks
  | .ok link =>
      let record ← orThrow (parseENIAlias link.marker)
      refuseIf (link.kind ≠ "veth" ∨ record.id ≠ eni.id ∨
        record.ip ≠ eni.privateIP ∨ record.mac ≠ eni.macAddress)
        ("refusing foreign router ENI " ++ name)
      perform (.linkDel link) ("delete ENI " ++ name ++ ": ")
      applyENISourceChecks

def deleteENI (vpc : VPC) (eni : ENI) : Kernel.Task Unit := do
  let name ← orThrow (eniLinkName eni.shortIndex)
  match netnsName vpc.shortIndex with
  | .error _ => throw ("VPC namespace index " ++ toString vpc.shortIndex ++
      " is outside 1.." ++ toString maxIndex)
  | .ok _ => detach eni name

end Nephos
