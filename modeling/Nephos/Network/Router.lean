import Nephos.Network.Kernel
import Nephos.Network.SourceChecks

/-!
# The router of a VPC

`reconcileGateways` and `ensurePolicyRules`: what `EnsureVPC` does to the
addresses of the router link and to the policy rules of a namespace.  Both
look at what is there before they change anything, and refuse what they do
not own.
-/

namespace Nephos

open Effects Kernel

def routerLinkName : String := "nxr0"
def gatewayLabel : String := "nxr0:gw"
def localPriority : Nat := 100
def dropPriority : Nat := 32000
def mainRouteTable : Nat := 254

def byteNumber (bytes : List UInt8) : Nat :=
  bytes.foldl (fun number byte => number * 256 + byte.toNat) 0

/-- `netip.AddrFromSlice`. -/
def addrFromSlice (bytes : List UInt8) : Option Addr :=
  if bytes.length = 4 then some (.v4 (BitVec.ofNat 32 (byteNumber bytes)))
  else if bytes.length = 16 then
    some (.v6 (BitVec.ofNat 128 (byteNumber bytes)) "")
  else none

namespace Addr

/-- An IPv4 address that is written as an IPv6 one becomes itself. -/
def unmap : Addr → Addr
  | .v6 ip zone =>
      if ip >>> 32 = 0xffff then .v4 (ip.truncate 32) else .v6 ip zone
  | addr => addr

def asSlice : Addr → List UInt8
  | .zero => []
  | .v4 ip => [24, 16, 8, 0].map fun shift =>
      UInt8.ofNat ((ip >>> shift).toNat % 256)
  | .v6 ip _ => (List.range 16).reverse.map fun place =>
      UInt8.ofNat ((ip >>> (8 * place)).toNat % 256)

end Addr

/-- The text of an address that cannot be parsed. -/
def unparsableText (address : Address) : String :=
  if address.label = "" then "<nil>" else "<nil> " ++ address.label

/-- What `wanted` remembers of a gateway: whether it is there. -/
abbrev Wanted := List (String × Bool)

def Wanted.mark (wanted : Wanted) (key : String) : Wanted :=
  wanted.map fun entry => if entry.1 = key then (key, true) else entry

/-- One address of the first loop of `reconcileGateways`. -/
def reconcileAddress (wanted : Wanted) (address : Address) :
    Kernel.Task Wanted :=
  match address.ipNet with
  | none => return wanted
  | some ipNet =>
      match addrFromSlice ipNet.ip with
      | none => throw ("router has unparsable IPv4 address " ++
          unparsableText address)
      | some addr =>
          let key := addr.unmap.text
          let needed := (wanted.lookup key).isSome
          if needed ∧ address.label ≠ gatewayLabel then
            throw ("gateway address " ++ key ++ " is owned by label " ++
              Text.quote address.label)
          else if address.label ≠ gatewayLabel then
            throw ("unmanaged router address " ++ key ++ " with label " ++
              Text.quote address.label)
          else if needed then
            if ipNet.maskSize ≠ (32, 32) then
              throw ("gateway " ++ key ++ " has unexpected prefix length " ++
                Text.decimal ipNet.maskSize.1)
            else return wanted.mark key
          else do
            perform (.addrDel address)
              ("remove stale gateway " ++ key ++ ": ")
            return wanted

def gatewayAddress (addr : Addr) : Address :=
  { ipNet := some { ip := addr.asSlice, maskSize := (32, 32) }
    label := gatewayLabel }

/-- The second loop of `reconcileGateways`. -/
def addGateways (wanted : Wanted) : List Addr → Kernel.Task Unit
  | [] => return ()
  | addr :: desired => do
      if wanted.lookup addr.text ≠ some true then
        perform (.addrAdd (gatewayAddress addr))
          ("add gateway " ++ addr.text ++ ": ")
      addGateways wanted desired

def reconcileGateways (desired : List Addr) : Kernel.Task Unit := do
  let _ ← perform (.linkByName .router routerLinkName) "find router dummy: "
  let existing ← perform .addrList "list router addresses: "
  let wanted ← existing.foldlM reconcileAddress
    (desired.map fun addr => (addr.text, false))
  addGateways wanted desired

structure KernelPolicyRule where
  priority : Nat
  table : Nat
  action : UInt8
  dst : Option IPNet
  extra : List String
deriving DecidableEq, Repr

/-- `net.CIDRMask` of 32 bits, as `Mask.Size` reads it. -/
def cidrMask (ones : Nat) : Nat × Nat :=
  if ones ≤ 32 then (ones, 32) else (0, 0)

/-- A number in the byte order of the machine. -/
def nativeUint32 (bytes : List UInt8) : Nat := byteNumber bytes.reverse

def extraText (kind : Nat) (value : List UInt8) : String :=
  Text.decimal kind ++ ":" ++ Text.hexEncode value

/-- One attribute of a reply. -/
def readAttribute (message : RuleMessage) (rule : KernelPolicyRule)
    (attr : Nat × List UInt8) : Except String KernelPolicyRule :=
  let (kind, value) := attr
  let unusual := { rule with extra := rule.extra ++ [extraText kind value] }
  match kind with
  | 6 => -- FRA_PRIORITY
      if value.length ≠ 4 then
        throw ("invalid policy-rule priority length " ++
          Text.decimal value.length)
      else return { rule with priority := nativeUint32 value }
  | 15 => -- FRA_TABLE
      if value.length ≠ 4 then
        throw ("invalid policy-rule table length " ++
          Text.decimal value.length)
      else return { rule with table := nativeUint32 value }
  | 1 => -- FRA_DST
      if value.length ≠ 4 then
        throw ("invalid IPv4 policy-rule destination length " ++
          Text.decimal value.length)
      else return { rule with
        dst := some { ip := value, maskSize := cidrMask message.dstLen.toNat } }
  | 14 => -- FRA_SUPPRESS_PREFIXLEN
      if value.length ≠ 4 ∨ nativeUint32 value ≠ 2 ^ 32 - 1 then return unusual
      else return rule
  | 21 => -- FRA_PROTOCOL
      if value ≠ [0] ∧ value ≠ [3] then return unusual else return rule
  | _ => return unusual

def decodeRule (message : RuleMessage) : Except String KernelPolicyRule :=
  if ¬ message.complete then throw "short kernel policy-rule reply"
  else
    match message.attributes with
    | none => throw "decode kernel policy-rule attributes: "
    | some attributes => attributes.foldlM (readAttribute message)
        { priority := 0, table := message.table.toNat
          action := message.action, dst := none, extra := [] }

def listKernelPolicyRules : Kernel.Task (List KernelPolicyRule) := do
  let messages ← perform .ruleList "query IPv4 policy rules: "
  match messages.mapM decodeRule with
  | .ok rules => return rules
  | .error text => throw text

namespace Kernel.IPNet

/-- `IPNet.String`.  Only IPv4 destinations are ever compared. -/
def text (ipNet : IPNet) : String :=
  match addrFromSlice ipNet.ip, ipNet.maskSize with
  | some (.v4 ip), (ones, 32) =>
      (Addr.v4 ip).text ++ "/" ++ Text.decimal ones
  | _, _ => "<nil>"

end Kernel.IPNet

def sameDestination : Option IPNet → Option IPNet → Bool
  | some left, some right => left.text = right.text
  | none, none => true
  | _, _ => false

def destinationText (dst : Option IPNet) : String :=
  (dst.map IPNet.text).getD "<nil>"

/-- The loop of `ensureRule` over the rules that are there: whether one of
them is the wanted rule. -/
def checkRules (want : KernelPolicyRule) :
    Bool → List KernelPolicyRule → Except String Bool
  | found, [] => return found
  | found, rule :: rules =>
      if rule.priority ≠ want.priority then checkRules want found rules
      else if found ∨ rule.table ≠ want.table ∨ rule.action ≠ want.action ∨
          rule.extra ≠ [] ∨ ¬ sameDestination rule.dst want.dst then
        throw ("priority " ++ Text.decimal want.priority ++
          " has unexpected or duplicate policy rule: table=" ++
          Text.decimal rule.table ++ " action=" ++
          Text.decimal rule.action.toNat ++ " destination=" ++
          destinationText rule.dst ++ " extra=[" ++
          " ".intercalate rule.extra ++ "]; want table=" ++
          Text.decimal want.table ++ " action=" ++
          Text.decimal want.action.toNat ++ " destination=" ++
          destinationText want.dst)
      else checkRules want true rules

def nativeBytes (number : Nat) : List UInt8 :=
  [0, 8, 16, 24].map fun shift => UInt8.ofNat (number >>> shift % 256)

/-- How the kernel reports a rule that was added, which has no flags and no
type of service. -/
def KernelPolicyRule.message (rule : KernelPolicyRule) : RuleMessage where
  complete := true
  dstLen := UInt8.ofNat ((rule.dst.map fun dst => dst.maskSize.1).getD 0)
  tos := 0
  table := UInt8.ofNat rule.table
  action := rule.action
  flags := 0
  attributes := some (rule.dst.toList.map (fun dst => (1, dst.ip)) ++
    [(6, nativeBytes rule.priority), (14, [255, 255, 255, 255]),
      (15, nativeBytes rule.table), (21, [3])])
  once := by
    cases rule.dst <;> simp

def ensureRule (want : KernelPolicyRule) : Kernel.Task Unit := do
  let rules ← listKernelPolicyRules
  match checkRules want false rules with
  | .error text => throw text
  | .ok true => return ()
  | .ok false =>
      perform (.ruleAdd want.message)
        ("add priority " ++ Text.decimal want.priority ++ " policy rule: ")

/-- `net.ParseCIDR` of the text of a prefix, which clears the host bits. -/
def destinationOf (cidr : Prefix) : Option IPNet :=
  if cidr.isValid then
    some { ip := cidr.masked.addr.asSlice
           maskSize := (cidr.length, cidr.addr.bitLen) }
  else none

def localRule (destination : IPNet) : KernelPolicyRule :=
  { priority := localPriority, table := mainRouteTable
    action := 1 -- RTN_UNICAST
    dst := some destination, extra := [] }

def dropRule : KernelPolicyRule :=
  { priority := dropPriority, table := mainRouteTable
    action := 6 -- RTN_BLACKHOLE
    dst := none, extra := [] }

def ensurePolicyRules (cidr : Prefix) : Kernel.Task Unit := do
  match destinationOf cidr with
  | none => throw ("parse VPC policy CIDR " ++ cidr.text ++
      ": invalid CIDR address: " ++ cidr.text)
  | some destination =>
      (ensureRule (localRule destination)).mapError ("local VPC rule: " ++ ·)
      (ensureRule dropRule).mapError ("unmatched blackhole rule: " ++ ·)

/-- The part of `EnsureVPC` that follows the links and sysctls. -/
def convergeRouter (vpc : VPC) (gateways : List Addr) : Kernel.Task Unit := do
  (reconcileGateways gateways).mapError
    ("VPC " ++ vpc.id ++ " gateways: " ++ ·)
  (ensurePolicyRules vpc.cidrBlock).mapError
    ("VPC " ++ vpc.id ++ " policy rules: " ++ ·)

end Nephos
