import Nephos.Library.Utf8
import Nephos.Model
import Nephos.NetipParse

/-!
# Request validation and address management

The checks a request passes before and inside its transaction, and the choice
of a private address.
-/

namespace Nephos

/-- An IPv4 block of length 16 to 28 with its host bits cleared. -/
def parseCIDR (raw : String) : Except Failure Prefix :=
  match Netip.parsePrefix raw with
  | none => .error (invalidParameter
      ("invalid CIDR block " ++ Text.quote raw))
  | some cidr =>
      if ¬ cidr.addr.is4 ∨ cidr.bits < 16 ∨ 28 < cidr.bits then
        .error (invalidParameter
          "CIDR block must be IPv4 with a prefix length from /16 to /28")
      else .ok cidr.masked

/-- The trimmed name of 1 to 255 characters without control characters. -/
def validateName (raw : List UInt8) : Except Failure String :=
  if ¬ Utf8.Valid raw then
    .error (invalidParameter "name must be valid UTF-8")
  else
    let name := Text.trimSpace (String.ofList (Utf8.sanitize raw))
    if name.length < 1 ∨ 255 < name.length then
      .error (invalidParameter "name must have 1 to 255 Unicode characters")
    else if name.toList.any Text.isControl then
      .error (invalidParameter "name must not contain control characters")
    else .ok name

/-- Whether two valid IPv4 prefixes share an address. -/
def overlaps (a b : Prefix) : Bool :=
  if ¬ a.isValid ∨ ¬ b.isValid ∨ ¬ a.addr.is4 ∨ ¬ b.addr.is4 then false
  else a.masked.contains b.masked.addr || b.masked.contains a.masked.addr

def validateSubnetRange (vpc subnet : Prefix) : Except Failure Unit :=
  if ¬ vpc.isValid ∨ ¬ subnet.isValid ∨ ¬ vpc.addr.is4 ∨
      ¬ subnet.addr.is4 ∨ subnet.bits < vpc.bits ∨
      ¬ vpc.masked.contains subnet.masked.addr then
    .error (.service
      { code := "InvalidSubnet.Range"
        message := "subnet CIDR must be contained in the VPC CIDR"
        resourceID := "", status := 400 })
  else .ok ()

/-- Overlap is refused only among the siblings in one VPC. -/
def validateSubnetDisjoint (subnet : Prefix) :
    List Prefix → Except Failure Unit
  | [] => .ok ()
  | sibling :: siblings =>
      if overlaps subnet sibling then
        .error (.service
          { code := "InvalidSubnet.Conflict"
            message := "subnet CIDR overlaps an existing subnet"
            resourceID := "", status := 409 })
      else validateSubnetDisjoint subnet siblings

/-- The router address of a subnet, base + 1. -/
def gateway (cidr : Prefix) : Addr :=
  if ¬ cidr.isValid ∨ ¬ cidr.addr.is4 then .zero
  else cidr.masked.addr.next

/-- The first address after the four reserved ones. -/
def firstAssignable (cidr : Prefix) : Addr :=
  if ¬ cidr.isValid ∨ ¬ cidr.addr.is4 then .zero
  else cidr.masked.addr.next.next.next.next

/-- `Addr.As4`, which the callers use for IPv4 addresses only. -/
def Addr.as4 : Addr → BitVec 32
  | .v4 ip => ip
  | _ => 0

/-- Whether an address of the prefix is one of the first four or the last. -/
def reservedAddress (cidr : Prefix) (addr : Addr) : Bool :=
  if ¬ cidr.isValid ∨ ¬ cidr.addr.is4 ∨ cidr.bits < 16 ∨ 28 < cidr.bits ∨
      ¬ addr.is4 ∨ ¬ cidr.contains addr then false
  else
    let offset := addr.as4 - cidr.masked.addr.as4
    let last := (1 : BitVec 32) <<< (32 - cidr.length) - 1
    offset ≤ 3 || offset = last

inductive IPAMError where
  | notCanonical
  | exhausted
deriving DecidableEq, Repr

/-- The loop of `nextPrivateIP`, with a bound on its iterations. -/
def firstFree (broadcast : Addr) (used : List Addr) : Nat → Addr → Option Addr
  | 0, _ => none
  | fuel + 1, ip =>
      if ip = broadcast then none
      else if ip ∈ used then firstFree broadcast used fuel ip.next
      else some ip

/-- The last address of a prefix, with all host bits set. -/
def broadcastOf (cidr : Prefix) : Addr :=
  match cidr.addr with
  | .v4 base => .v4 (base ||| ((1 : BitVec 32) <<< (32 - cidr.length) - 1))
  | _ => .zero

/-- The first free address after the four reserved ones and before the
broadcast address. -/
def nextPrivateIP (cidr : Prefix) (used : List Addr) :
    Except IPAMError Addr :=
  if ¬ cidr.isValid ∨ ¬ cidr.addr.is4 ∨ cidr.bits < 16 ∨ 28 < cidr.bits ∨
      cidr ≠ cidr.masked then .error .notCanonical
  else
    match firstFree (broadcastOf cidr) used (2 ^ (32 - cidr.length))
        cidr.addr.next.next.next.next with
    | some ip => .ok ip
    | none => .error .exhausted

end Nephos
