import Nephos.Library.Base64
import Nephos.Store.Queries

/-!
# Lists

The three lists return their resources page by page.  The token of a page
names the last resource on it together with the kind of the list.
-/

namespace Nephos

def pageSize (limit : Int) : Except Failure Nat :=
  if limit = 0 then .ok 50
  else if limit < 1 ∨ 100 < limit then
    .error (invalidParameter "limit must be from 1 to 100")
  else .ok limit.toNat

def encodePageToken (kind lastID : String) : String :=
  String.ofList (Base64.encode (Text.utf8 (kind ++ ":" ++ lastID)))

/-- A digit or a letter from `a` to `f`. -/
def isLowerHex (byte : UInt8) : Bool :=
  (48 ≤ byte && byte ≤ 57) || (97 ≤ byte && byte ≤ 102)

def pageIDPrefix (kind : String) : String :=
  if kind = "instance" then "i-" else kind ++ "-"

/-- The check of an identity, which may be any bytes. -/
def validPageID (kind : String) (id : List UInt8) : Bool :=
  let marker := Text.utf8 (pageIDPrefix kind)
  marker.isPrefixOf id && id.length == marker.length + 17 &&
    (id.drop marker.length).all isLowerHex

def decodePageToken (kind token : String) : Except Failure ID :=
  if token = "" then .ok ""
  else
    match Base64.decode token.toList with
    | none => .error (invalidParameter "invalid page_token")
    | some value =>
        let marker := Text.utf8 (kind ++ ":")
        if ¬ marker.isPrefixOf value then
          .error (invalidParameter
            "page_token belongs to a different resource type")
        else
          let id := value.drop marker.length
          if ¬ validPageID kind id then
            .error (invalidParameter "invalid page_token")
          else .ok (String.ofList (id.map fun byte => Char.ofNat byte.toNat))

/-- One page of a list: a row more than the page has is fetched, which tells
whether the page is the last one. -/
def listPage {Item : Type} (kind : String) (identity : Item → ID)
    (fetch : ID → Nat → Except Failure (List Item)) (limit : Int)
    (token : String) : Except Failure (List Item × String) := do
  let size ← pageSize limit
  let afterID ← decodePageToken kind token
  let items ← fetch afterID (size + 1)
  if short : items.length ≤ size then return (items, "")
  else
    let last := items.get ⟨size - 1, by omega⟩
    return (items.take size, encodePageToken kind (identity last))

def listVPCs (store : Store) : Int → String →
    Except Failure (List VPC × String) :=
  listPage "vpc" VPC.id (store.listVPCPage defaultWorkspace)

def listSubnets (store : Store) : Int → String →
    Except Failure (List Subnet × String) :=
  listPage "subnet" Subnet.id (store.listSubnetPage defaultWorkspace)

/-- `Instances.List`. -/
def listInstances (store : Store) : Int → String →
    Except Failure (List Instance × String) :=
  listPage "instance" Instance.id (store.listInstancePage defaultWorkspace)

end Nephos
