import Mathlib.Data.List.Sort
import Mathlib.Data.String.Basic
import Nephos.Library.Transaction
import Nephos.Service.Addressing

/-!
# The checks of the topology engine

Before it touches the kernel the engine checks the rows it is given once
more, with code of its own: `desiredGateways` for a VPC and its subnets, and
the address checks of `EnsureENI` for an interface.  It also derives the
names of the kernel's links and namespaces from the short indexes.
-/

namespace Nephos

open Transaction

namespace Addr

def number : Addr → Nat
  | .zero => 0
  | .v4 ip => ip.toNat
  | .v6 ip _ => ip.toNat

def zone : Addr → String
  | .v6 _ zone => zone
  | _ => ""

/-- `Addr.Compare`: by family, then by number, then by zone. -/
def compare : Addr → Addr → Ordering :=
  compareLex (compareOn bitLen) (compareLex (compareOn number) (compareOn zone))

/-- The order in which addresses are sorted. -/
def Le (left right : Addr) : Prop := (left.compare right).isLE = true

instance : DecidableRel Le := fun left right =>
  inferInstanceAs (Decidable ((left.compare right).isLE = true))

instance : Std.TransCmp compare :=
  inferInstanceAs (Std.TransCmp (compareLex _ _))

instance : IsTrans Addr Le := ⟨fun _ _ _ => Std.TransCmp.isLE_trans⟩

instance : Std.Total Le := ⟨fun left right => by
  unfold Le
  rw [← Std.OrientedCmp.isGE_iff_isLE (a := left) (b := right)]
  cases left.compare right <;> decide⟩

theorem compare_v4 (left right : BitVec 32) :
    (Addr.v4 left).compare (.v4 right) =
      Ord.compare left.toNat right.toNat := by
  change Ordering.then (Ord.compare 32 32) (Ordering.then
    (Ord.compare left.toNat right.toNat) (Ord.compare "" "")) = _
  simp

theorem compare_v4_eq_lt {left right : BitVec 32} :
    (Addr.v4 left).compare (.v4 right) = .lt ↔ left.toNat < right.toNat := by
  rw [compare_v4, Nat.compare_eq_lt]

theorem le_v4 {left right : BitVec 32} :
    Le (.v4 left) (.v4 right) ↔ left.toNat ≤ right.toNat := by
  rw [Le, compare_v4, Nat.isLE_compare]

end Addr

/-- `Prefix.Overlaps`: two valid prefixes of one family that agree on the
bits of the shorter one. -/
def Prefix.overlaps (left right : Prefix) : Bool :=
  if ¬ left.isValid ∨ ¬ right.isValid then false
  else if left = right then true
  else if left.addr.is4 ≠ right.addr.is4 then false
  else
    let minBits :=
      if left.bits < right.bits then left.length else right.length
    if minBits = 0 then true
    else left.addr.mask minBits = right.addr.mask minBits

/-- The checks of one subnet by `desiredGateways`. -/
def subnetFits (vpc : VPC) (subnet : Subnet) : Prop :=
  subnet.vpcID = vpc.id ∧ subnet.cidrBlock.isValid = true ∧
    subnet.cidrBlock.addr.is4 = true ∧
    subnet.cidrBlock.masked = subnet.cidrBlock ∧
    vpc.cidrBlock.bits ≤ subnet.cidrBlock.bits ∧
    subnet.cidrBlock.bits ≤ 28 ∧
    vpc.cidrBlock.contains subnet.cidrBlock.addr = true

instance (vpc : VPC) (subnet : Subnet) : Decidable (subnetFits vpc subnet) :=
  inferInstanceAs (Decidable (_ ∧ _))

/-- The loop of `desiredGateways`, with the blocks it has seen. -/
def collectGateways (vpc : VPC) (seen : List Prefix) (gateways : List Addr) :
    List Subnet → Except String (List Addr)
  | [] => .ok gateways
  | subnet :: subnets =>
      if ¬ subnetFits vpc subnet then
        .error ("subnet " ++ subnet.id ++ " is not a valid range inside VPC " ++
          vpc.id)
      else
        match seen.find? subnet.cidrBlock.overlaps with
        | some prior =>
            .error ("subnet " ++ subnet.id ++ " overlaps " ++ prior.text ++
              " in VPC " ++ vpc.id)
        | none =>
            collectGateways vpc (seen ++ [subnet.cidrBlock])
              (gateways ++ [subnet.cidrBlock.addr.next]) subnets

/-- The router addresses of a VPC, one for each of its subnets. -/
def desiredGateways (vpc : VPC) (subnets : List Subnet) :
    Except String (List Addr) :=
  let cidr := vpc.cidrBlock
  if ¬ cidr.isValid ∨ ¬ cidr.addr.is4 ∨ cidr.masked ≠ cidr ∨
      cidr.bits < 16 ∨ 28 < cidr.bits then
    .error ("VPC " ++ vpc.id ++ " has invalid IPv4 CIDR " ++ cidr.text)
  else
    (collectGateways vpc [] [] subnets).map (List.insertionSort Addr.Le)

/-- The check of `EnsureENI` for the first four addresses and the last. -/
def engineReserves (cidr : Prefix) (address : Addr) : Prop :=
  address.compare cidr.addr.next.next.next.next = .lt ∨
    ¬ cidr.contains address.next

instance (cidr : Prefix) (address : Addr) :
    Decidable (engineReserves cidr address) :=
  inferInstanceAs (Decidable (_ ∨ _))

/-- The address and membership checks of `EnsureENI`. -/
def checkENI (vpc : VPC) (subnet : Subnet) (eni : ENI) :
    Except String Unit := do
  let _ ← desiredGateways vpc [subnet]
  let cidr := subnet.cidrBlock
  if eni.subnetID ≠ subnet.id ∨ eni.workspaceID ≠ subnet.workspaceID ∨
      subnet.workspaceID ≠ vpc.workspaceID ∨
      ¬ cidr.contains eni.privateIP then
    throw ("ENI " ++ eni.id ++ " does not belong to subnet " ++ subnet.id ++
      " in VPC " ++ vpc.id)
  if engineReserves cidr eni.privateIP then
    throw ("ENI " ++ eni.id ++ " uses a reserved subnet address")

/-- The largest index with a name of at most 15 bytes. -/
def maxENIIndex : Int := 9999999999999

/-- The router's end of the pair of an interface. -/
def eniLinkName (index : Int) : Except String String :=
  if index < 1 ∨ maxENIIndex < index then
    .error ("ENI index " ++ toString index ++
      " exceeds the kernel name budget")
  else .ok ("ve" ++ toString index)

def maxIndex : Int := 99999999

/-- `netns.Name`: the namespace of a VPC. -/
def netnsName (index : Int) : Except Failure String :=
  if index < 1 ∨ maxIndex < index then
    .error (.other ("VPC namespace index " ++ toString index ++
      " is outside 1.." ++ toString maxIndex))
  else .ok ("nx-vpc-" ++ toString index)

section Overlaps

variable {left right : Prefix} {leftBase rightBase : BitVec 32}

theorem Prefix.contains_self (addr : left.addr = .v4 leftBase)
    (valid : left.isValid = true) : left.contains (.v4 leftBase) = true :=
  (contains_v4_iff addr valid).mpr (.refl _ _)

/-- Equal masks put the two addresses into one block. -/
theorem Addr.mask_same {bits : Nat}
    (same : (Addr.v4 leftBase).mask bits = (Addr.v4 rightBase).mask bits) :
    Block.Same (32 - bits) leftBase.toNat rightBase.toNat := by
  have masks : maskLow leftBase bits = maskLow rightBase bits :=
    Addr.v4.inj same
  have second := Prefix.maskLow_same rightBase bits
  rw [← masks] at second
  exact (Prefix.maskLow_same leftBase bits).symm.trans second

/-- The engine finds an overlap only where the blocks share an address. -/
theorem Prefix.overlaps_meet (leftBlock : Admissible left)
    (rightBlock : Admissible right) (holds : left.overlaps right = true) :
    ∃ address, left.contains address = true ∧
      right.contains address = true := by
  obtain ⟨leftBase, leftAddr⟩ := Addr.is4_iff.mp leftBlock.is4
  obtain ⟨rightBase, rightAddr⟩ := Addr.is4_iff.mp rightBlock.is4
  have leftSelf := contains_self leftAddr leftBlock.valid
  have rightSelf := contains_self rightAddr rightBlock.valid
  have leftBits := bits_eq_length leftBlock.valid
  have rightBits := bits_eq_length rightBlock.valid
  have leftLower := leftBlock.lower
  have rightLower := rightBlock.lower
  unfold overlaps at holds
  rw [if_neg (by simp [leftBlock.valid, rightBlock.valid])] at holds
  split at holds
  · rename_i same
    exact ⟨.v4 leftBase, leftSelf, same ▸ leftSelf⟩
  · rw [if_neg (by rw [leftBlock.is4, rightBlock.is4]; simp)] at holds
    dsimp only at holds
    -- The shorter prefix contains the base of the longer one.
    split at holds
    · rw [if_neg (by omega), decide_eq_true_iff, leftAddr, rightAddr] at holds
      refine ⟨.v4 rightBase, ?_, rightSelf⟩
      rw [contains_v4_iff leftAddr leftBlock.valid]
      exact (Addr.mask_same holds).symm
    · rw [if_neg (by omega), decide_eq_true_iff, leftAddr, rightAddr] at holds
      refine ⟨.v4 leftBase, leftSelf, ?_⟩
      rw [contains_v4_iff rightAddr rightBlock.valid]
      exact Addr.mask_same holds

end Overlaps

section Loop

variable {vpc : VPC}

theorem collectGateways_ok {subnets : List Subnet} {seen : List Prefix}
    {gateways : List Addr}
    (fits : ∀ subnet ∈ subnets, subnetFits vpc subnet)
    (apart : subnets.Pairwise fun left right =>
      right.cidrBlock.overlaps left.cidrBlock = false)
    (fresh : ∀ subnet ∈ subnets, ∀ prior ∈ seen,
      subnet.cidrBlock.overlaps prior = false) :
    collectGateways vpc seen gateways subnets =
      .ok (gateways ++ subnets.map fun subnet =>
        subnet.cidrBlock.addr.next) := by
  induction subnets generalizing seen gateways with
  | nil => simp [collectGateways]
  | cons subnet subnets induction =>
      obtain ⟨first, rest⟩ := List.pairwise_cons.mp apart
      have none : seen.find? subnet.cidrBlock.overlaps = none := by
        rw [List.find?_eq_none]
        intro prior member
        simp [fresh subnet List.mem_cons_self prior member]
      have fitting := fits subnet List.mem_cons_self
      rw [collectGateways, if_neg (not_not.mpr fitting), none]
      dsimp only
      rw [induction
        (fun other member => fits other (List.mem_cons_of_mem _ member)) rest]
      · simp
      · intro other member
        refine forall_append
          (fresh other (List.mem_cons_of_mem _ member)) ?_
        exact first other member

theorem desiredGateways_ok {subnets : List Subnet}
    (block : Admissible vpc.cidrBlock)
    (fits : ∀ subnet ∈ subnets, subnetFits vpc subnet)
    (apart : subnets.Pairwise fun left right =>
      right.cidrBlock.overlaps left.cidrBlock = false) :
    desiredGateways vpc subnets = .ok (List.insertionSort Addr.Le
      (subnets.map fun subnet => subnet.cidrBlock.addr.next)) := by
  have accepted : ¬ (¬ vpc.cidrBlock.isValid ∨ ¬ vpc.cidrBlock.addr.is4 ∨
      vpc.cidrBlock.masked ≠ vpc.cidrBlock ∨ vpc.cidrBlock.bits < 16 ∨
      28 < vpc.cidrBlock.bits) := by
    have lower := block.lower
    have upper := block.upper
    simp only [block.valid, block.is4, block.masked]
    simp only [not_true_eq_false, ne_eq, false_or]
    omega
  have fresh : ∀ subnet ∈ subnets, ∀ prior ∈ ([] : List Prefix),
      subnet.cidrBlock.overlaps prior = false :=
    fun _ _ _ member => absurd member List.not_mem_nil
  rw [desiredGateways, if_neg accepted, collectGateways_ok fits apart fresh,
    List.nil_append]
  rfl

end Loop

end Nephos
