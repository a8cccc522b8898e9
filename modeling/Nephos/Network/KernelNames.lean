import Nephos.Library.Json
import Nephos.Network.SourceChecks
import Nephos.PageWalks
import Nephos.Reconcile.Namespaces

/-!
# Names of namespaces and links

The checks that decide whether a namespace or a link is one of ours parse a
number out of a name and render it again.  What they accept is the set of
rendered names, with one number for each: signs, leading zeros and numbers
outside the range are parsed first and refused afterwards.
-/

namespace Nephos

/-- `netns.validateName`. -/
def netnsValidateName (name : String) : Except Failure Unit :=
  let marker := "nx-vpc-".toList
  if ¬ marker.isPrefixOf name.toList ∨ 15 < (Text.utf8 name).length then
    .error (.other ("refusing foreign or oversized network namespace " ++
      Text.quote name))
  else
    let indexPart := String.ofList (name.toList.drop marker.length)
    match parseInt64 indexPart with
    -- A part this short is never out of range.
    | none => .error (.other ("invalid VPC namespace " ++ Text.quote name ++
        ": strconv.ParseInt: parsing " ++ Text.quote indexPart ++
        ": invalid syntax"))
    | some index =>
        match netnsName index with
        | .error failure => .error failure
        | .ok canonical =>
            if canonical ≠ name then
              .error (.other ("noncanonical VPC namespace " ++
                Text.quote name))
            else .ok ()

/-- A short name made of a fixed front and a decimal number without a leading
zero. -/
structure KernelName (front name : String) : Prop where
  short : (Text.utf8 name).length ≤ 15
  digits : ∃ digits : List Char, name.toList = front.toList ++ digits ∧
    digits ≠ [] ∧ (∀ char ∈ digits, char.isDigit = true) ∧
    digits.head? ≠ some '0'
  noSeparator : '/' ∉ name.toList
  noSpace : ∀ char ∈ name.toList, char.isWhitespace = false

/-- What every rendered name looks like. -/
theorem kernelName_of_decimal {front : String} {index digits : Nat}
    (positive : 0 < index) (fits : index < 10 ^ digits)
    (counted : 0 < digits) (short : (Text.utf8 front).length + digits ≤ 15)
    (plain : ∀ char ∈ front.toList, char ≠ '/' ∧ char.isWhitespace = false) :
    KernelName front (front ++ Text.decimal index) := by
  have chars : (front ++ Text.decimal index).toList =
      front.toList ++ (Text.decimal index).toList := String.toList_append
  have clean : ∀ char ∈ (front ++ Text.decimal index).toList,
      char ≠ '/' ∧ char.isWhitespace = false := by
    intro char member
    rw [chars, List.mem_append] at member
    rcases member with inFront | inNumber
    · exact plain char inFront
    · have digit := Text.isDigit_of_mem_decimal inNumber
      constructor
      · rintro rfl
        simp [Char.isDigit] at digit
      · cases space : char.isWhitespace with
        | false => rfl
        | true =>
            simp only [Char.isWhitespace, Bool.or_eq_true,
              decide_eq_true_eq] at space
            rcases space with ((rfl | rfl) | rfl) | rfl <;>
              simp [Char.isDigit] at digit
  refine ⟨?_, ⟨(Text.decimal index).toList, chars, ?_,
    fun _ member => Text.isDigit_of_mem_decimal member, ?_⟩,
    fun member => (clean _ member).1 rfl, fun char member =>
      (clean char member).2⟩
  · have bound := (Nat.length_toDigits_le_iff (by decide) counted).mpr fits
    rw [Text.utf8_append, List.length_append, length_utf8_decimal]
    omega
  · rw [Text.decimal_toList]
    exact Nat.toDigits_ne_nil
  · rw [Text.decimal_toList]
    exact Json.toDigits_head_ne_zero positive

theorem netnsName_iff {index : Int} {name : String} :
    netnsName index = .ok name ↔ ∃ number : Nat, index = number ∧
      1 ≤ number ∧ number ≤ 99999999 ∧
      name = "nx-vpc-" ++ Text.decimal number := by
  constructor
  · intro named
    unfold netnsName maxIndex at named
    split at named
    · cases named
    · rename_i inside
      obtain ⟨number, rfl⟩ := Int.eq_ofNat_of_zero_le (by omega : 0 ≤ index)
      cases named
      exact ⟨number, rfl, by omega, by omega, rfl⟩
  · rintro ⟨number, rfl, positive, bounded, rfl⟩
    unfold netnsName maxIndex
    rw [if_neg (by omega)]
    rfl

theorem eniLinkName_iff {index : Int} {name : String} :
    eniLinkName index = .ok name ↔ ∃ number : Nat, index = number ∧
      1 ≤ number ∧ number ≤ 9999999999999 ∧
      name = "ve" ++ Text.decimal number := by
  constructor
  · intro named
    unfold eniLinkName maxENIIndex at named
    split at named
    · cases named
    · rename_i inside
      obtain ⟨number, rfl⟩ := Int.eq_ofNat_of_zero_le (by omega : 0 ≤ index)
      cases named
      exact ⟨number, rfl, by omega, by omega, rfl⟩
  · rintro ⟨number, rfl, positive, bounded, rfl⟩
    unfold eniLinkName maxENIIndex
    rw [if_neg (by omega)]
    rfl

/-- The number behind the front of a rendered name. -/
theorem parse_rendered (front : String) {number : Nat}
    (small : number < 2 ^ 63) :
    front.toList.isPrefixOf (front ++ Text.decimal number).toList = true ∧
      parseInt64 (String.ofList ((front ++ Text.decimal number).toList.drop
        front.toList.length)) = some (number : Int) := by
  rw [String.toList_append]
  constructor
  · rw [List.isPrefixOf_iff_prefix]
    exact List.prefix_append _ _
  · rw [List.drop_left, String.ofList_toList]
    exact parseInt64_decimal small

theorem ownedIndex_iff {name : String} {index : Int} :
    ownedIndex name = some index ↔ netnsName index = .ok name := by
  constructor
  · exact ownedIndex_some
  · intro named
    obtain ⟨number, rfl, positive, bounded, rfl⟩ := netnsName_iff.mp named
    obtain ⟨front, parsed⟩ := parse_rendered "nx-vpc-"
      (by omega : number < 2 ^ 63)
    simp only [ownedIndex, front, parsed, named, if_true]

theorem netnsName_kernelName {index : Int} {name : String}
    (named : netnsName index = .ok name) : KernelName "nx-vpc-" name := by
  obtain ⟨number, -, positive, bounded, rfl⟩ := netnsName_iff.mp named
  have plain : ∀ char ∈ "nx-vpc-".toList,
      char ≠ '/' ∧ char.isWhitespace = false := by
    simp [Char.isWhitespace]
  exact kernelName_of_decimal positive (by omega : number < 10 ^ 8)
    (by omega) (by decide) plain

theorem netnsValidateName_iff {name : String} :
    netnsValidateName name = .ok () ↔
      ∃ index, netnsName index = .ok name := by
  constructor
  · intro accepted
    unfold netnsValidateName at accepted
    dsimp only at accepted
    split at accepted
    · cases accepted
    · split at accepted
      · cases accepted
      · rename_i index parsed
        split at accepted
        · cases accepted
        · rename_i canonical named
          split at accepted
          · cases accepted
          · rename_i same
            rw [not_not.mp same] at named
            exact ⟨index, named⟩
  · rintro ⟨index, named⟩
    have short := (netnsName_kernelName named).short
    obtain ⟨number, rfl, positive, bounded, rfl⟩ := netnsName_iff.mp named
    obtain ⟨front, parsed⟩ := parse_rendered "nx-vpc-"
      (by omega : number < 2 ^ 63)
    have passes : ¬ (¬ "nx-vpc-".toList.isPrefixOf
        ("nx-vpc-" ++ Text.decimal number).toList = true ∨
          15 < (Text.utf8 ("nx-vpc-" ++ Text.decimal number)).length) := by
      rintro (foreign | long)
      · exact foreign front
      · omega
    simp only [netnsValidateName]
    rw [if_neg passes]
    simp only [parsed, named]
    exact if_neg (not_not.mpr rfl)

theorem eniLinkName_kernelName {index : Int} {name : String}
    (named : eniLinkName index = .ok name) : KernelName "ve" name := by
  obtain ⟨number, -, positive, bounded, rfl⟩ := eniLinkName_iff.mp named
  have plain : ∀ char ∈ "ve".toList,
      char ≠ '/' ∧ char.isWhitespace = false := by
    simp [Char.isWhitespace]
  exact kernelName_of_decimal positive (by omega : number < 10 ^ 13)
    (by omega) (by decide) plain

theorem canonicalENILink_iff {name : String} :
    canonicalENILink name = true ↔ ∃ index, eniLinkName index = .ok name := by
  constructor
  · intro canonical
    unfold canonicalENILink at canonical
    split at canonical
    · rename_i index _ _
      exact ⟨index, of_decide_eq_true canonical⟩
    · cases canonical
  · rintro ⟨index, named⟩
    obtain ⟨number, rfl, positive, bounded, rfl⟩ := eniLinkName_iff.mp named
    obtain ⟨front, parsed⟩ := parse_rendered "ve"
      (by omega : number < 2 ^ 63)
    have two : "ve".toList.length = 2 := rfl
    rw [two] at parsed
    unfold canonicalENILink
    rw [front, parsed]
    exact decide_eq_true named

theorem decimal_front_injective {front : String} {left right : Nat}
    (same : front ++ Text.decimal left = front ++ Text.decimal right) :
    left = right := by
  have chars := congrArg String.toList same
  rw [String.toList_append, String.toList_append,
    List.append_cancel_left_eq] at chars
  exact Text.decimal_injective chars

/-- A name that some index renders to has only that index. -/
theorem existsUnique_index {render : Int → Prop} {front name : String}
    {bound : Nat}
    (rendered : ∀ index, render index ↔ ∃ number : Nat, index = number ∧
      1 ≤ number ∧ number ≤ bound ∧ name = front ++ Text.decimal number) :
    (∃ index, render index) ↔
      ∃! index, (1 ≤ index ∧ index ≤ (bound : Int)) ∧ render index := by
  constructor
  · rintro ⟨index, holds⟩
    obtain ⟨number, rfl, positive, bounded, named⟩ := (rendered index).mp holds
    refine ⟨number, ⟨⟨by omega, by omega⟩, holds⟩, ?_⟩
    rintro other ⟨-, also⟩
    obtain ⟨second, rfl, -, -, same⟩ := (rendered other).mp also
    rw [decimal_front_injective (same.symm.trans named)]
  · rintro ⟨index, ⟨-, holds⟩, -⟩
    exact ⟨index, holds⟩

/-- The parsers of kernel names are inverse to the functions that render
them, and accept nothing else. -/
theorem kernel_name_parsers_exact (name : String) :
    (netnsValidateName name = .ok () ↔ (ownedIndex name).isSome = true) ∧
      (netnsValidateName name = .ok () ↔
        ∃! index : Int, (1 ≤ index ∧ index ≤ 99999999) ∧
          netnsName index = .ok name) ∧
      (∀ index, ownedIndex name = some index ↔ netnsName index = .ok name) ∧
      (canonicalENILink name = true ↔
        ∃! index : Int, (1 ≤ index ∧ index ≤ 9999999999999) ∧
          eniLinkName index = .ok name) ∧
      (netnsValidateName name = .ok () → KernelName "nx-vpc-" name) ∧
      (canonicalENILink name = true → KernelName "ve" name) := by
  refine ⟨?_, ?_, fun index => ownedIndex_iff, ?_, ?_, ?_⟩
  · rw [netnsValidateName_iff, Option.isSome_iff_exists]
    simp only [ownedIndex_iff]
  · rw [netnsValidateName_iff]
    exact existsUnique_index fun index => netnsName_iff
  · rw [canonicalENILink_iff]
    exact existsUnique_index fun index => eniLinkName_iff
  · intro accepted
    obtain ⟨index, named⟩ := netnsValidateName_iff.mp accepted
    exact netnsName_kernelName named
  · intro canonical
    obtain ⟨index, named⟩ := canonicalENILink_iff.mp canonical
    exact eniLinkName_kernelName named

end Nephos
