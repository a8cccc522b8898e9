import Nephos.Network.Engine
import Nephos.Network.Ruleset
import Nephos.Store.Spec
import Nephos.TextSpec

/-!
# Source checks

The router accepts a packet from an interface of an instance only with the
address that the interface was given.  The engine keeps the addresses in the
ownership markers of the links and renders a ruleset from them.
-/

namespace Nephos

structure ENIIdentity where
  id : ID
  ip : Addr
  mac : String
  namespaceInode : Nat
deriving DecidableEq, Repr

def canonicalENILink (name : String) : Bool :=
  match "ve".toList.isPrefixOf name.toList,
      parseInt64 (String.ofList (name.toList.drop 2)) with
  | true, some index => eniLinkName index = .ok name
  | _, _ => false

def eniPolicyComment : String := "nephos:m1"

/-- The text of one pair of the set. -/
def sourceElement (record : String × ENIIdentity) : String :=
  Text.quote record.1 ++ " . " ++ record.2.ip.text

/-- The loop over the names, with a comma before each but the first. -/
def joinElements : List String → String
  | [] => ""
  | [element] => element
  | element :: next :: elements =>
      element ++ ", " ++ joinElements (next :: elements)

def openingText : String :=
  "table inet nephos \x7b\n comment \"" ++ eniPolicyComment ++
    "\"\n set eni_sources \x7b\n type ifname . ipv4_addr\n"

def closingText : String :=
  " \x7d\n chain source_check \x7b\n type filter hook prerouting " ++
    "priority -300; policy accept;\n" ++
    " iifname . ip saddr @eni_sources return\n" ++
    " iifname \"ve*\" counter drop comment \"nephos:anti-spoof\"\n" ++
    " \x7d\n\x7d\n"

/-- `renderENISourceChecks`, with the records in the order in which the map
is iterated. -/
def renderENISourceChecks (records : List (String × ENIIdentity))
    (existing : Bool) : Except String String := do
  let names ← records.mapM fun record =>
    if ¬ canonicalENILink record.1 ∨ ¬ record.2.ip.is4 then
      throw ("invalid source-check interface or address " ++
        Text.quote record.1)
    else pure record.1
  let sorted := names.insertionSort (· ≤ ·)
  let elements := sorted.filterMap fun name =>
    (records.lookup name).map fun record => sourceElement (name, record)
  return (if existing then "delete table inet nephos\n" else "") ++
    openingText ++
    (if sorted ≠ [] then
      " elements = \x7b " ++ joinElements elements ++ " \x7d\n"
    else "") ++ closingText

open Ruleset

theorem octetField_decimal : ∀ octet < 256,
    Netip.octetField (Text.decimal octet).toList = some octet := by
  decide +kernel

theorem decimal_apart {char : Char} (notDigit : char.isDigit = false)
    (number : Nat) : char ∉ (Text.decimal number).toList := by
  intro member
  have digit := Text.isDigit_of_mem_decimal member
  rw [notDigit] at digit
  cases digit

theorem splitOn_decimal (number : Nat) (rest : List Char) :
    ((Text.decimal number).toList ++ '.' :: rest).splitOn '.' =
      (Text.decimal number).toList :: rest.splitOn '.' := by
  apply List.splitOnP_append_cons_of_forall_mem
  · intro char member
    have different : char ≠ '.' := by
      rintro rfl
      exact decimal_apart (by decide) number member
    simpa using different
  · rfl

/-- The octets of an address, from the first one. -/
def octets (ip : BitVec 32) : List Nat :=
  [24, 16, 8, 0].map fun shift => (ip >>> shift).toNat % 256

theorem Addr.text_toList (ip : BitVec 32) :
    ∃ a b c d, octets ip = [a, b, c, d] ∧
      (Addr.text (.v4 ip)).toList = (Text.decimal a).toList ++ '.' ::
        ((Text.decimal b).toList ++ '.' ::
          ((Text.decimal c).toList ++ '.' :: (Text.decimal d).toList)) := by
  refine ⟨_, _, _, _, rfl, ?_⟩
  simp [Addr.text, String.toList_append, List.append_assoc]

theorem octets_number {ip : BitVec 32} {a b c d : Nat}
    (parts : octets ip = [a, b, c, d]) :
    a < 256 ∧ b < 256 ∧ c < 256 ∧ d < 256 ∧
      BitVec.ofNat 32 (((a * 256 + b) * 256 + c) * 256 + d) = ip := by
  simp only [octets, List.map_cons, List.map_nil, List.cons.injEq,
    and_true] at parts
  obtain ⟨rfl, rfl, rfl, rfl⟩ := parts
  refine ⟨by omega, by omega, by omega, by omega, ?_⟩
  apply BitVec.eq_of_toNat_eq
  have bound := ip.isLt
  simp only [BitVec.toNat_ofNat, BitVec.toNat_ushiftRight,
    Nat.shiftRight_eq_div_pow]
  omega

theorem parseAddr_text (ip : BitVec 32) :
    Netip.parseAddr (Addr.text (.v4 ip)).toList = some (.v4 ip) := by
  obtain ⟨a, b, c, d, parts, text⟩ := Addr.text_toList ip
  obtain ⟨aSmall, bSmall, cSmall, dSmall, number⟩ := octets_number parts
  have first : (Text.decimal a).toList.find? (fun char =>
      char == '.' || char == ':' || char == '%') = none := by
    rw [List.find?_eq_none]
    intro char member special
    simp only [Bool.or_eq_true, beq_iff_eq] at special
    rcases special with (rfl | rfl) | rfl
    all_goals exact decimal_apart (by decide) a member
  have last : (Text.decimal d).toList.splitOn '.' =
      [(Text.decimal d).toList] :=
    List.splitOn_eq_singleton (decimal_apart (by decide) d)
  have numbers : Netip.parseIPv4 (Addr.text (.v4 ip)).toList =
      some (((a * 256 + b) * 256 + c) * 256 + d) := by
    rw [Netip.parseIPv4, text, splitOn_decimal, splitOn_decimal,
      splitOn_decimal, last]
    simp only [List.map_cons, List.map_nil, octetField_decimal _ aSmall,
      octetField_decimal _ bSmall, octetField_decimal _ cSmall,
      octetField_decimal _ dSmall]
  have dot : (Addr.text (.v4 ip)).toList.find? (fun char =>
      char == '.' || char == ':' || char == '%') = some '.' := by
    rw [text, List.find?_append, first]
    rfl
  rw [Netip.parseAddr, dot, numbers]
  exact congrArg (fun value => some (Addr.v4 value)) number

theorem isPlain_of_isDigit {char : Char} (digit : char.isDigit = true) :
    isPlain char = true := by
  have marks : ∀ mark ∈ ['"', ' ', '{', '}', ',', ';', '\n'],
      mark.isDigit = false := by
    simp [Char.isDigit]
  have apart : ∀ mark ∈ ['"', ' ', '{', '}', ',', ';', '\n'],
      char ≠ mark := by
    rintro mark member rfl
    rw [marks char member] at digit
    cases digit
  simp only [List.forall_mem_cons] at apart
  simp [isPlain, isMark, apart]

theorem decimal_plain (number : Nat) :
    (Text.decimal number).toList.all isPlain = true :=
  List.all_eq_true.mpr fun _ member =>
    isPlain_of_isDigit (Text.isDigit_of_mem_decimal member)

theorem text_plain (ip : BitVec 32) :
    (Addr.text (.v4 ip)).toList.all isPlain = true ∧
      (Addr.text (.v4 ip)).toList ≠ [] := by
  obtain ⟨a, b, c, d, -, text⟩ := Addr.text_toList ip
  have dot : isPlain '.' = true := by decide
  rw [text]
  constructor
  · simp only [List.all_append, List.all_cons, decimal_plain, dot,
      Bool.and_self]
  · simp

/-- A canonical name has digits only, after its first two letters. -/
theorem canonical_eq {name : String}
    (canonical : canonicalENILink name = true) :
    ∃ index : Nat, name = "ve" ++ Text.decimal index := by
  unfold canonicalENILink at canonical
  split at canonical
  · rename_i index _ _
    rw [decide_eq_true_iff] at canonical
    unfold eniLinkName at canonical
    split at canonical
    · cases canonical
    · rename_i inside
      obtain ⟨number, rfl⟩ := Int.eq_ofNat_of_zero_le
        (show 0 ≤ index by omega)
      cases canonical
      exact ⟨number, rfl⟩
  · cases canonical

/-- A record that may become a pair of the set. -/
def ValidSource (record : String × ENIIdentity) : Prop :=
  canonicalENILink record.1 = true ∧ record.2.ip.is4 = true

instance (record : String × ENIIdentity) : Decidable (ValidSource record) :=
  inferInstanceAs (Decidable (_ ∧ _))

/-- The pair that a record stands for. -/
def sourcePair (record : String × ENIIdentity) : String × Addr :=
  (record.1, record.2.ip)

/-- The tokens of the pairs and of the brace behind them. -/
def elementTokens : List (String × ENIIdentity) → List Token
  | [] => []
  | [record] => [.quoted record.1, .word ".", .word record.2.ip.text,
      .mark '}', .mark '\n']
  | record :: next :: records =>
      .quoted record.1 :: .word "." :: .word record.2.ip.text :: .mark ',' ::
        elementTokens (next :: records)

theorem quoteChar_digit {char : Char} (digit : char.isDigit = true) :
    char ≠ '"' ∧ Text.quoteChar char = [char] := by
  have bounds : 48 ≤ char.toNat ∧ char.toNat ≤ 57 := by
    simpa [Char.isDigit, UInt32.le_iff_toNat_le] using digit
  have prints : Text.isPrint char = true := by
    simp [Text.isPrint, Text.unprintable]
    omega
  have plain : char ≠ '"' ∧ char ≠ '\\' := by
    constructor <;> rintro rfl <;> exact absurd digit (by decide)
  refine ⟨plain.1, ?_⟩
  simp [Text.quoteChar, prints, plain]

theorem canonical_plain {name : String}
    (canonical : canonicalENILink name = true) :
    '"' ∉ name.toList ∧ Text.quote name =
      String.ofList ('"' :: (name.toList ++ ['"'])) := by
  obtain ⟨index, rfl⟩ := canonical_eq canonical
  have apart : ∀ char ∈ ("ve" ++ Text.decimal index).toList,
      char ≠ '"' ∧ Text.quoteChar char = [char] := by
    intro char member
    rw [String.toList_append, List.mem_append] at member
    rcases member with letter | digit
    · have listed : char = 'v' ∨ char = 'e' := by simpa using letter
      rcases listed with rfl | rfl <;> exact ⟨by decide, by decide +kernel⟩
    · exact quoteChar_digit (Text.isDigit_of_mem_decimal digit)
  refine ⟨fun member => (apart _ member).1 rfl, ?_⟩
  have unchanged : ("ve" ++ Text.decimal index).toList.flatMap
      Text.quoteChar = ("ve" ++ Text.decimal index).toList := by
    rw [List.flatMap_congr fun char member => (apart char member).2]
    exact List.flatMap_singleton' _
  rw [Text.quote, unchanged, List.append_assoc]
  rfl

theorem scan_element {record : String × ENIIdentity}
    (valid : ValidSource record) :
    scan .blank (sourceElement record).toList =
      ([.quoted record.1, .word "."], .word record.2.ip.text.toList) := by
  obtain ⟨name, identity⟩ := record
  obtain ⟨canonical, isV4⟩ := valid
  obtain ⟨ip, same⟩ := Addr.is4_iff.mp isV4
  obtain ⟨plain, quoted⟩ := canonical_plain canonical
  obtain ⟨addressPlain, nonempty⟩ := text_plain ip
  dsimp only at same quoted plain
  have text : (sourceElement (name, identity)).toList =
      ('"' :: (name.toList ++ ['"'])) ++
        ([' ', '.', ' '] ++ (Addr.text (.v4 ip)).toList) := by
    simp [sourceElement, quoted, same]
  have front : scan .blank ('"' :: (name.toList ++ ['"'])) =
      ([.quoted name], .blank) := by
    have opening : scanChar .blank '"' = ([], .quote []) := rfl
    rw [scan, opening, scan_quote plain]
    simp
  rw [text, scan_append, front, scan_append]
  dsimp only
  have middle : scan .blank [' ', '.', ' '] = ([.word "."], .blank) := by
    decide
  rw [middle, scan_word addressPlain nonempty, same]
  rfl

theorem scan_elements {records : List (String × ENIIdentity)}
    (valid : ∀ record ∈ records, ValidSource record) (nonempty : records ≠ []) :
    scan .blank ((joinElements (records.map sourceElement)).toList ++
      " \x7d\n".toList) = (elementTokens records, .blank) := by
  induction records with
  | nil => exact absurd rfl nonempty
  | cons record records induction =>
      rw [List.forall_mem_cons] at valid
      cases records with
      | nil =>
          rw [List.map_singleton, joinElements, scan_append,
            scan_element valid.1]
          simp [scan, scanChar, Reading.close, isMark, elementTokens]
      | cons next records =>
          have rest := induction valid.2 (by simp)
          rw [List.map_cons] at rest
          rw [List.map_cons, List.map_cons, joinElements, String.toList_append,
            String.toList_append, List.append_assoc, List.append_assoc,
            scan_append, scan_element valid.1, scan_append]
          have comma : scan (.word record.2.ip.text.toList) ", ".toList =
              ([.word record.2.ip.text, .mark ','], .blank) := by
            simp [scan, scanChar, Reading.close, isMark]
          rw [comma, rest]
          rfl

theorem parseElements_tokens {records : List (String × ENIIdentity)}
    (valid : ∀ record ∈ records, ValidSource record) (nonempty : records ≠ [])
    (rest : List Token) :
    parseElements (elementTokens records ++ rest) =
      some (records.map sourcePair, rest) := by
  induction records with
  | nil => exact absurd rfl nonempty
  | cons record records induction =>
      rw [List.forall_mem_cons] at valid
      obtain ⟨ip, same⟩ := Addr.is4_iff.mp valid.1.2
      have address : Netip.parseAddr record.2.ip.text.toList =
          some record.2.ip := by
        rw [same]
        exact parseAddr_text ip
      cases records with
      | nil =>
          simp [elementTokens, parseElements, address, sourcePair]
      | cons next records =>
          have others := induction valid.2 (by simp)
          rw [elementTokens]
          simp [parseElements, address, others, sourcePair]

/-- The script for records in the order of their names. -/
def script (records : List (String × ENIIdentity)) (existing : Bool) :
    String :=
  (if existing then "delete table inet nephos\n" else "") ++ openingText ++
    (if records ≠ [] then
      " elements = \x7b " ++ joinElements (records.map sourceElement) ++
        " \x7d\n"
    else "") ++ closingText

def openingTokens : List Token :=
  [.word "table", .word "inet", .word "nephos", .mark '{', .mark '\n',
    .word "comment", .quoted "nephos:m1", .mark '\n', .word "set",
    .word "eni_sources", .mark '{', .mark '\n', .word "type",
    .word "ifname", .word ".", .word "ipv4_addr", .mark '\n']

def closingTokens : List Token :=
  [.mark '}', .mark '\n', .word "chain", .word "source_check", .mark '{',
    .mark '\n', .word "type", .word "filter", .word "hook",
    .word "prerouting", .word "priority", .word "-300", .mark ';',
    .word "policy", .word "accept", .mark ';', .mark '\n',
    .word "iifname", .word ".", .word "ip", .word "saddr",
    .word "@eni_sources", .word "return", .mark '\n', .word "iifname",
    .quoted "ve*", .word "counter", .word "drop", .word "comment",
    .quoted "nephos:anti-spoof", .mark '\n', .mark '}', .mark '\n',
    .mark '}', .mark '\n']

def deletionTokens (existing : Bool) : List Token :=
  if existing then [.word "delete", .word "table", .word "inet",
    .word "nephos", .mark '\n'] else []

def setTokens (records : List (String × ENIIdentity)) : List Token :=
  if records ≠ [] then
    [.word "elements", .word "=", .mark '{'] ++ elementTokens records
  else []

theorem scan_opening :
    scan .blank openingText.toList = (openingTokens, .blank) := by
  decide +kernel

theorem scan_closing :
    scan .blank closingText.toList = (closingTokens, .blank) := by
  decide +kernel

theorem scan_deletion (existing : Bool) :
    scan .blank (if existing then "delete table inet nephos\n"
      else "").toList = (deletionTokens existing, .blank) := by
  cases existing
  · rfl
  · decide +kernel

theorem scan_set {records : List (String × ENIIdentity)}
    (valid : ∀ record ∈ records, ValidSource record) :
    scan .blank (if records ≠ [] then
        " elements = \x7b " ++ joinElements (records.map sourceElement) ++
          " \x7d\n"
      else "").toList = (setTokens records, .blank) := by
  rw [setTokens]
  split
  · rename_i nonempty
    have opening : scan .blank " elements = \x7b ".toList =
        ([.word "elements", .word "=", .mark '{'], .blank) := by
      decide +kernel
    rw [String.toList_append, String.toList_append, List.append_assoc,
      scan_append, opening, scan_elements valid nonempty]
  · rfl

theorem tokens_script {records : List (String × ENIIdentity)}
    (valid : ∀ record ∈ records, ValidSource record) (existing : Bool) :
    tokens (script records existing) = some (deletionTokens existing ++
      (openingTokens ++ (setTokens records ++ closingTokens))) := by
  have whole : scan .blank (script records existing).toList =
      (deletionTokens existing ++
        (openingTokens ++ (setTokens records ++ closingTokens)), .blank) := by
    rw [script, String.toList_append, String.toList_append,
      String.toList_append, List.append_assoc, List.append_assoc,
      scan_append, scan_deletion, scan_append, scan_opening, scan_append,
      scan_set valid, scan_closing]
  rw [tokens, whole]
  exact congrArg some (List.append_nil _)

def sourcePolicy (records : List (String × ENIIdentity)) (existing : Bool) :
    Policy :=
  { replaces := existing, comment := eniPolicyComment, set := "eni_sources"
    sources := records.map sourcePair
    rules := [.returnSources "@eni_sources", .dropFrom "ve*"] }

theorem tokens_elements : tokens "elements = \x7b " =
    some [.word "elements", .word "=", .mark '{'] := by
  decide +kernel

theorem parseSet_script {records : List (String × ENIIdentity)}
    (valid : ∀ record ∈ records, ValidSource record) :
    parseSet (setTokens records ++ closingTokens) =
      some (records.map sourcePair, closingTokens) := by
  by_cases empty : records = []
  · subst empty
    have closing : expect "elements = \x7b " closingTokens = none :=
      expect_other tokens_elements (by decide)
    change parseSet closingTokens = some ([], closingTokens)
    rw [parseSet, closing]
  · rw [setTokens, if_pos empty, List.append_assoc, parseSet,
      expect_append tokens_elements]
    exact parseElements_tokens valid empty closingTokens

theorem parseTable_script {records : List (String × ENIIdentity)}
    (valid : ∀ record ∈ records, ValidSource record) (replaces : Bool) :
    parseTable replaces
      (openingTokens ++ (setTokens records ++ closingTokens)) =
      some (sourcePolicy records replaces) := by
  have table : tokens "table inet nephos \x7b\n comment " = some
      (openingTokens.take 6) := by
    decide +kernel
  have set : tokens "\n set" = some ((openingTokens.drop 7).take 2) := by
    decide +kernel
  have type : tokens "\x7b\n type ifname . ipv4_addr\n" = some
      (openingTokens.drop 10) := by
    decide +kernel
  have chain : tokens "\x7d\n chain" = some (closingTokens.take 3) := by
    decide +kernel
  have hook : tokens ("\x7b\n type filter hook prerouting " ++
      "priority -300; policy accept;\n") = some
      ((closingTokens.drop 4).take 13) := by
    decide +kernel
  have rules : parseRules (closingTokens.drop 17) = some
      ([.returnSources "@eni_sources", .dropFrom "ve*"],
        [.mark '}', .mark '\n']) := by
    decide +kernel
  have front : openingTokens ++ (setTokens records ++ closingTokens) =
      openingTokens.take 6 ++ (.quoted "nephos:m1" ::
        ((openingTokens.drop 7).take 2 ++ (.word "eni_sources" ::
          (openingTokens.drop 10 ++ (setTokens records ++ closingTokens))))) :=
    rfl
  have back : expect "\x7d\n chain" closingTokens = some
      (.word "source_check" :: ((closingTokens.drop 4).take 13 ++
        closingTokens.drop 17)) :=
    expect_append chain _
  rw [parseTable, front, expect_append table]
  dsimp only [Option.bind_eq_bind, Option.bind_some]
  rw [expect_append set]
  dsimp only [Option.bind_some]
  rw [expect_append type]
  dsimp only [Option.bind_some]
  rw [parseSet_script valid]
  dsimp only [Option.bind_some]
  rw [back]
  dsimp only [Option.bind_some]
  rw [expect_append hook]
  dsimp only [Option.bind_some]
  rw [rules]
  rfl

theorem parse_script {records : List (String × ENIIdentity)}
    (valid : ∀ record ∈ records, ValidSource record) (existing : Bool) :
    Ruleset.parse (script records existing) =
      some (sourcePolicy records existing) := by
  have deletion : tokens "delete table inet nephos\n" =
      some (deletionTokens true) := by
    decide +kernel
  rw [Ruleset.parse, tokens_script valid]
  dsimp only [Option.bind_eq_bind, Option.bind_some]
  cases existing
  · have fresh : expect "delete table inet nephos\n" (deletionTokens false ++
        (openingTokens ++ (setTokens records ++ closingTokens))) = none :=
      expect_other deletion (by decide)
    rw [fresh]
    exact parseTable_script valid false
  · rw [expect_append deletion]
    exact parseTable_script valid true

theorem lookup_of_mem {Key Value : Type} [BEq Key] [LawfulBEq Key]
    {entries : List (Key × Value)} (distinct : (entries.map Prod.fst).Nodup)
    {entry : Key × Value} (member : entry ∈ entries) :
    entries.lookup entry.1 = some entry.2 := by
  obtain ⟨front, back, rfl⟩ := List.append_of_mem member
  refine List.lookup_eq_some_iff.mpr ⟨front, back, rfl, ?_⟩
  intro other earlier
  rw [List.map_append, List.map_cons] at distinct
  have apart := (List.nodup_append.mp distinct).2.2 other.1
    (List.mem_map_of_mem earlier) entry.1 List.mem_cons_self
  exact bne_iff_ne.mpr (Ne.symm apart)

/-- The records in the order of their names. -/
def byName (records : List (String × ENIIdentity)) :
    List (String × ENIIdentity) :=
  orderByID Prod.fst records

theorem byName_perm (records : List (String × ENIIdentity)) :
    (byName records).Perm records :=
  List.perm_insertionSort _ records

/-- A map has one list of records in the order of their names. -/
theorem byName_of_perm {records order : List (String × ENIIdentity)}
    (distinct : (records.map Prod.fst).Nodup) (same : order.Perm records) :
    byName order = byName records := by
  have orderDistinct : (order.map Prod.fst).Nodup :=
    (same.map Prod.fst).nodup_iff.mpr distinct
  have permutes : (byName order).Perm (byName records) :=
    (byName_perm order).trans (same.trans (byName_perm records).symm)
  refine permutes.eq_of_pairwise ?_ (orderByID_sorted orderDistinct)
    (orderByID_sorted distinct)
  intro left right _ _ before behind
  exact absurd before (lt_asymm behind)

theorem names_valid {records : List (String × ENIIdentity)}
    (valid : ∀ record ∈ records, ValidSource record) :
    (records.mapM fun record =>
      if ¬ canonicalENILink record.1 ∨ ¬ record.2.ip.is4 then
        throw ("invalid source-check interface or address " ++
          Text.quote record.1)
      else pure record.1 : Except String (List String)) =
      .ok (records.map Prod.fst) := by
  induction records with
  | nil => rfl
  | cons record records induction =>
      rw [List.forall_mem_cons] at valid
      have accepted : ¬ (¬ canonicalENILink record.1 = true ∨
          ¬ record.2.ip.is4 = true) := by
        rw [not_or, not_not, not_not]
        exact valid.1
      rw [List.mapM_cons, if_neg accepted, induction valid.2]
      rfl

theorem render_valid {records : List (String × ENIIdentity)}
    (distinct : (records.map Prod.fst).Nodup)
    (valid : ∀ record ∈ records, ValidSource record) (existing : Bool) :
    renderENISourceChecks records existing =
      .ok (script (byName records) existing) := by
  have sorted : (records.map Prod.fst).insertionSort (· ≤ ·) =
      (byName records).map Prod.fst := by
    rw [byName, orderByID]
    symm
    apply List.map_insertionSort
    intro left _ right _
    rfl
  have elements : ((byName records).map Prod.fst).filterMap (fun name =>
      (records.lookup name).map fun record => sourceElement (name, record)) =
      (byName records).map sourceElement := by
    rw [List.filterMap_map, ← List.filterMap_eq_map]
    apply List.filterMap_congr
    intro record member
    have found := lookup_of_mem distinct
      ((byName_perm records).mem_iff.mp member)
    simp only [Function.comp_apply, found, Option.map_some]
  have nonempty : ((byName records).map Prod.fst ≠ []) ↔
      byName records ≠ [] :=
    not_congr List.map_eq_nil_iff
  unfold renderENISourceChecks
  rw [names_valid valid, script]
  dsimp only [bind, Except.bind, pure, Except.pure]
  simp only [sorted, elements, nonempty]

theorem render_invalid {records : List (String × ENIIdentity)}
    {record : String × ENIIdentity} (member : record ∈ records)
    (invalid : ¬ ValidSource record) (existing : Bool) :
    ∃ message, renderENISourceChecks records existing = .error message := by
  have failed : ∃ message, (records.mapM fun record =>
      if ¬ canonicalENILink record.1 ∨ ¬ record.2.ip.is4 then
        throw ("invalid source-check interface or address " ++
          Text.quote record.1)
      else pure record.1 : Except String (List String)) =
      .error message := by
    induction records with
    | nil => cases member
    | cons head records induction =>
        rw [List.mapM_cons]
        by_cases refused : ¬ canonicalENILink head.1 = true ∨
            ¬ head.2.ip.is4 = true
        · rw [if_pos refused]
          exact ⟨_, rfl⟩
        · have later : record ∈ records := by
            refine (List.mem_cons.mp member).resolve_left ?_
            rintro rfl
            rw [not_or, not_not, not_not] at refused
            exact invalid refused
          obtain ⟨message, fails⟩ := induction later
          rw [if_neg refused, fails]
          exact ⟨message, rfl⟩
  obtain ⟨message, fails⟩ := failed
  unfold renderENISourceChecks
  rw [fails]
  exact ⟨message, rfl⟩

theorem mem_sources {records : List (String × ENIIdentity)}
    {packet : Packet} :
    packet.source.any (fun addr =>
      (packet.iifname, addr) ∈ records.map sourcePair) = true ↔
      ∃ record ∈ records, record.1 = packet.iifname ∧
        packet.source = some record.2.ip := by
  rw [Option.any_eq_true]
  constructor
  · rintro ⟨addr, source, member⟩
    obtain ⟨record, inside, same⟩ :=
      List.mem_map.mp (of_decide_eq_true member)
    obtain ⟨name, ip⟩ := Prod.mk.inj same
    exact ⟨record, inside, name, by rw [source, ip]⟩
  · rintro ⟨record, inside, name, source⟩
    refine ⟨record.2.ip, source, decide_eq_true ?_⟩
    rw [← name]
    exact List.mem_map_of_mem inside

theorem passes_iff (records : List (String × ENIIdentity)) (existing : Bool)
    (packet : Packet) :
    (sourcePolicy records existing).passes packet = true ↔
      ("ve".toList <+: packet.iifname.toList →
        ∃ record ∈ records, record.1 = packet.iifname ∧
          packet.source = some record.2.ip) := by
  have set : "@eni_sources" = "@" ++ "eni_sources" := by decide
  have pattern : matchesName "ve*" packet.iifname =
      "ve".toList.isPrefixOf packet.iifname.toList := rfl
  rw [← List.isPrefixOf_iff_prefix, ← pattern, ← mem_sources]
  change (sourcePolicy records existing).accepts packet
    [.returnSources "@eni_sources", .dropFrom "ve*"] = true ↔ _
  rw [Policy.accepts, Policy.accepts, Policy.accepts]
  by_cases listed : packet.source.any (fun addr =>
      (packet.iifname, addr) ∈ records.map sourcePair) = true
  · rw [if_pos ⟨set, listed⟩]
    exact ⟨fun _ _ => listed, fun _ => rfl⟩
  · rw [if_neg fun both => listed both.2]
    by_cases inside : matchesName "ve*" packet.iifname = true
    · rw [if_pos inside]
      exact ⟨nofun, fun passed => absurd (passed inside) listed⟩
    · rw [if_neg inside]
      exact ⟨fun _ enters => absurd enters inside, fun _ => rfl⟩

/-- The script means what the records of the map say, whichever order the
map is iterated in; a record that cannot be a pair of the set refuses the
whole map. -/
theorem source_checks_meaning (records : List (String × ENIIdentity))
    (distinct : (records.map Prod.fst).Nodup) (existing : Bool) :
    ((∀ record ∈ records, ValidSource record) →
      ∃ text policy,
        (∀ order : List (String × ENIIdentity), order.Perm records →
          renderENISourceChecks order existing = .ok text) ∧
        Ruleset.parse text = some policy ∧
        policy.replaces = existing ∧
        policy.sources.Perm (records.map sourcePair) ∧
        ∀ packet : Packet,
          ("ve".toList <+: packet.iifname.toList →
            (policy.passes packet = true ↔
              ∃ record ∈ records, record.1 = packet.iifname ∧
                packet.source = some record.2.ip)) ∧
          (¬ "ve".toList <+: packet.iifname.toList →
            policy.passes packet = true)) ∧
    ((∃ record ∈ records, ¬ ValidSource record) →
      ∀ order : List (String × ENIIdentity), order.Perm records →
        ∃ message,
          renderENISourceChecks order existing = .error message) := by
  constructor
  · intro valid
    have sortedValid : ∀ record ∈ byName records, ValidSource record :=
      fun record member => valid record ((byName_perm records).mem_iff.mp
        member)
    refine ⟨script (byName records) existing,
      sourcePolicy (byName records) existing, ?_,
      parse_script sortedValid existing, rfl, (byName_perm records).map _, ?_⟩
    · intro order same
      rw [← byName_of_perm distinct same]
      exact render_valid ((same.map Prod.fst).nodup_iff.mpr distinct)
        (fun record member => valid record (same.mem_iff.mp member)) existing
    · intro packet
      have passes := passes_iff (byName records) existing packet
      simp only [(byName_perm records).mem_iff] at passes
      refine ⟨fun inside => ?_, fun outside => ?_⟩
      · exact passes.trans ⟨fun listed => listed inside,
          fun listed _ => listed⟩
      · exact passes.mpr fun inside => absurd inside outside
  · rintro ⟨record, member, invalid⟩ order same
    exact render_invalid (same.mem_iff.mpr member) invalid existing

def twoSources : List (String × ENIIdentity) :=
  [("ve2", { id := "eni-00000000000000002", ip := .v4 0x0a000204#32
             mac := "", namespaceInode := 0 }),
    ("ve1", { id := "eni-00000000000000001", ip := .v4 0x0a000104#32
              mac := "", namespaceInode := 0 })]

theorem twoSources_meaning :
    (∃ text policy,
      renderENISourceChecks twoSources true = .ok text ∧
      renderENISourceChecks twoSources.reverse true = .ok text ∧
      Ruleset.parse text = some policy ∧
      policy.passes { iifname := "ve1", source := some (.v4 0x0a000104#32) } =
        true ∧
      ¬ policy.passes { iifname := "ve1", source := some (.v4 0x0a000204#32) } =
        true ∧
      policy.passes { iifname := "nxr0", source := none } = true) ∧
    ∃ message, renderENISourceChecks (twoSources ++ [("foreign",
      { id := "", ip := .v4 0x0a000105#32, mac := "", namespaceInode := 0 })])
        false = .error message := by
  constructor
  · obtain ⟨text, policy, rendered, parsed, -, -, passes⟩ :=
      (source_checks_meaning twoSources (by decide +kernel) true).1
        (by decide +kernel)
    refine ⟨text, policy, rendered _ (List.Perm.refl _),
      rendered _ (List.reverse_perm _), parsed, ?_, ?_, ?_⟩
    · exact ((passes _).1 (by decide)).mpr (by decide +kernel)
    · rw [(passes _).1 (by decide)]
      decide +kernel
    · exact (passes _).2 (by decide)
  · exact (source_checks_meaning _ (by decide +kernel) false).2
      (by decide +kernel) _ (List.Perm.refl _)

end Nephos
