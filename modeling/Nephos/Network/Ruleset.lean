import Nephos.NetipParse

/-!
# Rulesets

The part of the language of `nft` that the engine writes: a table with one
set of pairs of an interface and an address, and one chain of rules.  A
ruleset is read without the text it was made by, so that a quoted name ends
where its quotes end and nowhere else.
-/

namespace Nephos.Ruleset

inductive Token where
  | word (text : String)
  | quoted (text : String)
  | mark (char : Char)
deriving DecidableEq, Repr

/-- What the scanner is in the middle of. -/
inductive Reading where
  | blank
  | word (chars : List Char)
  | quote (chars : List Char)
deriving DecidableEq, Repr

def isMark (char : Char) : Bool :=
  char == '{' || char == '}' || char == ',' || char == ';' || char == '\n'

/-- The word that ends here, if there is one. -/
def Reading.close : Reading → List Token
  | .word chars => [.word (String.ofList chars)]
  | _ => []

/-- One character: the tokens that end with it, and what begins. -/
def scanChar : Reading → Char → List Token × Reading
  | .quote chars, char =>
      if char = '"' then ([.quoted (String.ofList chars)], .blank)
      else ([], .quote (chars ++ [char]))
  | reading, char =>
      if char = '"' then (reading.close, .quote [])
      else if char = ' ' then (reading.close, .blank)
      else if isMark char then (reading.close ++ [.mark char], .blank)
      else
        match reading with
        | .word chars => ([], .word (chars ++ [char]))
        | _ => ([], .word [char])

def scan : Reading → List Char → List Token × Reading
  | reading, [] => ([], reading)
  | reading, char :: chars =>
      let first := scanChar reading char
      let rest := scan first.2 chars
      (first.1 ++ rest.1, rest.2)

/-- The tokens of a text, unless it ends inside quotes. -/
def tokens (text : String) : Option (List Token) :=
  match scan .blank text.toList with
  | (_, .quote _) => none
  | (front, reading) => some (front ++ reading.close)

theorem scan_append (reading : Reading) (front back : List Char) :
    scan reading (front ++ back) =
      ((scan reading front).1 ++ (scan (scan reading front).2 back).1,
        (scan (scan reading front).2 back).2) := by
  induction front generalizing reading with
  | nil => rfl
  | cons char front induction =>
      rw [List.cons_append, scan, scan, induction, List.append_assoc]

/-- A character that goes on with a word. -/
def isPlain (char : Char) : Bool :=
  char != '"' && char != ' ' && !isMark char

theorem scan_plain {word : List Char} (plain : word.all isPlain = true)
    (chars : List Char) :
    scan (.word chars) word = ([], .word (chars ++ word)) := by
  induction word generalizing chars with
  | nil => rw [scan, List.append_nil]
  | cons char word induction =>
      rw [List.all_cons, Bool.and_eq_true] at plain
      obtain ⟨first, rest⟩ := plain
      simp only [isPlain, Bool.and_eq_true, bne_iff_ne, ne_eq,
        Bool.not_eq_true'] at first
      have begins : scanChar (.word chars) char =
          ([], .word (chars ++ [char])) := by
        simp [scanChar, first]
      rw [scan, begins, induction rest, List.append_assoc]
      rfl

theorem scan_word {word : List Char} (plain : word.all isPlain = true)
    (nonempty : word ≠ []) : scan .blank word = ([], .word word) := by
  cases word with
  | nil => exact absurd rfl nonempty
  | cons char word =>
      rw [List.all_cons, Bool.and_eq_true] at plain
      obtain ⟨first, rest⟩ := plain
      simp only [isPlain, Bool.and_eq_true, bne_iff_ne, ne_eq,
        Bool.not_eq_true'] at first
      have begins : scanChar .blank char = ([], .word [char]) := by
        simp [scanChar, first]
      rw [scan, begins, scan_plain rest]
      rfl

theorem scan_quote {text : List Char} (plain : '"' ∉ text)
    (chars : List Char) :
    scan (.quote chars) (text ++ ['"']) =
      ([.quoted (String.ofList (chars ++ text))], .blank) := by
  induction text generalizing chars with
  | nil => rw [List.append_nil]; rfl
  | cons char text induction =>
      rw [List.mem_cons, not_or] at plain
      have begins : scanChar (.quote chars) char =
          ([], .quote (chars ++ [char])) := if_neg (Ne.symm plain.1)
      rw [List.cons_append, scan, begins, induction plain.2,
        List.append_assoc]
      rfl

inductive Rule where
  /-- `iifname . ip saddr @set return`. -/
  | returnSources (set : String)
  /-- `iifname "pattern" … drop`. -/
  | dropFrom (pattern : String)
deriving DecidableEq, Repr

/-- A table of the ruleset, with the names of the parts left out. -/
structure Policy where
  /-- Whether the table that was there is deleted first. -/
  replaces : Bool
  comment : String
  set : String
  sources : List (String × Addr)
  rules : List Rule
deriving DecidableEq, Repr

/-- Skip the tokens of a text. -/
def expect (text : String) (input : List Token) : Option (List Token) :=
  (tokens text).bind fun expected => input.dropPrefix? expected

theorem expect_append {text : String} {expected : List Token}
    (scanned : tokens text = some expected) (rest : List Token) :
    expect text (expected ++ rest) = some rest := by
  rw [expect, scanned]
  exact List.dropPrefix?_append_of_beq rest (beq_self_eq_true expected)

theorem expect_other {text : String} {first head : Token}
    {expected rest : List Token}
    (scanned : tokens text = some (first :: expected))
    (different : head ≠ first) : expect text (head :: rest) = none := by
  rw [expect, scanned]
  exact if_neg fun same => different (beq_iff_eq.mp same)

/-- The pairs of a set, up to the closing brace. -/
def parseElements : List Token →
    Option (List (String × Addr) × List Token)
  | .quoted name :: .word "." :: .word address :: .mark ',' :: rest => do
      let addr ← Netip.parseAddr address.toList
      let (more, rest) ← parseElements rest
      return ((name, addr) :: more, rest)
  | .quoted name :: .word "." :: .word address :: .mark '}' ::
      .mark '\n' :: rest => do
      let addr ← Netip.parseAddr address.toList
      return ([(name, addr)], rest)
  | _ => none

/-- The rules of a chain, up to the closing brace. -/
def parseRules : List Token → Option (List Rule × List Token)
  | .word "iifname" :: .word "." :: .word "ip" :: .word "saddr" ::
      .word set :: .word "return" :: .mark '\n' :: rest => do
      let (more, rest) ← parseRules rest
      return (.returnSources set :: more, rest)
  | .word "iifname" :: .quoted pattern :: .word "counter" ::
      .word "drop" :: .word "comment" :: .quoted _ :: .mark '\n' :: rest => do
      let (more, rest) ← parseRules rest
      return (.dropFrom pattern :: more, rest)
  | .mark '}' :: .mark '\n' :: rest => some ([], rest)
  | _ => none

/-- The elements of a set, if it has any. -/
def parseSet (input : List Token) :
    Option (List (String × Addr) × List Token) :=
  match expect "elements = \x7b " input with
  | some rest => parseElements rest
  | none => some ([], input)

/-- The table of a script. -/
def parseTable (replaces : Bool) (input : List Token) : Option Policy := do
  match ← expect "table inet nephos \x7b\n comment " input with
  | .quoted comment :: rest =>
      match ← expect "\n set" rest with
      | .word set :: rest =>
          let rest ← expect "\x7b\n type ifname . ipv4_addr\n" rest
          let (sources, rest) ← parseSet rest
          match ← expect "\x7d\n chain" rest with
          | .word _ :: rest =>
              let rest ← expect ("\x7b\n type filter hook prerouting " ++
                "priority -300; policy accept;\n") rest
              let (rules, rest) ← parseRules rest
              if rest = [.mark '}', .mark '\n'] then
                return { replaces, comment, set, sources, rules }
              else none
          | _ => none
      | _ => none
  | _ => none

def parse (text : String) : Option Policy := do
  let input ← tokens text
  match expect "delete table inet nephos\n" input with
  | some rest => parseTable true rest
  | none => parseTable false input

structure Packet where
  iifname : String
  /-- The source address, if the packet is an IPv4 packet. -/
  source : Option Addr

/-- A name, or all names with a text in front. -/
def matchesName (pattern name : String) : Bool :=
  if pattern.toList.getLast? = some '*' then
    pattern.toList.dropLast.isPrefixOf name.toList
  else pattern == name

/-- The first rule that matches decides.  A rule that returns, and the end of
the chain, leave the packet to the policy of the chain, which accepts. -/
def Policy.accepts (policy : Policy) (packet : Packet) : List Rule → Bool
  | [] => true
  | .returnSources set :: rules =>
      if set = "@" ++ policy.set ∧ packet.source.any (fun addr =>
          (packet.iifname, addr) ∈ policy.sources) then true
      else policy.accepts packet rules
  | .dropFrom pattern :: rules =>
      if matchesName pattern packet.iifname then false
      else policy.accepts packet rules

def Policy.passes (policy : Policy) (packet : Packet) : Bool :=
  policy.accepts packet policy.rules

end Nephos.Ruleset
