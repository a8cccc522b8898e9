import Mathlib.Algebra.Ring.Nat
import Mathlib.Data.List.Basic
import Mathlib.Tactic.Common

/-!
# Reading streams

A stream delivers its bytes in chunks of any size, also empty ones, and then
ends, either after the last chunk or together with it.  Reading a number of
bytes from it depends on the bytes alone, not on how they are cut.
-/

namespace Stream

inductive Error where
  | eof
  | unexpectedEOF
  | other (text : String)
deriving DecidableEq, Repr

def Error.text : Error → String
  | .eof => "EOF"
  | .unexpectedEOF => "unexpected EOF"
  | .other text => text

structure Source where
  chunks : List (List UInt8)
  /-- Whether the end is reported together with the last bytes. -/
  eager : Bool
  ending : Error

def Source.bytes (source : Source) : List UInt8 := source.chunks.flatten

/-- What a call returns, and the stream that it leaves. -/
structure Outcome where
  data : List UInt8
  error : Option Error
  rest : Source

/-- One call of `Read` with room for `max` bytes. -/
def Source.read (max : Nat) (source : Source) : Outcome :=
  match source.chunks with
  | [] => ⟨[], some source.ending, source⟩
  | chunk :: chunks =>
      if chunk.length ≤ max then
        ⟨chunk, if chunks = [] ∧ source.eager then some source.ending else none,
          { source with chunks }⟩
      else
        ⟨chunk.take max, none,
          { source with chunks := chunk.drop max :: chunks }⟩

/-- The number of calls that the stream can still answer. -/
def Source.weight (source : Source) : Nat :=
  source.bytes.length + source.chunks.length

/-- What one call does, whatever the chunks are. -/
structure Reads (max : Nat) (source : Source) (outcome : Outcome) :
    Prop where
  bytes : source.bytes = outcome.data ++ outcome.rest.bytes
  length : outcome.data.length ≤ max
  ending : outcome.rest.ending = source.ending
  last : ∀ error, outcome.error = some error →
    error = source.ending ∧ outcome.rest.bytes = []
  progress : 0 < max → outcome.error = none →
    outcome.rest.weight < source.weight

theorem Source.read_reads (max : Nat) (source : Source) :
    Reads max source (source.read max) := by
  obtain ⟨chunks, eager, ending⟩ := source
  cases chunks with
  | nil =>
      refine ⟨rfl, Nat.zero_le max, rfl, ?_, nofun⟩
      intro error reported
      cases reported
      exact ⟨rfl, rfl⟩
  | cons chunk chunks =>
      by_cases fits : chunk.length ≤ max
      · have result : Source.read max ⟨chunk :: chunks, eager, ending⟩ =
            ⟨chunk, if chunks = [] ∧ eager then some ending else none,
              ⟨chunks, eager, ending⟩⟩ := if_pos fits
        rw [result]
        refine ⟨rfl, fits, rfl, ?_, ?_⟩
        · intro error reported
          dsimp only at reported
          split at reported
          · rename_i atEnd
            cases reported
            refine ⟨rfl, ?_⟩
            rw [bytes, atEnd.1]
            rfl
          · cases reported
        · intro _ _
          simp only [weight, bytes, List.flatten_cons, List.length_append,
            List.length_cons]
          omega
      · have result : Source.read max ⟨chunk :: chunks, eager, ending⟩ =
            ⟨chunk.take max, none, ⟨chunk.drop max :: chunks, eager,
              ending⟩⟩ := if_neg fits
        rw [result]
        refine ⟨?_, List.length_take_le _ _, rfl, nofun, ?_⟩
        · simp only [bytes, List.flatten_cons]
          rw [← List.append_assoc, List.take_append_drop]
        · intro positive _
          simp only [weight, bytes, List.flatten_cons, List.length_append,
            List.length_cons, List.length_drop]
          omega

/-- A call that reports the end has returned all that was left. -/
theorem read_last {max : Nat} {source rest : Source} {data : List UInt8}
    {error : Error} (result : source.read max = ⟨data, some error, rest⟩) :
    source.bytes = data ∧ data.length ≤ max ∧
      rest.ending = source.ending ∧ error = source.ending ∧
      rest.bytes = [] := by
  have reads := source.read_reads max
  rw [result] at reads
  obtain ⟨same, isLast⟩ := reads.last error rfl
  refine ⟨?_, reads.length, reads.ending, same, isLast⟩
  rw [reads.bytes, isLast, List.append_nil]

/-- The loop of `io.ReadAtLeast`, with the bytes that it has got. -/
def readAtLeast (size : Nat) (got : List UInt8) (source : Source) : Outcome :=
  if size ≤ got.length then ⟨got, none, source⟩
  else
    match _ : source.read (size - got.length) with
    | ⟨data, none, rest⟩ => readAtLeast size (got ++ data) rest
    | ⟨data, some error, rest⟩ =>
        if size ≤ (got ++ data).length then ⟨got ++ data, none, rest⟩
        else if got ++ data ≠ [] ∧ error = .eof then
          ⟨got ++ data, some .unexpectedEOF, rest⟩
        else ⟨got ++ data, some error, rest⟩
termination_by source.weight
decreasing_by
  rename_i result
  have reads := source.read_reads (size - got.length)
  rw [result] at reads
  exact reads.progress (by omega) rfl

def readFull (size : Nat) (source : Source) : Outcome :=
  readAtLeast size [] source

/-- The loop of `io.CopyN`, with the number of bytes that are left.  The
buffer has 32 KiB. -/
def copyN (left : Nat) (written : List UInt8) (source : Source) : Outcome :=
  if left = 0 then ⟨written, none, source⟩
  else
    match _ : source.read (min 32768 left) with
    | ⟨data, none, rest⟩ =>
        copyN (left - data.length) (written ++ data) rest
    | ⟨data, some error, rest⟩ =>
        if data.length = left then ⟨written ++ data, none, rest⟩
        else ⟨written ++ data, some error, rest⟩
termination_by source.weight
decreasing_by
  rename_i result
  have reads := source.read_reads (min 32768 left)
  rw [result] at reads
  exact reads.progress (by omega) rfl

/-- The error of a stream that ends before enough bytes are read. -/
def shortError (read : List UInt8) (ending : Error) : Error :=
  if read ≠ [] ∧ ending = .eof then .unexpectedEOF else ending

theorem readAtLeast_spec (size : Nat) (got : List UInt8) (source : Source)
    (room : got.length ≤ size) :
    ∃ rest : Source, rest.ending = source.ending ∧
      (size ≤ (got ++ source.bytes).length ∧
          readAtLeast size got source =
            ⟨(got ++ source.bytes).take size, none, rest⟩ ∧
          rest.bytes = (got ++ source.bytes).drop size ∨
        (got ++ source.bytes).length < size ∧
          readAtLeast size got source = ⟨got ++ source.bytes,
            some (shortError (got ++ source.bytes) source.ending), rest⟩) := by
  fun_induction readAtLeast size got source with
  | case1 got source enough =>
      have exact : size = got.length := by omega
      refine ⟨source, rfl, .inl ⟨?_, ?_, ?_⟩⟩
      · rw [List.length_append]
        omega
      · rw [exact, List.take_left]
      · rw [exact, List.drop_left]
  | case2 got source short data rest result induction =>
      have reads := source.read_reads (size - got.length)
      rw [result] at reads
      have length : data.length ≤ size - got.length := reads.length
      obtain ⟨final, ending, spec⟩ := induction (by
        rw [List.length_append]
        omega)
      have same : got ++ data ++ rest.bytes = got ++ source.bytes := by
        rw [reads.bytes, List.append_assoc]
      have sameEnding : rest.ending = source.ending := reads.ending
      rw [same, sameEnding] at spec
      exact ⟨final, ending.trans sameEnding, spec⟩
  | case3 got source short data error rest result enough =>
      obtain ⟨whole, length, ending, -, isLast⟩ := read_last result
      rw [List.length_append] at enough
      refine ⟨rest, ending, .inl ⟨?_, ?_, ?_⟩⟩
      · rw [whole, List.length_append]
        exact enough
      · rw [whole, List.take_of_length_le (by rw [List.length_append]; omega)]
      · rw [whole, List.drop_of_length_le (by rw [List.length_append]; omega)]
        exact isLast
  | case4 got source short data error rest result missing fromEOF =>
      obtain ⟨whole, -, ending, same, -⟩ := read_last result
      refine ⟨rest, ending, .inr ⟨?_, ?_⟩⟩
      · rw [whole]
        exact Nat.not_le.mp missing
      · rw [whole, ← same, shortError, if_pos fromEOF]
  | case5 got source short data error rest result missing other =>
      obtain ⟨whole, -, ending, same, -⟩ := read_last result
      refine ⟨rest, ending, .inr ⟨?_, ?_⟩⟩
      · rw [whole]
        exact Nat.not_le.mp missing
      · rw [whole, ← same, shortError, if_neg other]

/-- `io.ReadFull` gets its bytes, or the stream has too few of them. -/
theorem readFull_spec (size : Nat) (source : Source) :
    ∃ rest : Source, rest.ending = source.ending ∧
      (size ≤ source.bytes.length ∧
          readFull size source = ⟨source.bytes.take size, none, rest⟩ ∧
          rest.bytes = source.bytes.drop size ∨
        source.bytes.length < size ∧
          readFull size source = ⟨source.bytes,
            some (shortError source.bytes source.ending), rest⟩) :=
  readAtLeast_spec size [] source (Nat.zero_le size)

/-- What is left of a stream after a number of its bytes. -/
theorem readFull_rest {size : Nat} {source rest : Source}
    {data : List UInt8} (result : readFull size source = ⟨data, none, rest⟩) :
    source.bytes = data ++ rest.bytes ∧ data.length = size ∧
      rest.ending = source.ending := by
  obtain ⟨final, ending, ⟨enough, read, left⟩ | ⟨-, failed⟩⟩ :=
    readFull_spec size source
  · cases result.symm.trans read
    refine ⟨?_, ?_, ending⟩
    · rw [left, List.take_append_drop]
    · rw [List.length_take]
      omega
  · cases result.symm.trans failed

theorem copyN_spec (left : Nat) (written : List UInt8) (source : Source) :
    ∃ rest : Source, rest.ending = source.ending ∧
      (left ≤ source.bytes.length ∧
          copyN left written source =
            ⟨written ++ source.bytes.take left, none, rest⟩ ∧
          rest.bytes = source.bytes.drop left ∨
        source.bytes.length < left ∧
          copyN left written source =
            ⟨written ++ source.bytes, some source.ending, rest⟩) := by
  fun_induction copyN left written source with
  | case1 written source =>
      refine ⟨source, rfl, .inl ⟨Nat.zero_le _, ?_, rfl⟩⟩
      rw [List.take_zero, List.append_nil]
  | case2 left written source more data rest result induction =>
      have reads := source.read_reads (min 32768 left)
      rw [result] at reads
      have length : data.length ≤ min 32768 left := reads.length
      have split : source.bytes = data ++ rest.bytes := reads.bytes
      have sameEnding : rest.ending = source.ending := reads.ending
      obtain ⟨final, ending, spec⟩ := induction
      refine ⟨final, ending.trans sameEnding, ?_⟩
      rw [split, List.length_append]
      have fits : data.length ≤ left := by omega
      rcases spec with ⟨enough, copied, leaves⟩ | ⟨short, copied⟩
      · refine .inl ⟨by omega, ?_, ?_⟩
        · rw [copied, List.take_append, List.take_of_length_le fits,
            List.append_assoc]
        · rw [leaves, List.drop_append, List.drop_of_length_le fits,
            List.nil_append]
      · refine .inr ⟨by omega, ?_⟩
        rw [copied, sameEnding, List.append_assoc]
  | case3 written source data error rest more result =>
      obtain ⟨whole, -, ending, -, isLast⟩ := read_last result
      refine ⟨rest, ending, .inl ⟨?_, ?_, ?_⟩⟩
      · exact Nat.le_of_eq (congrArg List.length whole).symm
      · rw [whole, List.take_length]
      · rw [whole, List.drop_length]
        exact isLast
  | case4 left written source more data error rest result short =>
      obtain ⟨whole, length, ending, same, -⟩ := read_last result
      refine ⟨rest, ending, .inr ⟨?_, ?_⟩⟩
      · rw [whole]
        omega
      · rw [whole, same]

theorem copyN_rest {size : Nat} {source rest : Source} {data : List UInt8}
    (result : copyN size [] source = ⟨data, none, rest⟩) :
    source.bytes = data ++ rest.bytes := by
  obtain ⟨final, -, ⟨-, copied, left⟩ | ⟨-, failed⟩⟩ :=
    copyN_spec size [] source
  · cases result.symm.trans copied
    rw [left, List.nil_append, List.take_append_drop]
  · cases result.symm.trans failed

end Stream
