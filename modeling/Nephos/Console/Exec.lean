import Nephos.Library.Stream

/-!
# The output of a session

Without a terminal, the runtime sends both output streams of a command over
one connection: frames of a channel, a length and a payload.  `demux` takes
them apart again.
-/

namespace Nephos.Console

open Stream

inductive Channel where
  | stdout
  | stderr
deriving DecidableEq, Repr

/-- What has been written to the two ends of a session. -/
structure Output where
  stdout : List UInt8
  stderr : List UInt8
deriving DecidableEq, Repr

def Output.write (output : Output) (data : List UInt8) : Channel → Output
  | .stdout => { output with stdout := output.stdout ++ data }
  | .stderr => { output with stderr := output.stderr ++ data }

/-- `binary.BigEndian.Uint32`. -/
def bigEndian : List UInt8 → Nat
  | [a, b, c, d] =>
      ((a.toNat * 256 + b.toNat) * 256 + c.toNat) * 256 + d.toNat
  | _ => 0

def Channel.ofByte? (byte : UInt8) : Option Channel :=
  if byte = 1 then some .stdout else if byte = 2 then some .stderr else none

def demux (reader : Source) (output : Output) : Option String × Output :=
  match _ : readFull 8 reader with
  | ⟨_, some .eof, _⟩ => (none, output)
  | ⟨_, some error, _⟩ =>
      (some ("exec stream header: " ++ error.text), output)
  | ⟨header, none, following⟩ =>
      if header.getD 1 0 ≠ 0 ∨ header.getD 2 0 ≠ 0 ∨ header.getD 3 0 ≠ 0 then
        (some "invalid exec stream header", output)
      else
        match Channel.ofByte? (header.getD 0 0) with
        | none => (some ("invalid exec stream channel " ++
            toString (header.getD 0 0).toNat), output)
        | some channel =>
            match _ : copyN (bigEndian (header.drop 4)) [] following with
            | ⟨payload, some error, _⟩ =>
                (some ("exec stream payload: " ++ error.text),
                  output.write payload channel)
            | ⟨payload, none, rest⟩ =>
                demux rest (output.write payload channel)
termination_by reader.bytes.length
decreasing_by
  rename_i read _ copied
  have copies := congrArg List.length (copyN_rest copied)
  obtain ⟨reads, length, -⟩ := readFull_rest read
  have total := congrArg List.length reads
  rw [List.length_append] at copies total
  omega

def Channel.byte : Channel → UInt8
  | .stdout => 1
  | .stderr => 2

/-- The header of a frame. -/
def header (channel : Channel) (size : Nat) : List UInt8 :=
  [channel.byte, 0, 0, 0, UInt8.ofNat (size / 2 ^ 24),
    UInt8.ofNat (size / 2 ^ 16), UInt8.ofNat (size / 2 ^ 8),
    UInt8.ofNat size]

structure Frame where
  channel : Channel
  payload : List UInt8
  fits : payload.length < 2 ^ 32

def Frame.encode (frame : Frame) : List UInt8 :=
  header frame.channel frame.payload.length ++ frame.payload

/-- The payloads on a channel, one after the other. -/
def payloads (channel : Channel) (frames : List Frame) : List UInt8 :=
  (frames.filter fun frame => frame.channel = channel).flatMap Frame.payload

def received (frames : List Frame) : Output :=
  ⟨payloads .stdout frames, payloads .stderr frames⟩

def Output.append (output more : Output) : Output :=
  ⟨output.stdout ++ more.stdout, output.stderr ++ more.stderr⟩

theorem append_received_cons (output : Output) (frame : Frame)
    (frames : List Frame) :
    output.append (received (frame :: frames)) =
      (output.write frame.payload frame.channel).append (received frames) := by
  obtain ⟨channel, payload, fits⟩ := frame
  cases channel <;>
    simp [Output.append, Output.write, received, payloads]

/-- Bytes that do not begin with a whole frame, and the part of a payload
before the point where they break off or go wrong. -/
inductive Broken : List UInt8 → Option (List UInt8 × Channel) → Prop where
  | shortHeader {tail : List UInt8} : tail ≠ [] → tail.length < 8 →
      Broken tail none
  | malformed {first tail : List UInt8} : first.length = 8 →
      (∀ channel size, size < 2 ^ 32 → first ≠ header channel size) →
      Broken (first ++ tail) none
  | shortPayload {channel : Channel} {size : Nat} {part : List UInt8} :
      size < 2 ^ 32 → part.length < size →
      Broken (header channel size ++ part) (some (part, channel))

theorem bigEndian_header (channel : Channel) {size : Nat}
    (fits : size < 2 ^ 32) :
    bigEndian ((header channel size).drop 4) = size := by
  simp only [header, List.drop_succ_cons, List.drop_zero, bigEndian,
    UInt8.toNat_ofNat']
  omega

theorem ofByte?_byte (channel : Channel) :
    Channel.ofByte? channel.byte = some channel := by
  cases channel <;> rfl

theorem byte_of_ofByte? {byte : UInt8} {channel : Channel}
    (isChannel : Channel.ofByte? byte = some channel) :
    byte = channel.byte := by
  unfold Channel.ofByte? at isChannel
  split at isChannel
  · cases isChannel
    assumption
  · split at isChannel
    · cases isChannel
      assumption
    · cases isChannel

/-- A header that passes the checks is the header of its channel and size. -/
theorem eq_header {first : List UInt8} {channel : Channel}
    (length : first.length = 8)
    (zeros : ¬ (first.getD 1 0 ≠ 0 ∨ first.getD 2 0 ≠ 0 ∨ first.getD 3 0 ≠ 0))
    (isChannel : Channel.ofByte? (first.getD 0 0) = some channel) :
    bigEndian (first.drop 4) < 2 ^ 32 ∧
      first = header channel (bigEndian (first.drop 4)) := by
  match first, length with
  | [a, b, c, d, e, f, g, h], _ =>
      have kind : a = channel.byte := byte_of_ofByte? isChannel
      simp only [List.getD_cons_succ, List.getD_cons_zero, ne_eq, not_or,
        not_not] at zeros
      obtain ⟨rfl, rfl, rfl⟩ := zeros
      have eBound := e.toNat_lt
      have fBound := f.toNat_lt
      have gBound := g.toNat_lt
      have hBound := h.toNat_lt
      simp only [List.drop_succ_cons, List.drop_zero, bigEndian, header,
        List.cons.injEq, and_true, true_and, ← UInt8.toNat_inj,
        UInt8.toNat_ofNat']
      refine ⟨by omega, congrArg UInt8.toNat kind, ?_, ?_, ?_, ?_⟩ <;> omega

theorem header_length (channel : Channel) (size : Nat) :
    (header channel size).length = 8 := rfl

section Demux

variable {reader : Source} {output : Output}

theorem demux_nil (empty : reader.bytes = []) (ends : reader.ending = .eof) :
    demux reader output = (none, output) := by
  obtain ⟨rest, -, ⟨enough, -⟩ | ⟨-, read⟩⟩ := readFull_spec 8 reader
  · rw [empty] at enough
    cases enough
  · have failed : shortError reader.bytes reader.ending = .eof := by
      rw [shortError, if_neg (fun short => short.1 empty), ends]
    rw [failed] at read
    rw [demux]
    split
    · rfl
    · rename_i result
      cases result.symm.trans read
      contradiction
    · rename_i result
      cases result.symm.trans read

theorem demux_shortHeader {rest : Source}
    (read : readFull 8 reader = ⟨reader.bytes,
      some (shortError reader.bytes reader.ending), rest⟩)
    (nonempty : reader.bytes ≠ []) :
    ∃ error, demux reader output = (some error, output) := by
  have visible : shortError reader.bytes reader.ending ≠ .eof := by
    unfold shortError
    split
    · exact nofun
    · rename_i other
      exact fun eof => other ⟨nonempty, eof⟩
  rw [demux]
  split
  · rename_i result
    rw [result] at read
    injection read with _ same
    exact absurd (Option.some.inj same).symm visible
  · exact ⟨_, rfl⟩
  · rename_i result
    cases result.symm.trans read

/-- A header that is refused. -/
theorem demux_malformed {first : List UInt8} {following : Source}
    (read : readFull 8 reader = ⟨first, none, following⟩)
    (refused : (first.getD 1 0 ≠ 0 ∨ first.getD 2 0 ≠ 0 ∨ first.getD 3 0 ≠ 0) ∨
      Channel.ofByte? (first.getD 0 0) = none) :
    ∃ error, demux reader output = (some error, output) := by
  rw [demux]
  split
  · rename_i result
    cases result.symm.trans read
  · rename_i result
    cases result.symm.trans read
  · rename_i result
    cases result.symm.trans read
    split
    · exact ⟨_, rfl⟩
    · rename_i zeros
      rw [refused.resolve_left zeros]
      exact ⟨_, rfl⟩

/-- A header that is accepted, and its payload. -/
theorem demux_accepted {channel : Channel} {size : Nat} {following : Source}
    (fits : size < 2 ^ 32)
    (read : readFull 8 reader = ⟨header channel size, none, following⟩) :
    demux reader output =
      match copyN size [] following with
      | ⟨payload, some error, _⟩ =>
          (some ("exec stream payload: " ++ error.text),
            output.write payload channel)
      | ⟨payload, none, rest⟩ =>
          demux rest (output.write payload channel) := by
  have zeros : ¬ ((header channel size).getD 1 0 ≠ 0 ∨
      (header channel size).getD 2 0 ≠ 0 ∨
      (header channel size).getD 3 0 ≠ 0) := by
    simp [header]
  have isChannel : Channel.ofByte? ((header channel size).getD 0 0) =
      some channel := ofByte?_byte channel
  rw [demux]
  split
  · rename_i result
    cases result.symm.trans read
  · rename_i result
    cases result.symm.trans read
  · rename_i result
    cases result.symm.trans read
    rw [if_neg zeros]
    split
    · rename_i none
      cases none.symm.trans isChannel
    · rename_i some
      cases some.symm.trans isChannel
      rw [bigEndian_header channel fits]
      split <;> rename_i copied <;> rw [copied]

theorem readFull_header {channel : Channel} {size : Nat} {tail : List UInt8}
    (begins : reader.bytes = header channel size ++ tail) :
    ∃ following : Source, following.bytes = tail ∧
      following.ending = reader.ending ∧
      readFull 8 reader = ⟨header channel size, none, following⟩ := by
  obtain ⟨following, ending, ⟨-, read, left⟩ | ⟨short, -⟩⟩ :=
    readFull_spec 8 reader
  · rw [begins, ← header_length channel size, List.take_left] at read
    rw [begins, ← header_length channel size, List.drop_left] at left
    exact ⟨following, left, ending, read⟩
  · rw [begins, List.length_append, header_length] at short
    omega

variable (output) in
theorem demux_frame {frame : Frame} {tail : List UInt8}
    (begins : reader.bytes = frame.encode ++ tail) :
    ∃ rest : Source, rest.bytes = tail ∧ rest.ending = reader.ending ∧
      demux reader output =
        demux rest (output.write frame.payload frame.channel) := by
  rw [Frame.encode, List.append_assoc] at begins
  obtain ⟨following, bytes, ending, read⟩ := readFull_header begins
  rw [demux_accepted frame.fits read]
  obtain ⟨rest, sameEnding, ⟨-, copied, left⟩ | ⟨short, -⟩⟩ :=
    copyN_spec frame.payload.length [] following
  · rw [bytes, List.take_left] at copied
    rw [bytes, List.drop_left] at left
    refine ⟨rest, left, sameEnding.trans ending, ?_⟩
    rw [copied]
    rfl
  · rw [bytes, List.length_append] at short
    omega

/-- What the part of a payload adds. -/
def Output.writePart (output : Output) :
    Option (List UInt8 × Channel) → Output
  | none => output
  | some (part, channel) => output.write part channel

theorem demux_broken {part : Option (List UInt8 × Channel)}
    (broken : Broken reader.bytes part) :
    ∃ error, demux reader output = (some error, output.writePart part) := by
  generalize bytes : reader.bytes = tail at broken
  cases broken with
  | shortHeader nonempty short =>
      obtain ⟨rest, -, ⟨enough, -⟩ | ⟨-, read⟩⟩ := readFull_spec 8 reader
      · rw [bytes] at enough
        omega
      · exact demux_shortHeader read (bytes ▸ nonempty)
  | @malformed first tail length refused =>
      obtain ⟨following, -, ⟨-, read, -⟩ | ⟨short, -⟩⟩ :=
        readFull_spec 8 reader
      · rw [bytes, ← length, List.take_left, length] at read
        apply demux_malformed read
        by_contra accepted
        rw [not_or] at accepted
        obtain ⟨channel, isChannel⟩ :=
          Option.ne_none_iff_exists'.mp accepted.2
        obtain ⟨fits, same⟩ := eq_header length accepted.1 isChannel
        exact refused channel _ fits same
      · rw [bytes, List.length_append] at short
        omega
  | @shortPayload channel size part fits short =>
      obtain ⟨following, left, ending, read⟩ := readFull_header bytes
      rw [demux_accepted fits read]
      obtain ⟨rest, -, ⟨enough, -⟩ | ⟨-, copied⟩⟩ :=
        copyN_spec size [] following
      · rw [left] at enough
        omega
      · rw [copied, left]
        exact ⟨_, rfl⟩

variable (output) in
/-- Whole frames before anything else. -/
theorem demux_frames {frames : List Frame} {tail : List UInt8}
    (begins : reader.bytes = frames.flatMap Frame.encode ++ tail) :
    ∃ rest : Source, rest.bytes = tail ∧ rest.ending = reader.ending ∧
      demux reader output = demux rest (output.append (received frames)) := by
  induction frames generalizing reader output with
  | nil =>
      refine ⟨reader, begins, rfl, ?_⟩
      simp [Output.append, received, payloads]
  | cons frame frames induction =>
      rw [List.flatMap_cons, List.append_assoc] at begins
      obtain ⟨middle, left, ending, taken⟩ :=
        demux_frame output begins
      obtain ⟨rest, last, sameEnding, onward⟩ :=
        induction (output.write frame.payload frame.channel) left
      refine ⟨rest, last, sameEnding.trans ending, ?_⟩
      rw [append_received_cons]
      exact taken.trans onward

end Demux

/-- Every byte string is a list of frames, up to its end or to where it
breaks. -/
theorem frames_or_broken (bytes : List UInt8) :
    ∃ frames : List Frame, ∃ tail,
      bytes = frames.flatMap Frame.encode ++ tail ∧
        (tail = [] ∨ ∃ part, Broken tail part) := by
  induction length : bytes.length using Nat.strongRecOn
    generalizing bytes with
  | _ count induction =>
      by_cases short : bytes.length < 8
      · refine ⟨[], bytes, rfl, ?_⟩
        by_cases empty : bytes = []
        · exact .inl empty
        · exact .inr ⟨none, .shortHeader empty short⟩
      · have split : bytes = bytes.take 8 ++ bytes.drop 8 :=
          (List.take_append_drop 8 bytes).symm
        have eight : (bytes.take 8).length = 8 := by
          rw [List.length_take]
          omega
        by_cases good : ∃ channel size, size < 2 ^ 32 ∧
            bytes.take 8 = header channel size
        · obtain ⟨channel, size, fits, isHeader⟩ := good
          rw [isHeader] at split
          by_cases whole : size ≤ (bytes.drop 8).length
          · obtain ⟨frames, tail, rest, ended⟩ := induction
              ((bytes.drop 8).drop size).length (by
                simp only [List.length_drop]
                omega) _ rfl
            have sized : ((bytes.drop 8).take size).length = size := by
              rw [List.length_take]
              omega
            have small : ((bytes.drop 8).take size).length < 2 ^ 32 := by
              omega
            have encoded : Frame.encode ⟨channel, _, small⟩ =
                header channel size ++ (bytes.drop 8).take size := by
              dsimp only [Frame.encode]
              rw [sized]
            refine ⟨⟨channel, _, small⟩ :: frames, tail, ?_, ended⟩
            rw [List.flatMap_cons, List.append_assoc, ← rest, encoded,
              List.append_assoc, List.take_append_drop]
            exact split
          · refine ⟨[], bytes, rfl, .inr ⟨some (bytes.drop 8, channel), ?_⟩⟩
            rw [split]
            simp only [List.drop_left' (header_length channel size)]
            exact .shortPayload fits (Nat.not_le.mp whole)
        · refine ⟨[], bytes, rfl, .inr ⟨none, ?_⟩⟩
          rw [split]
          exact .malformed eight fun channel size fits isHeader =>
            good ⟨channel, size, fits, isHeader⟩

/-- `demux` accepts exactly the sequences of whole frames, in whatever chunks
they arrive, and takes them apart; of any other input it writes what comes
before the point where it breaks. -/
theorem demux_format (chunks : List (List UInt8)) (eager : Bool) :
    ((demux ⟨chunks, eager, .eof⟩ ⟨[], []⟩).1 = none ↔
      ∃ frames : List Frame, chunks.flatten = frames.flatMap Frame.encode) ∧
    (∀ frames : List Frame, chunks.flatten = frames.flatMap Frame.encode →
      demux ⟨chunks, eager, .eof⟩ ⟨[], []⟩ =
        (none, received frames)) ∧
    (∀ (frames : List Frame) tail part,
      chunks.flatten = frames.flatMap Frame.encode ++ tail →
      Broken tail part → ∃ error,
        demux ⟨chunks, eager, .eof⟩ ⟨[], []⟩ =
          (some error, (received frames).writePart part)) ∧
    ((¬ ∃ frames : List Frame,
        chunks.flatten = frames.flatMap Frame.encode) →
      ∃ (frames : List Frame) (tail : List UInt8)
          (part : Option (List UInt8 × Channel)),
        chunks.flatten = frames.flatMap Frame.encode ++ tail ∧
          Broken tail part) := by
  have whole (frames : List Frame)
      (same : chunks.flatten = frames.flatMap Frame.encode) :
      demux ⟨chunks, eager, .eof⟩ ⟨[], []⟩ =
        (none, received frames) := by
    have begins : Source.bytes ⟨chunks, eager, .eof⟩ =
        frames.flatMap Frame.encode ++ [] := by
      rw [List.append_nil]
      exact same
    obtain ⟨rest, left, ending, taken⟩ := demux_frames ⟨[], []⟩ begins
    rw [taken, demux_nil left ending]
    rfl
  have broken (frames : List Frame) (tail : List UInt8)
      (part : Option (List UInt8 × Channel))
      (same : chunks.flatten = frames.flatMap Frame.encode ++ tail)
      (breaks : Broken tail part) : ∃ error,
        demux ⟨chunks, eager, .eof⟩ ⟨[], []⟩ =
          (some error, (received frames).writePart part) := by
    obtain ⟨rest, left, -, taken⟩ := demux_frames ⟨[], []⟩
      (show Source.bytes ⟨chunks, eager, .eof⟩ = _ from same)
    rw [← left] at breaks
    rw [taken]
    exact demux_broken breaks
  obtain ⟨frames, tail, split, ended⟩ := frames_or_broken chunks.flatten
  refine ⟨⟨?_, ?_⟩, whole, broken, ?_⟩
  · intro accepted
    rcases ended with rfl | ⟨part, breaks⟩
    · exact ⟨frames, split.trans (List.append_nil _)⟩
    · obtain ⟨error, failed⟩ := broken frames tail part split breaks
      rw [failed] at accepted
      cases accepted
  · rintro ⟨frames, same⟩
    rw [whole frames same]
  · intro other
    rcases ended with rfl | ⟨part, breaks⟩
    · exact absurd ⟨frames, split.trans (List.append_nil _)⟩ other
    · exact ⟨frames, tail, part, split, breaks⟩

end Nephos.Console
