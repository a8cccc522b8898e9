import Mathlib.Logic.Basic
import Nephos.Library.Base64

/-!
# The API token

The daemon keeps its token in a file of its volume, the host copies it out of
the appliance in an archive, and the command line reads the copy.  Each place
checks the token by itself: the host and the command line encode what they
decoded and compare, the daemon does not.
-/

namespace Nephos

/-- A file as `os.Lstat` and `os.ReadFile` see it. -/
structure LocalFile where
  regular : Bool
  perm : Nat
  size : Nat
  content : Except String (List UInt8)

inductive FileError where
  /-- `os.ErrNotExist`. -/
  | notExist
  | failed (text : String)
deriving DecidableEq, Repr

/-- A regular file with a content. -/
def LocalFile.plain (perm : Nat) (data : List UInt8) : LocalFile :=
  { regular := true, perm, size := data.length, content := .ok data }

def byteChar (byte : UInt8) : Char := Char.ofNat byte.toNat

/-- `base64.RawURLEncoding.DecodeString`. -/
def rawURLDecode (data : List UInt8) : Option (List UInt8) :=
  Base64.decode (data.map byteChar)

/-- `base64.RawURLEncoding.EncodeToString`. -/
def rawURLEncode (raw : List UInt8) : List UInt8 :=
  (Base64.encode raw).map fun char => UInt8.ofNat char.toNat

def tokenBytes : Nat := 32

/-- `load` of the credentials. -/
def loadToken (file : Except FileError LocalFile) :
    Except FileError (List UInt8) :=
  match file with
  | .error .notExist => .error .notExist
  | .error (.failed text) => .error (.failed ("checking API token: " ++ text))
  | .ok file =>
      if ¬ file.regular ∨ file.perm ≠ 0o600 then
        .error (.failed "API token file must be regular with mode 0600")
      else
        match file.content with
        | .error text => .error (.failed ("reading API token: " ++ text))
        | .ok data =>
            match rawURLDecode data with
            | none => .error (.failed "API token file is malformed")
            | some raw =>
                if raw.length ≠ tokenBytes then
                  .error (.failed "API token file is malformed")
                else .ok data

inductive OpenError where
  /-- `os.ErrExist`. -/
  | exists
  | failed (text : String)

/-- The results of the calls of `LoadOrCreate`, in their order. -/
structure TokenCalls where
  first : Except FileError LocalFile
  mkdir : Except String Unit
  random : Except String { raw : List UInt8 // raw.length = tokenBytes }
  opened : Except OpenError Unit
  second : Except FileError LocalFile
  written : Except String Unit
  closed : Except String Unit

def loadOrCreate (calls : TokenCalls) : Except FileError (List UInt8) :=
  match loadToken calls.first with
  | .ok token => .ok token
  | .error (.failed text) => .error (.failed text)
  | .error .notExist =>
      match calls.mkdir, calls.random with
      | .error text, _ =>
          .error (.failed ("creating API secret directory: " ++ text))
      | _, .error text => .error (.failed ("generating API token: " ++ text))
      | .ok (), .ok raw =>
          match calls.opened with
          | .error .exists => loadToken calls.second
          | .error (.failed text) =>
              .error (.failed ("creating API token: " ++ text))
          | .ok () =>
              match calls.written, calls.closed with
              | .error text, _ =>
                  .error (.failed ("writing API token: " ++ text))
              | _, .error text =>
                  .error (.failed ("closing API token: " ++ text))
              | .ok (), .ok () => .ok (rawURLEncode raw)

def maxTokenBytes : Nat := 128

structure TarHeader where
  name : String
  typeflag : Char
  size : Int

inductive TarError where
  | eof
  | failed (text : String)
deriving DecidableEq

/-- An archive as the reader of `archive/tar` presents it: its entries, and
how it ends. -/
structure Archive where
  entries : List (TarHeader × Except String (List UInt8))
  ending : TarError

def TarError.text : TarError → String
  | .eof => "EOF"
  | .failed text => text

def extractToken (archive : Archive) : Except String (List UInt8) :=
  match archive.entries with
  | [] => .error ("read credential archive: " ++ archive.ending.text)
  | (header, content) :: rest =>
      if header.name ≠ "api-token" ∨ header.typeflag ≠ '0' ∨
          header.size < 1 ∨ (maxTokenBytes : Int) < header.size then
        .error "credential archive has an unexpected entry"
      else
        match content with
        | .error text => .error ("read credential token: " ++ text)
        | .ok data =>
            let token := data.take (maxTokenBytes + 1)
            if (token.length : Int) ≠ header.size then
              .error "credential archive token size mismatch"
            else
              match rawURLDecode token with
              | none => .error "credential archive token is malformed"
              | some raw =>
                  if raw.length ≠ 32 ∨ rawURLEncode raw ≠ token then
                    .error "credential archive token is malformed"
                  else if rest.isEmpty ∧ archive.ending = .eof then .ok token
                  else .error ("credential archive must contain exactly " ++
                    "one regular token file")

/-- The archive with the token as its only entry. -/
def Archive.single (data : List UInt8) : Archive :=
  { entries := [({ name := "api-token", typeflag := '0'
                   size := data.length }, .ok data)]
    ending := .eof }

def loadCredential (file : Except FileError LocalFile) :
    Except String (List UInt8) :=
  match file with
  | .error .notExist =>
      .error "read ~/.nephos/credentials: no such file or directory"
  | .error (.failed text) => .error ("read ~/.nephos/credentials: " ++ text)
  | .ok file =>
      if ¬ file.regular ∨ file.perm % 64 ≠ 0 ∨ 128 < file.size then
        .error "credential file must be a private regular file"
      else
        match file.content with
        | .error text => .error ("read credential file: " ++ text)
        | .ok data =>
            match rawURLDecode data with
            | none => .error "credential file is malformed"
            | some raw =>
                if raw.length ≠ 32 ∨ rawURLEncode raw ≠ data then
                  .error "credential file is malformed"
                else .ok data

/-- The text of 32 bytes. -/
def CanonicalToken (data : List UInt8) : Prop :=
  ∃ raw, raw.length = tokenBytes ∧ rawURLEncode raw = data

/-- The numbers of the letters, without line breaks, if there are no other
characters. -/
def letters (data : List UInt8) : Option (List Nat) :=
  ((data.map byteChar).filter fun char => char ≠ '\n' ∧ char ≠ '\r').mapM
    Base64.value?

/-- A text of 43 letters has no line breaks, and the last letter has no
unused bits. -/
def Unambiguous (data : List UInt8) : Prop :=
  ∀ values, letters data = some values → values.length = 43 →
    data.length = 43 ∧ Base64.unused values = 0

theorem rawURLDecode_eq (data : List UInt8) :
    rawURLDecode data = (letters data).bind Base64.join := rfl

theorem byteChar_inverse : ∀ number < 256,
    UInt8.ofNat (byteChar (UInt8.ofNat number)).toNat =
      UInt8.ofNat number := by
  decide +kernel

theorem byteChar_digit : ∀ value < 64,
    byteChar (UInt8.ofNat (Base64.digit value).toNat) =
      Base64.digit value := by
  decide +kernel

/-- Texts of letters are compared letter by letter. -/
theorem rawURLEncode_eq_iff {raw data : List UInt8} :
    rawURLEncode raw = data ↔ Base64.encode raw = data.map byteChar := by
  constructor
  · rintro rfl
    rw [rawURLEncode, List.map_map]
    symm
    calc (Base64.encode raw).map _ = (Base64.encode raw).map id := by
          apply List.map_congr_left
          intro char member
          obtain ⟨value, inside, rfl⟩ := List.mem_map.mp member
          exact byteChar_digit value (Base64.split_lt raw value inside)
      _ = Base64.encode raw := List.map_id _
  · intro same
    rw [rawURLEncode, same, List.map_map]
    calc data.map _ = data.map id := by
          apply List.map_congr_left
          intro byte _
          have inverse := byteChar_inverse byte.toNat byte.toNat_lt
          rw [UInt8.ofNat_toNat] at inverse
          exact inverse
      _ = data := List.map_id _

/-- A text decodes to 32 bytes if it has 43 letters. -/
theorem decodes_iff {data : List UInt8} :
    (∃ raw, rawURLDecode data = some raw ∧ raw.length = 32) ↔
      ∃ values, letters data = some values ∧ values.length = 43 := by
  rw [rawURLDecode_eq]
  constructor
  · rintro ⟨raw, decoded, count⟩
    obtain ⟨values, found, joined⟩ := Option.bind_eq_some_iff.mp decoded
    have length := Base64.join_length joined
    exact ⟨values, found, by omega⟩
  · rintro ⟨values, found, count⟩
    have fits : values.length % 4 ≠ 1 := by omega
    obtain ⟨raw, joined⟩ :=
      Option.isSome_iff_exists.mp (Base64.join_isSome fits)
    refine ⟨raw, ?_, ?_⟩
    · rw [found]
      exact joined
    · rw [Base64.join_length joined, count]

/-- The canonical tokens are the texts of 43 letters with neither line breaks
nor unused bits. -/
theorem canonicalToken_iff {data : List UInt8} :
    CanonicalToken data ↔ ∃ values, letters data = some values ∧
      values.length = 43 ∧ data.length = 43 ∧ Base64.unused values = 0 := by
  constructor
  · rintro ⟨raw, count, encoded⟩
    have chars := rawURLEncode_eq_iff.mp encoded
    have small := Base64.split_lt raw
    have joined := Base64.join_split raw
    have length : (Base64.split raw).length = 43 := by
      have bytes := Base64.join_length joined
      rw [count, tokenBytes] at bytes
      omega
    refine ⟨Base64.split raw, ?_, length, ?_, ?_⟩
    · rw [letters, ← chars, Base64.filter_encode, Base64.encode,
        Base64.mapM_value?_digit small]
    · have whole := congrArg List.length chars
      rw [Base64.encode, List.length_map, List.length_map, length] at whole
      exact whole.symm
    · exact (Base64.split_join_iff small joined).mp rfl
  · rintro ⟨values, found, length, whole, zero⟩
    obtain ⟨raw, decoded, count⟩ := decodes_iff.mpr ⟨values, found, length⟩
    have joined : Base64.join values = some raw := by
      rw [rawURLDecode_eq, found] at decoded
      exact decoded
    obtain ⟨small, digits⟩ := Base64.map_digit_of_mapM found
    refine ⟨raw, count, rawURLEncode_eq_iff.mpr ?_⟩
    -- No character was skipped, because none is missing.
    have visible : (data.map byteChar).filter
        (fun char => char ≠ '\n' ∧ char ≠ '\r') = data.map byteChar := by
      apply List.filter_sublist.eq_of_length
      rw [← digits, List.length_map, List.length_map, length, whole]
    rw [Base64.encode, (Base64.split_join_iff small joined).mpr zero, digits,
      visible]

/-- Encoding again what was decoded gives the text back for the canonical
tokens only. -/
theorem reencodes_iff {data : List UInt8} :
    (∃ raw, rawURLDecode data = some raw ∧
        ¬ (raw.length ≠ 32 ∨ rawURLEncode raw ≠ data)) ↔
      CanonicalToken data := by
  constructor
  · rintro ⟨raw, -, fine⟩
    rw [not_or, not_not, not_not] at fine
    exact ⟨raw, fine.1, fine.2⟩
  · rintro ⟨raw, count, encoded⟩
    refine ⟨raw, ?_, ?_⟩
    · rw [rawURLDecode, ← rawURLEncode_eq_iff.mp encoded]
      exact Base64.decode_encode raw
    · rw [not_or, not_not, not_not]
      exact ⟨count, encoded⟩

theorem canonicalToken_length {data : List UInt8}
    (canonical : CanonicalToken data) : data.length = 43 := by
  obtain ⟨-, -, -, whole, -⟩ := canonicalToken_iff.mp canonical
  exact whole

theorem loadToken_iff {data : List UInt8} :
    loadToken (.ok (.plain 0o600 data)) = .ok data ↔
      ∃ values, letters data = some values ∧ values.length = 43 := by
  rw [← decodes_iff]
  simp only [loadToken, LocalFile.plain]
  rw [if_neg (by simp)]
  cases rawURLDecode data with
  | none => simp
  | some raw =>
      by_cases count : raw.length = 32 <;> simp [tokenBytes, count]

theorem loadCredential_iff {data : List UInt8} {perm : Nat}
    (closed : perm % 64 = 0) :
    loadCredential (.ok (.plain perm data)) = .ok data ↔
      CanonicalToken data := by
  rw [← reencodes_iff]
  simp only [loadCredential, LocalFile.plain]
  by_cases short : 128 < data.length
  · rw [if_pos (.inr (.inr short))]
    refine iff_of_false nofun ?_
    rw [reencodes_iff]
    intro canonical
    have length := canonicalToken_length canonical
    omega
  · rw [if_neg (by simp [closed, short])]
    cases rawURLDecode data with
    | none => simp
    | some raw =>
        constructor
        · intro accepted
          by_cases wrong : raw.length ≠ 32 ∨ rawURLEncode raw ≠ data
          · cases (if_pos wrong).symm.trans accepted
          · exact ⟨raw, rfl, wrong⟩
        · rintro ⟨other, same, fine⟩
          cases same
          exact if_neg fine

theorem extractToken_iff {data : List UInt8} :
    extractToken (.single data) = .ok data ↔ CanonicalToken data := by
  rw [← reencodes_iff]
  simp only [extractToken, Archive.single]
  have limit : (maxTokenBytes : Int) = 128 := rfl
  by_cases fits : 1 ≤ data.length ∧ data.length ≤ 128
  · have whole : data.take (maxTokenBytes + 1) = data :=
      List.take_of_length_le (by rw [maxTokenBytes]; omega)
    have expected : ¬ ("api-token" ≠ "api-token" ∨ '0' ≠ '0' ∨
        (data.length : Int) < 1 ∨ (maxTokenBytes : Int) < data.length) := by
      rintro (name | flag | empty | long)
      · exact name rfl
      · exact flag rfl
      · omega
      · omega
    rw [if_neg expected, whole, if_neg (not_not.mpr rfl)]
    cases rawURLDecode data with
    | none => simp
    | some raw =>
        constructor
        · intro accepted
          by_cases wrong : raw.length ≠ 32 ∨ rawURLEncode raw ≠ data
          · cases (if_pos wrong).symm.trans accepted
          · exact ⟨raw, rfl, wrong⟩
        · rintro ⟨other, same, fine⟩
          cases same
          exact (if_neg fine).trans (if_pos ⟨rfl, trivial⟩)
  · have unexpected : "api-token" ≠ "api-token" ∨ '0' ≠ '0' ∨
        (data.length : Int) < 1 ∨ (maxTokenBytes : Int) < data.length := by
      right
      right
      omega
    rw [if_pos unexpected]
    refine iff_of_false nofun ?_
    rw [reencodes_iff]
    intro canonical
    have length := canonicalToken_length canonical
    omega

/-- What the daemon reads has 43 letters. -/
theorem loadToken_letters {file : Except FileError LocalFile}
    {token : List UInt8} (loads : loadToken file = .ok token) :
    ∃ values, letters token = some values ∧ values.length = 43 := by
  rw [← decodes_iff]
  unfold loadToken at loads
  split at loads
  · cases loads
  · cases loads
  · split at loads
    · cases loads
    · split at loads
      · cases loads
      · split at loads
        · cases loads
        · rename_i raw decoded
          by_cases count : raw.length ≠ tokenBytes
          · cases (if_pos count).symm.trans loads
          · rw [if_neg count] at loads
            cases loads
            exact ⟨raw, decoded, not_not.mp count⟩

/-- The daemon runs with a token that it wrote in canonical form, or with one
of 43 letters that it found. -/
theorem loadOrCreate_cases {calls : TokenCalls} {token : List UInt8}
    (runs : loadOrCreate calls = .ok token) :
    CanonicalToken token ∨
      ∃ values, letters token = some values ∧ values.length = 43 := by
  unfold loadOrCreate at runs
  split at runs
  · rename_i loads
    cases runs
    exact .inr (loadToken_letters loads)
  · cases runs
  · split at runs
    · cases runs
    · cases runs
    · rename_i raw _ _
      split at runs
      · exact .inr (loadToken_letters runs)
      · cases runs
      · split at runs
        · cases runs
        · cases runs
        · cases runs
          exact .inl ⟨raw.val, raw.property, rfl⟩

/-- The daemon's check is the check for canonical tokens exactly on the
unambiguous texts. -/
theorem loadToken_agrees_iff {data : List UInt8} :
    (loadToken (.ok (.plain 0o600 data)) = .ok data ↔
      CanonicalToken data) ↔ Unambiguous data := by
  rw [loadToken_iff, canonicalToken_iff]
  constructor
  · intro same values found length
    obtain ⟨others, also, -, whole, zero⟩ := same.mp ⟨values, found, length⟩
    cases found.symm.trans also
    exact ⟨whole, zero⟩
  · intro unambiguous
    constructor
    · rintro ⟨values, found, length⟩
      obtain ⟨whole, zero⟩ := unambiguous values found length
      exact ⟨values, found, length, whole, zero⟩
    · rintro ⟨values, found, length, -⟩
      exact ⟨values, found, length⟩

/-- The three checks accept the canonical tokens, and a token that the daemon
runs with can be saved and used, exactly if the text is unambiguous. -/
theorem token_checks_agree_iff (data : List UInt8) :
    ((loadToken (.ok (.plain 0o600 data)) = .ok data ↔
          CanonicalToken data) ∧
        (extractToken (.single data) = .ok data ↔ CanonicalToken data) ∧
        (∀ perm, perm % 64 = 0 →
          (loadCredential (.ok (.plain perm data)) = .ok data ↔
            CanonicalToken data)) ∧
        (∀ calls, loadOrCreate calls = .ok data →
          extractToken (.single data) = .ok data ∧
            ∀ perm, perm % 64 = 0 →
              loadCredential (.ok (.plain perm data)) = .ok data)) ↔
      Unambiguous data := by
  constructor
  · rintro ⟨loads, -⟩
    exact loadToken_agrees_iff.mp loads
  · intro unambiguous
    have loads := loadToken_agrees_iff.mpr unambiguous
    refine ⟨loads, extractToken_iff, fun perm => loadCredential_iff, ?_⟩
    intro calls runs
    have canonical : CanonicalToken data := by
      rcases loadOrCreate_cases runs with canonical | decodes
      · exact canonical
      · exact loads.mp (loadToken_iff.mpr decodes)
    exact ⟨extractToken_iff.mpr canonical,
      fun perm closed => (loadCredential_iff closed).mpr canonical⟩

/-- A token with a line break at its end runs the daemon, and the command
line refuses it. -/
theorem lineBreak_divides :
    loadToken (.ok (.plain 0o600 (List.replicate 43 65 ++ [10]))) =
        .ok (List.replicate 43 65 ++ [10]) ∧
      extractToken (.single (List.replicate 43 65 ++ [10])) =
        .error "credential archive token is malformed" ∧
      loadCredential (.ok (.plain 0o600 (List.replicate 43 65 ++ [10]))) =
        .error "credential file is malformed" := by
  exact ⟨rfl, rfl, rfl⟩

end Nephos
