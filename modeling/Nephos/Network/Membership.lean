import Nephos.Library.Transaction
import Nephos.Text

/-!
# Which container a process belongs to

`OpenInstance` pins the network namespace of a process after it has checked
that the process belongs to a container.  The membership is read off the
process's cgroup file, whose content is a path.  Files of `/proc` are bytes, so
the text functions are those of `strings` on bytes.
-/

namespace Nephos

open Transaction

/-- The encodings of the characters of `unicode.IsSpace`. -/
def spaceEncodings : List (List UInt8) :=
  [[0x09], [0x0a], [0x0b], [0x0c], [0x0d], [0x20], [0xc2, 0x85],
    [0xc2, 0xa0], [0xe1, 0x9a, 0x80], [0xe2, 0x80, 0xa8], [0xe2, 0x80, 0xa9],
    [0xe2, 0x80, 0xaf], [0xe2, 0x81, 0x9f], [0xe3, 0x80, 0x80]] ++
  (List.range 11).map fun offset => [0xe2, 0x80, 0x80 + UInt8.ofNat offset]

/-- The first argument bounds the number of spaces. -/
def trimLeft (spaces : List (List UInt8)) : Nat → List UInt8 → List UInt8
  | 0, data => data
  | count + 1, data =>
      match spaces.find? fun space => space.isPrefixOf data with
      | none => data
      | some space => trimLeft spaces count (data.drop space.length)

/-- `strings.TrimSpace`.  No encoding of a space starts or ends inside another
character, so the spaces can be cut off as byte sequences. -/
def trimSpaceBytes (data : List UInt8) : List UInt8 :=
  let front := trimLeft spaceEncodings data.length data
  (trimLeft (spaceEncodings.map List.reverse) front.length
    front.reverse).reverse

/-- `strings.Fields`, with a bound on the number of bytes and the field read
so far. -/
def fieldsFrom : Nat → List UInt8 → List UInt8 → List (List UInt8)
  | 0, _, field => if field.isEmpty then [] else [field]
  | _, [], field => if field.isEmpty then [] else [field]
  | count + 1, byte :: rest, field =>
      match spaceEncodings.find? fun space =>
        space.isPrefixOf (byte :: rest) with
      | none => fieldsFrom count rest (field ++ [byte])
      | some space =>
          (if field.isEmpty then [] else [field]) ++
            fieldsFrom count ((byte :: rest).drop space.length) []

def fieldsBytes (data : List UInt8) : List (List UInt8) :=
  fieldsFrom data.length data []

/-- `strings.CutPrefix`. -/
def cutFront (front data : List UInt8) : Option (List UInt8) :=
  if front.isPrefixOf data then some (data.drop front.length) else none

inductive NumError where
  | invalid
  | outOfRange
deriving DecidableEq, Repr

/-- The digits of a 32-bit number after the number read so far. -/
def parseUint32From : Nat → List UInt8 → Except NumError Nat
  | number, [] => .ok number
  | number, byte :: rest =>
      if 48 ≤ byte ∧ byte ≤ 57 then
        let next := number * 10 + (byte.toNat - 48)
        if 2 ^ 32 ≤ next then .error .outOfRange
        else parseUint32From next rest
      else .error .invalid

/-- `strconv.ParseUint` in base 10 with 32 bits. -/
def parseUint32 (data : List UInt8) : Except NumError Nat :=
  if data.isEmpty then .error .invalid else parseUint32From 0 data

inductive TargetError where
  /-- The error of the context. -/
  | cancelled (cause : String)
  | refused (text : String)
  /-- The error of a call after a label. -/
  | failed (label cause : String)
  /-- The error of a number after a label. -/
  | number (label : String) (field : List UInt8) (cause : NumError)
deriving DecidableEq, Repr

def isRuntimeHex (byte : UInt8) : Bool :=
  (48 ≤ byte && byte ≤ 57) || (97 ≤ byte && byte ≤ 102)

/-- The source reads characters; a character outside ASCII is refused like
each of its bytes. -/
def validRuntimeID (id : List UInt8) : Bool :=
  id.length == 64 && id.all isRuntimeHex

/-- The components of the path of a cgroup file with one line. -/
def cgroupParts (raw : List UInt8) : List (List UInt8) :=
  match (trimSpaceBytes raw).splitOn 10 with
  | [line] =>
      match cutFront (Text.utf8 "0::/") line with
      | some path => path.splitOn 47
      | none => []
  | _ => []

def runtimeCgroupMatches (raw id : List UInt8) : Bool :=
  (cgroupParts raw).any fun part =>
    part == Text.utf8 "libpod-" ++ id ||
      part == Text.utf8 "libpod-" ++ id ++ Text.utf8 ".scope"

def parseRange (line : List UInt8) : Except TargetError (Nat × Nat × Nat) :=
  match fieldsBytes line with
  | [first, second, third] =>
      match parseUint32 first with
      | .error cause => .error (.number "decode mapped UID" first cause)
      | .ok inside =>
          match parseUint32 second with
          | .error cause => .error (.number "decode appliance UID" second cause)
          | .ok outside =>
              match parseUint32 third with
              | .error cause => .error (.number "decode UID range" third cause)
              | .ok count => .ok (inside, outside, count)
  | _ => .error (.refused "invalid instance UID mapping")

def validateRanges : List (List UInt8) → Except TargetError Unit
  | [] =>
      .error (.refused "instance root has no nonzero appliance UID mapping")
  | line :: lines =>
      match parseRange line with
      | .error failure => .error failure
      | .ok (inside, outside, count) =>
          if count = 0 ∨ 2 ^ 32 < outside + count ∨
              2 ^ 32 < inside + count then
            .error (.refused "invalid instance UID range")
          else if inside = 0 then
            if outside = 0 then
              .error (.refused "instance root maps to appliance root")
            else .ok ()
          else validateRanges lines

def validateRootMapping (raw : List UInt8) : Except TargetError Unit :=
  validateRanges ((trimSpaceBytes raw).splitOn 10)

structure FileIdentity where
  ino : Nat
  dev : Nat
deriving DecidableEq, Repr

/-- The results of the calls of `OpenInstance`, in their order. -/
structure ProcessView where
  starting : Except String Unit
  process : Except String Unit
  netns : Except String Unit
  filesystem : Except String Nat
  target : Except String FileIdentity
  rootNetns : Except String FileIdentity
  cgroup : Except String (Except String (List UInt8))
  uidMap : Except String (Except String (List UInt8))
  user : Except String Unit
  userStat : Except String FileIdentity
  rootUser : Except String FileIdentity
  owner : Except String Unit
  ownerStat : Except String FileIdentity
  finishing : Except String Unit

/-- `NSFS_MAGIC`. -/
def nsfsMagic : Nat := 0x6e736673

namespace OpenInstance

def attempt {α : Type} (label : String) (result : Except String α) :
    Except TargetError α :=
  result.mapError (.failed label)

def uncancelled (result : Except String Unit) : Except TargetError Unit :=
  result.mapError .cancelled

def refuse (wrong : Bool) (text : String) : Except TargetError Unit :=
  if wrong then .error (.refused text) else .ok ()

def read (path : String) (file : Except String (Except String (List UInt8))) :
    Except TargetError (List UInt8) := do
  let content ← attempt ("open process " ++ path) file
  let data ← attempt ("read process " ++ path) content
  let limited := data.take 65537
  refuse (65536 < limited.length)
    ("process " ++ path ++ " exceeds identity limit")
  return limited

end OpenInstance

open OpenInstance in
/-- `OpenInstance`, which returns the inode of the pinned namespace. -/
def openInstance (pid : Int) (runtimeID : List UInt8) (view : ProcessView) :
    Except TargetError Nat := do
  uncancelled view.starting
  refuse (pid ≤ 0 || !validRuntimeID runtimeID)
    "invalid instance PID or full runtime ID"
  attempt "open instance process" view.process
  attempt "open process ns/net" view.netns
  let magic ← attempt "inspect instance namespace filesystem" view.filesystem
  refuse (magic != nsfsMagic) "instance target is not a namespace"
  let target ← attempt "inspect instance netns" view.target
  let root ← attempt "inspect appliance netns" view.rootNetns
  refuse (target == root) "refusing appliance network namespace"
  let cgroup ← read "cgroup" view.cgroup
  refuse (!runtimeCgroupMatches cgroup runtimeID)
    ("PID " ++ toString pid ++ " does not belong to runtime " ++
      String.ofList (runtimeID.map fun byte => Char.ofNat byte.toNat))
  let mapping ← read "uid_map" view.uidMap
  validateRootMapping mapping
  attempt "open process ns/user" view.user
  let user ← attempt "inspect instance user namespace" view.userStat
  let rootUser ← attempt "inspect appliance user namespace" view.rootUser
  refuse (user == rootUser) "instance shares appliance user namespace"
  attempt "inspect network namespace owner" view.owner
  let owner ← attempt "inspect owning user namespace" view.ownerStat
  refuse (owner != user)
    "network namespace is not owned by instance user namespace"
  uncancelled view.finishing
  return target.ino

/-- The runtime identity in a component of a path. -/
def runtimeOf (part : List UInt8) : Option (List UInt8) :=
  match cutFront (Text.utf8 "libpod-") part with
  | none => none
  | some rest =>
      let id := rest.take 64
      if validRuntimeID id ∧
          (rest.drop 64 = [] ∨ rest.drop 64 = Text.utf8 ".scope") then
        some id
      else none

/-- The containers that a cgroup file names, from the root of the hierarchy
down. -/
def namedRuntimes (raw : List UInt8) : List (List UInt8) :=
  (cgroupParts raw).filterMap runtimeOf

/-- Below the first container that the path names it names no other. -/
def NamesOneRuntime (raw : List UInt8) : Prop :=
  ∀ id ∈ (namedRuntimes raw).tail, (namedRuntimes raw).head? = some id

theorem validRuntimeID_length {id : List UInt8}
    (valid : validRuntimeID id = true) : id.length = 64 := by
  rw [validRuntimeID, Bool.and_eq_true, beq_iff_eq] at valid
  exact valid.1

theorem cutFront_append (front rest : List UInt8) :
    cutFront front (front ++ rest) = some rest := by
  rw [cutFront, if_pos (by simp), List.drop_left]

theorem eq_append_of_cutFront {front data rest : List UInt8}
    (cut : cutFront front data = some rest) : data = front ++ rest := by
  unfold cutFront at cut
  split at cut
  · rename_i starts
    obtain ⟨back, rfl⟩ := List.isPrefixOf_iff_prefix.mp starts
    rw [List.drop_left] at cut
    cases cut
    rfl
  · cases cut

/-- A component names a valid identity in one of the two forms that the check
compares with. -/
theorem runtimeOf_eq_some_iff {part id : List UInt8} :
    runtimeOf part = some id ↔ validRuntimeID id = true ∧
      (part = Text.utf8 "libpod-" ++ id ∨
        part = Text.utf8 "libpod-" ++ id ++ Text.utf8 ".scope") := by
  constructor
  · intro named
    unfold runtimeOf at named
    split at named
    · cases named
    · rename_i rest cut
      have whole := eq_append_of_cutFront cut
      by_cases fine : validRuntimeID (rest.take 64) = true ∧
          (rest.drop 64 = [] ∨ rest.drop 64 = Text.utf8 ".scope")
      · rw [if_pos fine] at named
        obtain ⟨valid, ending⟩ := fine
        cases named
        have split := List.take_append_drop 64 rest
        refine ⟨valid, ending.imp ?_ ?_⟩
        · intro last
          rw [last, List.append_nil] at split
          rw [whole, split]
        · intro last
          rw [last] at split
          rw [whole, List.append_assoc, split]
      · rw [if_neg fine] at named
        cases named
  · rintro ⟨valid, form⟩
    have length := validRuntimeID_length valid
    unfold runtimeOf
    rcases form with rfl | rfl
    · rw [cutFront_append]
      dsimp only
      rw [← length, List.take_length, List.drop_length,
        if_pos ⟨valid, .inl rfl⟩]
    · rw [List.append_assoc, cutFront_append]
      dsimp only
      rw [← length, List.take_left, List.drop_left,
        if_pos ⟨valid, .inr rfl⟩]

/-- The check accepts a valid identity if some component names it. -/
theorem runtimeCgroupMatches_iff {raw id : List UInt8}
    (valid : validRuntimeID id = true) :
    runtimeCgroupMatches raw id = true ↔ id ∈ namedRuntimes raw := by
  simp only [runtimeCgroupMatches, namedRuntimes, List.any_eq_true,
    List.mem_filterMap, runtimeOf_eq_some_iff, valid, true_and,
    Bool.or_eq_true, beq_iff_eq]

theorem namedRuntimes_valid {raw id : List UInt8}
    (named : id ∈ namedRuntimes raw) : validRuntimeID id = true := by
  obtain ⟨part, -, found⟩ := List.mem_filterMap.mp named
  exact (runtimeOf_eq_some_iff.mp found).1

/-- All entries of a list are equal if all of its tail equals its head. -/
theorem namesOneRuntime_iff {raw : List UInt8} :
    NamesOneRuntime raw ↔
      ∀ id ∈ namedRuntimes raw, ∀ other ∈ namedRuntimes raw, id = other := by
  unfold NamesOneRuntime
  cases namedRuntimes raw with
  | nil => simp
  | cons first rest =>
      constructor
      · intro same
        have all : ∀ id ∈ first :: rest, first = id := by
          intro id member
          rcases List.mem_cons.mp member with rfl | below
          · rfl
          · exact Option.some.inj (same id below)
        intro id member other also
        exact (all id member).symm.trans (all other also)
      · intro same id below
        exact congrArg some (same first List.mem_cons_self id
          (List.mem_cons_of_mem first below))

theorem OpenInstance.refuse_passes {wrong : Bool} {text : String} {done : Unit}
    (passes : refuse wrong text = .ok done) : wrong = false := by
  cases wrong with
  | true => cases passes
  | false => rfl

theorem OpenInstance.read_content {path : String} {data found : List UInt8}
    (reads : read path (.ok (.ok data)) = .ok found) : found = data := by
  obtain ⟨_, first, reads⟩ := except_bind_ok_iff.mp reads
  cases first
  obtain ⟨_, second, reads⟩ := except_bind_ok_iff.mp reads
  cases second
  obtain ⟨_, passes, reads⟩ := except_bind_ok_iff.mp reads
  have short := of_decide_eq_false (refuse_passes passes)
  cases reads
  rw [List.length_take] at short
  exact List.take_of_length_le (by omega)

/-- `OpenInstance` succeeds only for a valid identity that the cgroup file
matches. -/
theorem openInstance_matches {pid : Int} {id raw : List UInt8}
    {view : ProcessView} {inode : Nat} (content : view.cgroup = .ok (.ok raw))
    (opens : openInstance pid id view = .ok inode) :
    validRuntimeID id = true ∧ runtimeCgroupMatches raw id = true := by
  unfold openInstance at opens
  rw [content] at opens
  obtain ⟨_, -, opens⟩ := except_bind_ok_iff.mp opens
  obtain ⟨_, arguments, opens⟩ := except_bind_ok_iff.mp opens
  obtain ⟨_, -, opens⟩ := except_bind_ok_iff.mp opens
  obtain ⟨_, -, opens⟩ := except_bind_ok_iff.mp opens
  obtain ⟨_, -, opens⟩ := except_bind_ok_iff.mp opens
  obtain ⟨_, -, opens⟩ := except_bind_ok_iff.mp opens
  obtain ⟨_, -, opens⟩ := except_bind_ok_iff.mp opens
  obtain ⟨_, -, opens⟩ := except_bind_ok_iff.mp opens
  obtain ⟨_, -, opens⟩ := except_bind_ok_iff.mp opens
  obtain ⟨cgroup, reads, opens⟩ := except_bind_ok_iff.mp opens
  obtain ⟨_, belongs, -⟩ := except_bind_ok_iff.mp opens
  cases OpenInstance.read_content reads
  have valid := OpenInstance.refuse_passes arguments
  rw [Bool.or_eq_false_iff, Bool.not_eq_false'] at valid
  have accepted := OpenInstance.refuse_passes belongs
  rw [Bool.not_eq_false'] at accepted
  exact ⟨valid.2, accepted⟩

/-- A cgroup file identifies one container, for the check and for every
process that `OpenInstance` accepts, exactly if its path names no second
container below the first. -/
theorem cgroup_identifies_one_iff (raw : List UInt8) :
    ((∀ id other, validRuntimeID id = true → validRuntimeID other = true →
          runtimeCgroupMatches raw id = true →
          runtimeCgroupMatches raw other = true → id = other) ∧
        (∀ view : ProcessView, view.cgroup = .ok (.ok raw) →
          ∀ pid id inode otherPid other otherInode,
            openInstance pid id view = .ok inode →
            openInstance otherPid other view = .ok otherInode →
            id = other)) ↔
      NamesOneRuntime raw := by
  rw [namesOneRuntime_iff]
  constructor
  · rintro ⟨unique, -⟩ id member other also
    have valid := namedRuntimes_valid member
    have alsoValid := namedRuntimes_valid also
    exact unique id other valid alsoValid
      ((runtimeCgroupMatches_iff valid).mpr member)
      ((runtimeCgroupMatches_iff alsoValid).mpr also)
  · intro same
    have unique : ∀ id other, validRuntimeID id = true →
        validRuntimeID other = true → runtimeCgroupMatches raw id = true →
        runtimeCgroupMatches raw other = true → id = other := by
      intro id other valid alsoValid accepted alsoAccepted
      exact same id ((runtimeCgroupMatches_iff valid).mp accepted) other
        ((runtimeCgroupMatches_iff alsoValid).mp alsoAccepted)
    refine ⟨unique, ?_⟩
    intro view content pid id inode otherPid other otherInode opens alsoOpens
    obtain ⟨valid, accepted⟩ := openInstance_matches content opens
    obtain ⟨alsoValid, alsoAccepted⟩ := openInstance_matches content alsoOpens
    exact unique id other valid alsoValid accepted alsoAccepted

/-- The cgroup file of a process that moved into a cgroup which its container
created below its own, with another container's name. -/
def nestedCgroup : List UInt8 :=
  Text.utf8 "0::/libpod_parent/libpod-" ++ List.replicate 64 97 ++
    Text.utf8 "/libpod-" ++ List.replicate 64 98 ++ [10]

/-- The process belongs to the first container and is accepted for the
second. -/
theorem nestedCgroup_matches_both :
    validRuntimeID (List.replicate 64 97) = true ∧
      validRuntimeID (List.replicate 64 98) = true ∧
      runtimeCgroupMatches nestedCgroup (List.replicate 64 97) = true ∧
      runtimeCgroupMatches nestedCgroup (List.replicate 64 98) = true := by
  decide +kernel

end Nephos
