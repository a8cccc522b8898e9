import Mathlib.Data.BitVec

/-!
# SHA-256

The hash of FIPS 180-4, on byte lists.  Words are 32-bit vectors; the message
schedule is kept newest word first, so that the recurrence looks back from
the head of the list.
-/

namespace Sha256

abbrev Word := BitVec 32

/-- The fractional parts of the cube roots of the first 64 primes. -/
def roundConstants : List Word :=
  [0x428a2f98, 0x71374491, 0xb5c0fbcf, 0xe9b5dba5,
   0x3956c25b, 0x59f111f1, 0x923f82a4, 0xab1c5ed5,
   0xd807aa98, 0x12835b01, 0x243185be, 0x550c7dc3,
   0x72be5d74, 0x80deb1fe, 0x9bdc06a7, 0xc19bf174,
   0xe49b69c1, 0xefbe4786, 0x0fc19dc6, 0x240ca1cc,
   0x2de92c6f, 0x4a7484aa, 0x5cb0a9dc, 0x76f988da,
   0x983e5152, 0xa831c66d, 0xb00327c8, 0xbf597fc7,
   0xc6e00bf3, 0xd5a79147, 0x06ca6351, 0x14292967,
   0x27b70a85, 0x2e1b2138, 0x4d2c6dfc, 0x53380d13,
   0x650a7354, 0x766a0abb, 0x81c2c92e, 0x92722c85,
   0xa2bfe8a1, 0xa81a664b, 0xc24b8b70, 0xc76c51a3,
   0xd192e819, 0xd6990624, 0xf40e3585, 0x106aa070,
   0x19a4c116, 0x1e376c08, 0x2748774c, 0x34b0bcb5,
   0x391c0cb3, 0x4ed8aa4a, 0x5b9cca4f, 0x682e6ff3,
   0x748f82ee, 0x78a5636f, 0x84c87814, 0x8cc70208,
   0x90befffa, 0xa4506ceb, 0xbef9a3f7, 0xc67178f2]

structure State where
  a : Word
  b : Word
  c : Word
  d : Word
  e : Word
  f : Word
  g : Word
  h : Word
deriving DecidableEq, Repr

def initial : State :=
  { a := 0x6a09e667, b := 0xbb67ae85, c := 0x3c6ef372, d := 0xa54ff53a
    e := 0x510e527f, f := 0x9b05688c, g := 0x1f83d9ab, h := 0x5be0cd19 }

def compressRound (state : State) (constant word : Word) : State :=
  let sigma1 := state.e.rotateRight 6 ^^^ state.e.rotateRight 11 ^^^
    state.e.rotateRight 25
  let choice := (state.e &&& state.f) ^^^ (~~~state.e &&& state.g)
  let first := state.h + sigma1 + choice + constant + word
  let sigma0 := state.a.rotateRight 2 ^^^ state.a.rotateRight 13 ^^^
    state.a.rotateRight 22
  let majority := (state.a &&& state.b) ^^^ (state.a &&& state.c) ^^^
    (state.b &&& state.c)
  { a := first + (sigma0 + majority), b := state.a, c := state.b
    d := state.c, e := state.d + first, f := state.e, g := state.f
    h := state.g }

/-- The next schedule word from the sixteen before it, newest first. -/
def scheduleWord (recent : List Word) : Word :=
  let far := recent.getD 14 0
  let near := recent.getD 1 0
  let small0 := far.rotateRight 7 ^^^ far.rotateRight 18 ^^^ (far >>> 3)
  let small1 := near.rotateRight 17 ^^^ near.rotateRight 19 ^^^ (near >>> 10)
  recent.getD 15 0 + small0 + recent.getD 6 0 + small1

def schedule : Nat → List Word → List Word
  | 0, recent => recent
  | rounds + 1, recent => schedule rounds (scheduleWord recent :: recent)

def wordOfBytes (bytes : List UInt8) : Word :=
  bytes.foldl (fun word byte => (word <<< 8) ||| byte.toBitVec.zeroExtend 32) 0

def bytesOfWord (word : Word) : List UInt8 :=
  ([24, 16, 8, 0] : List Nat).map fun shift =>
    UInt8.ofNat (word >>> shift).toNat

/-- Cut a list into chunks of `size` elements. -/
def chunks {α : Type} (size : Nat) : Nat → List α → List (List α)
  | 0, _ => []
  | count + 1, items => items.take size :: chunks size count (items.drop size)

def compressBlock (state : State) (block : List UInt8) : State :=
  let words := (chunks 4 16 block).map wordOfBytes
  let expanded := (schedule 48 words.reverse).reverse
  let mixed := (roundConstants.zip expanded).foldl
    (fun current pair => compressRound current pair.1 pair.2) state
  { a := state.a + mixed.a, b := state.b + mixed.b, c := state.c + mixed.c
    d := state.d + mixed.d, e := state.e + mixed.e, f := state.f + mixed.f
    g := state.g + mixed.g, h := state.h + mixed.h }

/-- The message with its padding and its length in bits. -/
def padded (message : List UInt8) : List UInt8 :=
  let zeros := (119 - message.length % 64) % 64
  let bitLength := message.length * 8
  let lengthBytes : List UInt8 :=
    ([56, 48, 40, 32, 24, 16, 8, 0] : List Nat).map fun shift =>
      UInt8.ofNat (bitLength >>> shift)
  message ++ [0x80] ++ List.replicate zeros 0 ++ lengthBytes

/-- The 32 bytes of the digest. -/
def sum (message : List UInt8) : List UInt8 :=
  let blocks := chunks 64 ((padded message).length / 64) (padded message)
  let final := blocks.foldl compressBlock initial
  [final.a, final.b, final.c, final.d, final.e, final.f, final.g,
    final.h].flatMap bytesOfWord

theorem sum_length (message : List UInt8) : (sum message).length = 32 := rfl

end Sha256
