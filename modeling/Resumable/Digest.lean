import Resumable.Text.Units

/-! The SHA-256 digest, written as 64 hexadecimal digits. -/
namespace Resumable.Digest

abbrev Word := UInt32

/-- Fractional parts of the cube roots of the first 64 primes. -/
def roundConstants : List Word :=
  [0x428a2f98,0x71374491,0xb5c0fbcf,0xe9b5dba5,0x3956c25b,0x59f111f1,0x923f82a4,0xab1c5ed5,
   0xd807aa98,0x12835b01,0x243185be,0x550c7dc3,0x72be5d74,0x80deb1fe,0x9bdc06a7,0xc19bf174,
   0xe49b69c1,0xefbe4786,0x0fc19dc6,0x240ca1cc,0x2de92c6f,0x4a7484aa,0x5cb0a9dc,0x76f988da,
   0x983e5152,0xa831c66d,0xb00327c8,0xbf597fc7,0xc6e00bf3,0xd5a79147,0x06ca6351,0x14292967,
   0x27b70a85,0x2e1b2138,0x4d2c6dfc,0x53380d13,0x650a7354,0x766a0abb,0x81c2c92e,0x92722c85,
   0xa2bfe8a1,0xa81a664b,0xc24b8b70,0xc76c51a3,0xd192e819,0xd6990624,0xf40e3585,0x106aa070,
   0x19a4c116,0x1e376c08,0x2748774c,0x34b0bcb5,0x391c0cb3,0x4ed8aa4a,0x5b9cca4f,0x682e6ff3,
   0x748f82ee,0x78a5636f,0x84c87814,0x8cc70208,0x90befffa,0xa4506ceb,0xbef9a3f7,0xc67178f2]

structure State where
  a : Word
  b : Word
  c : Word
  d : Word
  e : Word
  f : Word
  g : Word
  h : Word
  deriving DecidableEq, Repr

/-- Fractional parts of the square roots of the first eight primes. -/
def State.initial : State :=
  ⟨0x6a09e667,0xbb67ae85,0x3c6ef372,0xa54ff53a,0x510e527f,0x9b05688c,0x1f83d9ab,0x5be0cd19⟩

def State.add (s t : State) : State :=
  ⟨s.a + t.a,s.b + t.b,s.c + t.c,s.d + t.d,s.e + t.e,s.f + t.f,s.g + t.g,s.h + t.h⟩

def State.words (s : State) : List Word := [s.a,s.b,s.c,s.d,s.e,s.f,s.g,s.h]

def rotate (x : Word) (n : Word) : Word := (x >>> n) ||| (x <<< (32 - n))

def State.round (s : State) (constant word : Word) : State :=
  let sum1 := rotate s.e 6 ^^^ rotate s.e 11 ^^^ rotate s.e 25
  let choice := (s.e &&& s.f) ^^^ (~~~s.e &&& s.g)
  let first := s.h + sum1 + choice + constant + word
  let sum0 := rotate s.a 2 ^^^ rotate s.a 13 ^^^ rotate s.a 22
  let majority := (s.a &&& s.b) ^^^ (s.a &&& s.c) ^^^ (s.b &&& s.c)
  ⟨first + sum0 + majority,s.a,s.b,s.c,s.d + first,s.e,s.f,s.g⟩

def extend (schedule : List Word) : List Word :=
  let at16 := schedule.getD 15 0
  let at15 := schedule.getD 14 0
  let at7 := schedule.getD 6 0
  let at2 := schedule.getD 1 0
  let low := rotate at15 7 ^^^ rotate at15 18 ^^^ (at15 >>> 3)
  let high := rotate at2 17 ^^^ rotate at2 19 ^^^ (at2 >>> 10)
  (at16 + low + at7 + high) :: schedule

def extendTimes : Nat → List Word → List Word
  | 0, schedule => schedule
  | n + 1, schedule => extendTimes n (extend schedule)

def word (a b c d : UInt8) : Word :=
  (a.toUInt32 <<< 24) ||| (b.toUInt32 <<< 16) ||| (c.toUInt32 <<< 8) ||| d.toUInt32

def words : List UInt8 → List Word
  | a :: b :: c :: d :: rest => word a b c d :: words rest
  | _ => []

def compress (state : State) (block : List UInt8) : State :=
  let schedule := (extendTimes 48 (words block).reverse).reverse
  let mixed := (roundConstants.zip schedule).foldl (fun s (k, w) => s.round k w) state
  state.add mixed

def bigEndian (n : Nat) : List UInt8 :=
  [56,48,40,32,24,16,8,0].map fun shift => UInt8.ofNat (n >>> shift)

/-- A one bit, zeros, and the length in bits, up to a whole number of 64-byte blocks. -/
def pad (message : List UInt8) : List UInt8 :=
  let size := message.length
  message ++ 0x80 :: List.replicate ((119 - size % 64) % 64) 0 ++ bigEndian (8 * size)

def absorb (state : State) : Nat → List UInt8 → State
  | 0, _ => state
  | blocks + 1, bytes => absorb (compress state (bytes.take 64)) blocks (bytes.drop 64)

def sha256 (message : List UInt8) : State :=
  let padded := pad message
  absorb .initial (padded.length / 64) padded

def hex (message : List UInt8) : String :=
  String.ofList ((sha256 message).words.flatMap fun w => Text.paddedHex 8 w.toNat)

def hexOfText (text : String) : String := hex text.toUTF8.toList

end Resumable.Digest
