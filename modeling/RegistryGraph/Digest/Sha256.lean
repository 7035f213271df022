import RegistryGraph.Text.Hex

/-!
# The SHA-256 digest

A message is padded to whole blocks of 64 octets, and each block is mixed into a state of eight words.
The digest is the final state, written in lower-case hexadecimal.
-/

namespace RegistryGraph.Sha256

/-- The constants of the 64 rounds. -/
def roundConstants : List UInt32 :=
  [
    0x428a2f98, 0x71374491, 0xb5c0fbcf, 0xe9b5dba5, 0x3956c25b, 0x59f111f1,
    0x923f82a4, 0xab1c5ed5, 0xd807aa98, 0x12835b01, 0x243185be, 0x550c7dc3,
    0x72be5d74, 0x80deb1fe, 0x9bdc06a7, 0xc19bf174, 0xe49b69c1, 0xefbe4786,
    0x0fc19dc6, 0x240ca1cc, 0x2de92c6f, 0x4a7484aa, 0x5cb0a9dc, 0x76f988da,
    0x983e5152, 0xa831c66d, 0xb00327c8, 0xbf597fc7, 0xc6e00bf3, 0xd5a79147,
    0x06ca6351, 0x14292967, 0x27b70a85, 0x2e1b2138, 0x4d2c6dfc, 0x53380d13,
    0x650a7354, 0x766a0abb, 0x81c2c92e, 0x92722c85, 0xa2bfe8a1, 0xa81a664b,
    0xc24b8b70, 0xc76c51a3, 0xd192e819, 0xd6990624, 0xf40e3585, 0x106aa070,
    0x19a4c116, 0x1e376c08, 0x2748774c, 0x34b0bcb5, 0x391c0cb3, 0x4ed8aa4a,
    0x5b9cca4f, 0x682e6ff3, 0x748f82ee, 0x78a5636f, 0x84c87814, 0x8cc70208,
    0x90befffa, 0xa4506ceb, 0xbef9a3f7, 0xc67178f2
  ]

/-- Eight working words. -/
structure State where
  a : UInt32
  b : UInt32
  c : UInt32
  d : UInt32
  e : UInt32
  f : UInt32
  g : UInt32
  h : UInt32
deriving DecidableEq, Repr

namespace State

/-- The state before the first block. -/
def initial : State :=
  ⟨0x6a09e667, 0xbb67ae85, 0x3c6ef372, 0xa54ff53a,
    0x510e527f, 0x9b05688c, 0x1f83d9ab, 0x5be0cd19⟩

/-- The words in order. -/
def words (s : State) : List UInt32 := [s.a, s.b, s.c, s.d, s.e, s.f, s.g, s.h]

/-- The sum word by word. -/
def add (s t : State) : State :=
  ⟨s.a + t.a, s.b + t.b, s.c + t.c, s.d + t.d, s.e + t.e, s.f + t.f, s.g + t.g, s.h + t.h⟩

end State

/-- Rotation to the right. -/
def rotateRight (x n : UInt32) : UInt32 := (x >>> n) ||| (x <<< (32 - n))

/-- The first `n` words of a block's schedule that follow those in `words`, which stand latest
first and are at least sixteen. -/
def extend (words : List UInt32) : Nat → List UInt32
  | 0 => words
  | n + 1 =>
    let x := words.getD 1 0
    let y := words.getD 14 0
    let next :=
      (rotateRight x 17 ^^^ rotateRight x 19 ^^^ (x >>> 10)) + words.getD 6 0 +
        (rotateRight y 7 ^^^ rotateRight y 18 ^^^ (y >>> 3)) + words.getD 15 0
    extend (next :: words) n

/-- One round with the sum `k` of its constant and its schedule word. -/
def round (s : State) (k : UInt32) : State :=
  let sum1 := rotateRight s.e 6 ^^^ rotateRight s.e 11 ^^^ rotateRight s.e 25
  let choice := (s.e &&& s.f) ^^^ ((~~~ s.e) &&& s.g)
  let sum0 := rotateRight s.a 2 ^^^ rotateRight s.a 13 ^^^ rotateRight s.a 22
  let majority := (s.a &&& s.b) ^^^ (s.a &&& s.c) ^^^ (s.b &&& s.c)
  let t := s.h + sum1 + choice + k
  ⟨t + (sum0 + majority), s.a, s.b, s.c, s.d + t, s.e, s.f, s.g⟩

/-- The big-endian words of a sequence of octets, latest first, on top of `done`. -/
def wordsOf (done : List UInt32) : Octets → List UInt32
  | a :: b :: c :: d :: rest =>
    wordsOf ((a.toUInt32 <<< 24 ||| b.toUInt32 <<< 16 ||| c.toUInt32 <<< 8 ||| d.toUInt32) :: done)
      rest
  | _ => done

/-- Mixes a block of 64 octets into the state. -/
def compress (s : State) (block : Octets) : State :=
  let schedule := (extend (wordsOf [] block) 48).reverse
  s.add ((roundConstants.zipWith (· + ·) schedule).foldl round s)

/-- Mixes the first `count` blocks of `message` into the state. -/
def absorb (s : State) (message : Octets) : Nat → State
  | 0 => s
  | count + 1 => absorb (compress s (message.take 64)) (message.drop 64) count

/-- The `size` low octets of `n`, most significant first. -/
def bigEndian (n : Nat) : Nat → Octets
  | 0 => []
  | size + 1 => .ofNat (n / 256 ^ size) :: bigEndian n size

/-- What is appended to a message of `size` octets: one bit, zeros, and the length in bits. -/
def padding (size : Nat) : Octets :=
  0x80 :: (List.replicate ((119 - size % 64) % 64) 0 ++ bigEndian (8 * size) 8)

/-- The digest of a message: 32 octets. -/
def digest (message : Octets) : Octets :=
  let padded := message ++ padding message.length
  (absorb .initial padded (padded.length / 64)).words.flatMap fun w => bigEndian w.toNat 4

/-- The digest of a message in hexadecimal notation: 64 characters. -/
def hex (message : Octets) : String := .ofList ((digest message).flatMap Hex.octet)

end RegistryGraph.Sha256
