/-!
# Octets and UTF-8

Input arrives as octets.  `Utf8.front` says what stands at the front of an octet sequence: one scalar
value, an ill-formed subsequence, or a sequence that the input cuts short.  `Utf8.decode` refuses the
first fault and tells where it is; `Utf8.decodeLossy` puts one replacement character in the place of
every maximal ill-formed subsequence.
-/

namespace RegistryGraph

/-- A finite sequence of octets. -/
abbrev Octets : Type := List UInt8

namespace Utf8

/-- The octets of a text. -/
def encode (s : String) : Octets := s.toList.flatMap String.utf8EncodeChar

/-- What is wrong with an octet sequence, and at which index. -/
inductive Fault where
  /-- `size` octets from `index` on begin no well-formed sequence. -/
  | invalid (size index : Nat)
  /-- The input ends inside the sequence that starts at `index`. -/
  | incomplete (index : Nat)
deriving DecidableEq, Repr

/-- Where a fault is. -/
def Fault.index : Fault → Nat
  | .invalid _ index | .incomplete index => index

/-- The wording of a decoding fault. -/
def Fault.message : Fault → String
  | .invalid size index => s!"invalid utf-8 sequence of {size} bytes from index {index}"
  | .incomplete index => s!"incomplete utf-8 byte sequence from index {index}"

/-- What stands at the front of a non-empty octet sequence, and what follows it. -/
inductive Front where
  | scalar (c : Char) (size : Nat) (rest : Octets)
  | invalid (size : Nat) (rest : Octets)
  | incomplete

/-- A continuation octet. -/
def isContinuation (b : UInt8) : Bool := 0x80 ≤ b && b ≤ 0xBF

/-- The six payload bits of a continuation octet. -/
def payload (b : UInt8) : Nat := b.toNat % 64

/-- The second octets that may follow the first octet `b` of a three-octet sequence. -/
def secondOfThree (b c : UInt8) : Bool :=
  if b = 0xE0 then 0xA0 ≤ c && c ≤ 0xBF
  else if b = 0xED then 0x80 ≤ c && c ≤ 0x9F
  else isContinuation c

/-- The second octets that may follow the first octet `b` of a four-octet sequence. -/
def secondOfFour (b c : UInt8) : Bool :=
  if b = 0xF0 then 0x90 ≤ c && c ≤ 0xBF
  else if b = 0xF4 then 0x80 ≤ c && c ≤ 0x8F
  else isContinuation c

/-- Reads a two-octet sequence that begins with `b`. -/
def frontTwo (b : UInt8) : Octets → Front
  | [] => .incomplete
  | c :: r =>
    if isContinuation c then .scalar (.ofNat (b.toNat % 32 * 64 + payload c)) 2 r
    else .invalid 1 (c :: r)

/-- Reads a three-octet sequence that begins with `b`. -/
def frontThree (b : UInt8) : Octets → Front
  | [] => .incomplete
  | c :: r =>
    if secondOfThree b c then
      match r with
      | [] => .incomplete
      | d :: r' =>
        if isContinuation d then
          .scalar (.ofNat ((b.toNat % 16 * 64 + payload c) * 64 + payload d)) 3 r'
        else .invalid 2 (d :: r')
    else .invalid 1 (c :: r)

/-- Reads a four-octet sequence that begins with `b`. -/
def frontFour (b : UInt8) : Octets → Front
  | [] => .incomplete
  | c :: r =>
    if secondOfFour b c then
      match r with
      | [] => .incomplete
      | d :: r' =>
        if isContinuation d then
          match r' with
          | [] => .incomplete
          | e :: r'' =>
            if isContinuation e then
              .scalar (.ofNat (((b.toNat % 8 * 64 + payload c) * 64 + payload d) * 64 + payload e))
                4 r''
            else .invalid 3 (e :: r'')
        else .invalid 2 (d :: r')
    else .invalid 1 (c :: r)

/-- What stands at the front of `b :: rest`. -/
def front (b : UInt8) (rest : Octets) : Front :=
  if b < 0x80 then .scalar (.ofNat b.toNat) 1 rest
  else if 0xC2 ≤ b && b ≤ 0xDF then frontTwo b rest
  else if 0xE0 ≤ b && b ≤ 0xEF then frontThree b rest
  else if 0xF0 ≤ b && b ≤ 0xF4 then frontFour b rest
  else .invalid 1 rest

/-- What follows a two-octet front is a tail of what was given. -/
theorem frontTwo_rest_le {b : UInt8} {bs rest : Octets} {c : Char} {n : Nat} :
    (frontTwo b bs = .scalar c n rest → rest.length ≤ bs.length) ∧
    (frontTwo b bs = .invalid n rest → rest.length ≤ bs.length) := by
  cases bs with
  | nil => simp [frontTwo]
  | cons d r => grind [frontTwo]

/-- What follows a three-octet front is a tail of what was given. -/
theorem frontThree_rest_le {b : UInt8} {bs rest : Octets} {c : Char} {n : Nat} :
    (frontThree b bs = .scalar c n rest → rest.length ≤ bs.length) ∧
    (frontThree b bs = .invalid n rest → rest.length ≤ bs.length) := by
  match bs with
  | [] => simp [frontThree]
  | [d] => grind [frontThree]
  | d :: e :: r => grind [frontThree]

/-- What follows a four-octet front is a tail of what was given. -/
theorem frontFour_rest_le {b : UInt8} {bs rest : Octets} {c : Char} {n : Nat} :
    (frontFour b bs = .scalar c n rest → rest.length ≤ bs.length) ∧
    (frontFour b bs = .invalid n rest → rest.length ≤ bs.length) := by
  match bs with
  | [] => simp [frontFour]
  | [d] => grind [frontFour]
  | [d, e] => grind [frontFour]
  | d :: e :: f :: r => grind [frontFour]

/-- Reading the front never lengthens the input. -/
theorem front_rest_le {b : UInt8} {bs rest : Octets} {c : Char} {n : Nat} :
    (front b bs = .scalar c n rest → rest.length ≤ bs.length) ∧
    (front b bs = .invalid n rest → rest.length ≤ bs.length) := by
  have h2 := @frontTwo_rest_le b bs rest c n
  have h3 := @frontThree_rest_le b bs rest c n
  have h4 := @frontFour_rest_le b bs rest c n
  unfold front
  split
  · simp +contextual
  · split
    · exact h2
    · split
      · exact h3
      · split
        · exact h4
        · simp +contextual

/-- Decodes `bs`, which starts at `index`, behind the characters `done` (latest first). -/
def decodeFrom (index : Nat) (done : List Char) (bs : Octets) : Except Fault (List Char) :=
  match bs with
  | [] => .ok done.reverse
  | b :: rest =>
    match h : front b rest with
    | .scalar c size rest' =>
      have := front_rest_le.1 h
      decodeFrom (index + size) (c :: done) rest'
    | .invalid size _ => .error (.invalid size index)
    | .incomplete => .error (.incomplete index)
termination_by bs.length
decreasing_by simp; omega

/-- The text that `bs` encodes, or the first fault in it. -/
def decode (bs : Octets) : Except Fault String :=
  (decodeFrom 0 [] bs).map String.ofList

/-- The character that stands for octets that encode nothing. -/
def replacement : Char := '\uFFFD'

/-- Decodes `bs` behind the characters `done` (latest first), replacing what is ill-formed. -/
def decodeLossyFrom (done : List Char) (bs : Octets) : List Char :=
  match bs with
  | [] => done.reverse
  | b :: rest =>
    match h : front b rest with
    | .scalar c _ rest' =>
      have := front_rest_le.1 h
      decodeLossyFrom (c :: done) rest'
    | .invalid _ rest' =>
      have := (front_rest_le (c := 'x')).2 h
      decodeLossyFrom (replacement :: done) rest'
    | .incomplete => (replacement :: done).reverse
termination_by bs.length
decreasing_by all_goals (simp; omega)

/-- The text of `bs` with one replacement character for every maximal ill-formed subsequence. -/
def decodeLossy (bs : Octets) : String := .ofList (decodeLossyFrom [] bs)

end Utf8

end RegistryGraph
