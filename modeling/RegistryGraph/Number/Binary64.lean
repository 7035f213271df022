/-!
# Finite binary floating-point numbers

A finite number of the 64-bit binary format is a sign, an integer below `2^53` and a power of two.
All arithmetic is exact integer arithmetic followed by one rounding, `ofRatio`: to the nearest number
of the format, ties to the even mantissa.  `shortest` goes the other way and finds the fewest decimal
digits that round back to the number, the nearest of those if there are several.
-/

namespace RegistryGraph

/-- The number `±mantissa · 2^exponent`. -/
structure Binary64 where
  negative : Bool
  mantissa : Nat
  exponent : Int
deriving DecidableEq, Repr

namespace Binary64

/-- The exponent of the smallest positive number. -/
def leastExponent : Int := -1074

/-- The exponent of the largest numbers. -/
def greatestExponent : Int := 971

/-- Nearest integer to `num / den`, ties to even. -/
def roundQuotient (num den : Nat) : Nat :=
  let q := num / den
  let r := num % den
  if 2 * r > den || (2 * r = den && q % 2 = 1) then q + 1 else q

/-- A ratio equal to `num / (den · 2^e)`. -/
def scaleDown (num den : Nat) (e : Int) : Nat × Nat :=
  if e ≥ 0 then (num, den * Nat.pow 2 e.toNat) else (num * Nat.pow 2 (-e).toNat, den)

/-- The number nearest to `±num / den`; none if it is too large for the format. -/
def ofRatio (negative : Bool) (num den : Nat) : Option Binary64 :=
  if num = 0 then some ⟨negative, 0, leastExponent⟩
  else
    let e := max leastExponent ((num.log2 : Int) - den.log2 - 53)
    let ratio := scaleDown num den e
    let (e, ratio) :=
      if ratio.1 / ratio.2 ≥ Nat.pow 2 53 then (e + 1, (ratio.1, 2 * ratio.2)) else (e, ratio)
    let q := roundQuotient ratio.1 ratio.2
    let (q, e) := if q = Nat.pow 2 53 then (Nat.pow 2 52, e + 1) else (q, e)
    if e > greatestExponent then none else some ⟨negative, q, e⟩

/-- The number nearest to a natural number. -/
def ofNat? (n : Nat) : Option Binary64 := ofRatio false n 1

/-- The ratio of two naturals that equals the magnitude. -/
def magnitude (x : Binary64) : Nat × Nat :=
  if x.exponent ≥ 0 then (x.mantissa * Nat.pow 2 x.exponent.toNat, 1)
  else (x.mantissa, Nat.pow 2 (-x.exponent).toNat)

/-- The rounded product; none on overflow. -/
def mul (x y : Binary64) : Option Binary64 :=
  let a := x.magnitude
  let b := y.magnitude
  ofRatio (x.negative != y.negative) (a.1 * b.1) (a.2 * b.2)

/-- The rounded quotient; none on overflow. The divisor is not zero. -/
def div (x y : Binary64) : Option Binary64 :=
  let a := x.magnitude
  let b := y.magnitude
  ofRatio (x.negative != y.negative) (a.1 * b.2) (a.2 * b.1)

/-- The number nearest to `10^k`. -/
def tenPower (k : Nat) : Option Binary64 := ofRatio false (Nat.pow 10 k) 1

/-- Zero, of either sign. -/
def isZero (x : Binary64) : Bool := x.mantissa = 0

/-- The same magnitude with the given sign. -/
def withSign (negative : Bool) (x : Binary64) : Binary64 := { x with negative }

/-- The integer part of the magnitude. -/
def floorMagnitude (x : Binary64) : Nat := x.magnitude.1 / x.magnitude.2

/-! ## The fewest digits that read back -/

/-- How many decimal digits a number has. -/
def digitCount (n : Nat) : Nat := (Nat.toDigits 10 n).length

/-- The `k` with `10^k ≤ num / den < 10^(k+1)`. -/
def decimalOrder (num den : Nat) : Int :=
  if num ≥ den then (digitCount (num / den) : Int) - 1
  else -(digitCount ((den + num - 1) / num - 1) : Int)

/-- The reals that round to a number, in quarters of a unit in its last place. -/
structure Interval where
  low : Nat
  value : Nat
  high : Nat
  /-- Whether the ends round to the number too. -/
  closed : Bool

/-- The interval of the reals that round to `x`. -/
def interval (x : Binary64) : Interval :=
  let m := x.mantissa
  let gap := if m = Nat.pow 2 52 && x.exponent > leastExponent then 1 else 2
  ⟨4 * m - gap, 4 * m, 4 * m + 2, m % 2 = 0⟩

/-- The multiple of `10^g` next to the value that lies in the interval, the nearer one if there are
two, the even one if they are equally near. -/
def onGrid (x : Binary64) (g : Int) : Option Nat :=
  let i := x.interval
  let unit := Nat.pow 10 g.toNat * Nat.pow 2 (2 - x.exponent).toNat
  let scale := Nat.pow 2 (x.exponent - 2).toNat * Nat.pow 10 (-g).toNat
  let inside (c : Nat) : Bool :=
    if i.closed then i.low * scale ≤ c * unit && c * unit ≤ i.high * scale
    else i.low * scale < c * unit && c * unit < i.high * scale
  let below := i.value * scale / unit
  let above := below + 1
  match inside below, inside above with
  | false, false => none
  | true, false => some below
  | false, true => some above
  | true, true =>
    let down := i.value * scale - below * unit
    let up := above * unit - i.value * scale
    if down < up || (down = up && below % 2 = 0) then some below else some above

/-- Tries the grids of `digits` and more digits, at most `tries` of them. -/
def searchGrid (x : Binary64) (order : Int) (digits : Nat) : Nat → Nat × Int
  | 0 => (x.floorMagnitude, 0)
  | tries + 1 =>
    let g := order - digits + 1
    match x.onGrid g with
    | some c => (c, g)
    | none => searchGrid x order (digits + 1) tries

/-- Takes the trailing zeros off `c · 10^g`, at most `n` of them. -/
def dropZeros (c : Nat) (g : Int) : Nat → Nat × Int
  | 0 => (c, g)
  | n + 1 => if c % 10 = 0 then dropZeros (c / 10) (g + 1) n else (c, g)

/-- The magnitude of a number that is not zero as `c · 10^g`, with the fewest digits in `c`. -/
def shortest (x : Binary64) : Nat × Int :=
  let r := x.magnitude
  let (c, g) := x.searchGrid (decimalOrder r.1 r.2) 1 17
  dropZeros c g 17

end Binary64

end RegistryGraph
