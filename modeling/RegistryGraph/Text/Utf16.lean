import RegistryGraph.Text.Utf8

/-!
# UTF-16

Reading text from octets in pairs.  A character above U+FFFF is written as two units, a leading and a
trailing surrogate; a surrogate that stands alone is a fault.
-/

namespace RegistryGraph.Utf16

/-- The order of the two octets of a unit. -/
inductive Order where
  | littleEndian
  | bigEndian
deriving DecidableEq, Repr

/-- The unit that two octets make. -/
def Order.unit (order : Order) (first second : UInt8) : Nat :=
  match order with
  | .littleEndian => first.toNat + 256 * second.toNat
  | .bigEndian => 256 * first.toNat + second.toNat

/-- The units of a sequence of octets; none if its length is odd. -/
def units? (order : Order) : Octets → Option (List Nat)
  | [] => some []
  | [_] => none
  | a :: b :: rest => (units? order rest).map (order.unit a b :: ·)

/-- A leading surrogate. -/
def isLeading (u : Nat) : Bool := 0xD800 ≤ u && u < 0xDC00

/-- A trailing surrogate. -/
def isTrailing (u : Nat) : Bool := 0xDC00 ≤ u && u < 0xE000

/-- The character of two surrogates. -/
def pair (leading trailing : Nat) : Char :=
  .ofNat (0x10000 + (leading - 0xD800) * 0x400 + (trailing - 0xDC00))

/-- The characters of a sequence of units; none if a surrogate stands alone. -/
def ofUnits? : List Nat → Option (List Char)
  | [] => some []
  | [u] => if isLeading u || isTrailing u then none else some [.ofNat u]
  | u :: v :: rest =>
    if isTrailing u then none
    else if isLeading u then
      if isTrailing v then (ofUnits? rest).map (pair u v :: ·) else none
    else (ofUnits? (v :: rest)).map (.ofNat u :: ·)

/-- The characters that the octets encode. -/
def decode? (order : Order) (octets : Octets) : Option (List Char) :=
  (units? order octets).bind ofUnits?

end RegistryGraph.Utf16
