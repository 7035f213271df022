import RegistryGraph.Text.Hex
import RegistryGraph.Text.Pieces

/-!
# Percent encoding

In addresses a percent sign and two hexadecimal digits stand for an octet; a percent sign without them
stands for itself.  A form is a list of pairs in this encoding, in which `+` stands for a blank.
-/

namespace RegistryGraph.Percent

/-- The octets that a percent-encoded sequence stands for. -/
def decodeOctets : Octets → Octets
  | [] => []
  | 0x25 :: a :: b :: rest =>
    match Hex.octetValue? a, Hex.octetValue? b with
    | some x, some y => .ofNat (16 * x + y) :: decodeOctets rest
    | _, _ => 0x25 :: decodeOctets (a :: b :: rest)
  | b :: rest => b :: decodeOctets rest

/-- The text that a percent-encoded text stands for. -/
def decode (s : String) : Except Utf8.Fault String := Utf8.decode (decodeOctets (Utf8.encode s))

/-- The text that one half of a pair in a form stands for; octets that encode nothing are replaced. -/
def decodeHalf (cs : List Char) : String :=
  let blanks := cs.map fun c => if c = '+' then ' ' else c
  Utf8.decodeLossy (decodeOctets (Utf8.encode (.ofList blanks)))

/-- The pairs of a form, in the order in which they are written. -/
def formPairs (s : String) : List (String × String) :=
  ((Text.pieces '&' s.toList).filter fun piece => !piece.isEmpty).map fun piece =>
    (decodeHalf (Text.before '=' piece), decodeHalf (Text.behind '=' piece))

end RegistryGraph.Percent
