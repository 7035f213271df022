import RegistryGraph.Json.Basic
import RegistryGraph.Text.Hex

/-!
# Writing JSON

`Json.compact` writes a value on one line without blanks, `Json.pretty` with an indentation of two
blanks per level.  Both write object members in the order in which the value holds them.  Strings
escape the quote, the backslash and the control characters below U+0020, and nothing else.
-/

namespace RegistryGraph.Json

/-- A character as it is written inside a string. -/
def escapeChar (c : Char) : List Char :=
  if c = '"' then ['\\', '"']
  else if c = '\\' then ['\\', '\\']
  else if c = '\n' then ['\\', 'n']
  else if c = '\r' then ['\\', 'r']
  else if c = '\t' then ['\\', 't']
  else if c = '\x08' then ['\\', 'b']
  else if c = '\x0c' then ['\\', 'f']
  else if c.toNat < 0x20 then
    ['\\', 'u', '0', '0', Hex.digit (c.toNat / 16), Hex.digit (c.toNat % 16)]
  else [c]

/-- A string between quotes. -/
def quoted (s : String) : List Char := '"' :: (s.toList.flatMap escapeChar ++ ['"'])

/-- Where positional notation of a floating-point number begins and ends, as exponents of ten. -/
structure DecimalLayout where
  /-- The least exponent written positionally. -/
  least : Int
  /-- The least exponent above those written positionally. -/
  bound : Int

/-- Numbers from `10^-5` up to `10^16` are written positionally, all others with an exponent. -/
def layout : DecimalLayout := ⟨-5, 16⟩

/-- The decimal digits of a natural number. -/
def digits (n : Nat) : List Char := Nat.toDigits 10 n

/-- An integer in decimal notation. -/
def integerChars (n : Int) : List Char :=
  if n < 0 then '-' :: digits n.natAbs else digits n.natAbs

/-- The digits `ds`, the first of which counts `10^order`, with a point and at least one digit on
either side of it. -/
def positional (ds : List Char) (order : Int) : List Char :=
  if order < 0 then '0' :: '.' :: (List.replicate (-order - 1).toNat '0' ++ ds)
  else
    let whole := order.toNat + 1
    if ds.length ≤ whole then ds ++ List.replicate (whole - ds.length) '0' ++ ['.', '0']
    else ds.take whole ++ '.' :: ds.drop whole

/-- The digits `ds` with a point after the first, if there are more, and a signed exponent. -/
def scientific (ds : List Char) (order : Int) : List Char :=
  let mantissa := if ds.length ≤ 1 then ds else ds.take 1 ++ '.' :: ds.drop 1
  mantissa ++ ['e', if order < 0 then '-' else '+'] ++ digits order.natAbs

/-- A floating-point number: the fewest digits that read back. -/
def doubleChars (x : Binary64) : List Char :=
  let sign := if x.negative then ['-'] else []
  if x.isZero then sign ++ ['0', '.', '0']
  else
    let (c, g) := x.shortest
    let ds := digits c
    let order := g + ds.length - 1
    sign ++
      (if layout.least ≤ order && order < layout.bound then positional ds order
       else scientific ds order)

/-- A number. -/
def numberChars : Number → List Char
  | .integer n => integerChars n
  | .double x => doubleChars x

mutual

/-- A value on one line. -/
def chars : Json → List Char
  | .null => ['n', 'u', 'l', 'l']
  | .bool true => ['t', 'r', 'u', 'e']
  | .bool false => ['f', 'a', 'l', 's', 'e']
  | .number n => numberChars n
  | .string s => quoted s
  | .array items => '[' :: (itemChars items ++ [']'])
  | .object members => '{' :: (memberChars members ++ ['}'])

/-- Items with commas between them. -/
def itemChars : List Json → List Char
  | [] => []
  | v :: rest => chars v ++ itemCharsAfter rest

/-- Items with a comma before each. -/
def itemCharsAfter : List Json → List Char
  | [] => []
  | v :: rest => ',' :: (chars v ++ itemCharsAfter rest)

/-- Members with commas between them. -/
def memberChars : List (String × Json) → List Char
  | [] => []
  | (k, v) :: rest => quoted k ++ ':' :: (chars v ++ memberCharsAfter rest)

/-- Members with a comma before each. -/
def memberCharsAfter : List (String × Json) → List Char
  | [] => []
  | (k, v) :: rest => ',' :: (quoted k ++ ':' :: (chars v ++ memberCharsAfter rest))

end

/-- A value on one line without blanks. -/
def compact (v : Json) : String := .ofList (chars v)

/-- A new line at the given level of indentation. -/
def newLine (level : Nat) : List Char := '\n' :: List.replicate (2 * level) ' '

mutual

/-- A value whose parts stand on lines of their own, at the given level of indentation. -/
def prettyChars (level : Nat) : Json → List Char
  | .array [] => ['[', ']']
  | .array (v :: rest) =>
    '[' :: (newLine (level + 1) ++ prettyChars (level + 1) v ++ prettyItems (level + 1) rest ++
      newLine level ++ [']'])
  | .object [] => ['{', '}']
  | .object ((k, v) :: rest) =>
    '{' :: (newLine (level + 1) ++ quoted k ++ [':', ' '] ++ prettyChars (level + 1) v ++
      prettyMembers (level + 1) rest ++ newLine level ++ ['}'])
  | .null => chars .null
  | .bool b => chars (.bool b)
  | .number n => chars (.number n)
  | .string s => chars (.string s)

/-- Items, each after a comma and on a new line. -/
def prettyItems (level : Nat) : List Json → List Char
  | [] => []
  | v :: rest => ',' :: (newLine level ++ prettyChars level v ++ prettyItems level rest)

/-- Members, each after a comma and on a new line. -/
def prettyMembers (level : Nat) : List (String × Json) → List Char
  | [] => []
  | (k, v) :: rest =>
    ',' :: (newLine level ++ quoted k ++ [':', ' '] ++ prettyChars level v ++
      prettyMembers level rest)

end

/-- A value whose parts stand on lines of their own. -/
def pretty (v : Json) : String := .ofList (prettyChars 0 v)

end RegistryGraph.Json
