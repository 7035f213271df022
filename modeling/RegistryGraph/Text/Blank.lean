/-!
# White space and trimming

White space is the Unicode property `White_Space`.  `trim` takes it off both ends of a text and
touches nothing inside.
-/

namespace RegistryGraph.Text

/-- The Unicode property `White_Space`. -/
def isBlank (c : Char) : Bool :=
  let n := c.toNat
  (0x09 ≤ n && n ≤ 0x0D) || n = 0x20 || n = 0x85 || n = 0xA0 || n = 0x1680 ||
  (0x2000 ≤ n && n ≤ 0x200A) || n = 0x2028 || n = 0x2029 || n = 0x202F || n = 0x205F || n = 0x3000

/-- Takes the blanks off both ends. -/
def trimChars (cs : List Char) : List Char :=
  ((cs.dropWhile isBlank).reverse.dropWhile isBlank).reverse

/-- Takes the white space off both ends of a text. -/
def trim (s : String) : String := .ofList (trimChars s.toList)

/-- Nothing but white space. -/
def allBlank (s : String) : Bool := s.toList.all isBlank

/-- Lower case of the ASCII letters; every other character stays. -/
def asciiLower (s : String) : String := .ofList (s.toList.map Char.toLower)

end RegistryGraph.Text
