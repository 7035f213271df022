import RegistryGraph.Text.Utf16

/-!
# The characters of a YAML stream

A stream is read as a list of glyphs: characters with their place.  The encoding is recognised by the
octet order mark at the start, and is UTF-8 without one.  Line ends of one or two characters become one
glyph, a line feed; the line and paragraph separators are line ends too, but stay what they are.
-/

namespace RegistryGraph.Yaml

/-- What makes a YAML stream unreadable. -/
inductive Fault where
  | encoding
  | forbiddenCharacter
  | tab
  | unfinishedScalar
  | badEscape
  | badIndicator
  | badName
  | badTag
  | badDirective
  | unknownTagHandle
  | misplacedEntry
  | misplacedKey
  | misplacedValue
  | unfinishedKey
  | unexpectedToken
  | unknownAnchor
  | manyDocuments
  /-- A value of another kind than the one that is wanted. -/
  | shape
  | repeatedField
  | missingField
deriving DecidableEq, Repr

/-- The wording of a fault. -/
def Fault.message : Fault → String
  | .encoding => "the stream is not valid in its encoding"
  | .forbiddenCharacter => "control characters are not allowed"
  | .tab => "found a tab character where an indentation blank is expected"
  | .unfinishedScalar => "found an unexpected end of a quoted scalar"
  | .badEscape => "found an unknown escape"
  | .badIndicator => "found a character that cannot start any token"
  | .badName => "did not find the expected name of an anchor or alias"
  | .badTag => "found a malformed tag"
  | .badDirective => "found a malformed directive"
  | .unknownTagHandle => "found an undefined tag handle"
  | .misplacedEntry => "block sequence entries are not allowed in this context"
  | .misplacedKey => "mapping keys are not allowed in this context"
  | .misplacedValue => "mapping values are not allowed in this context"
  | .unfinishedKey => "could not find the expected colon"
  | .unexpectedToken => "did not find the expected node content"
  | .unknownAnchor => "unknown anchor"
  | .manyDocuments => "there is more than one document"
  | .shape => "a value has an unexpected type"
  | .repeatedField => "a field occurs twice"
  | .missingField => "a field is missing"

/-- A place in a stream. -/
structure Mark where
  /-- The number of characters before it. -/
  index : Nat
  line : Nat
  column : Nat
deriving DecidableEq, Repr, Inhabited

/-- A character and its place. -/
structure Glyph where
  char : Char
  mark : Mark
deriving DecidableEq, Repr

namespace Glyph

/-- A line end. -/
def isBreakChar (c : Char) : Bool := c = '\n' || c = '\u2028' || c = '\u2029'

/-- A space or a tab. -/
def isBlankChar (c : Char) : Bool := c = ' ' || c = '\t'

/-- Whether the glyph is a line end. -/
def isBreak (g : Glyph) : Bool := isBreakChar g.char

/-- Whether the glyph is a space or a tab. -/
def isBlank (g : Glyph) : Bool := isBlankChar g.char

/-- Whether the glyph separates words. -/
def isSpace (g : Glyph) : Bool := g.isBlank || g.isBreak

/-- Whether the glyph can be part of a name. -/
def isNamePart (g : Glyph) : Bool := g.char.isAlphanum || g.char = '_' || g.char = '-'

end Glyph

/-- The rest of a stream. -/
abbrev Input : Type := List Glyph

namespace Input

/-- Whether the character at an offset is the given one. -/
def at? (input : Input) (offset : Nat) (c : Char) : Bool := input[offset]?.any (·.char = c)

/-- Whether a blank, a line end or the end of the stream stands at an offset. -/
def spaceAt (input : Input) (offset : Nat) : Bool := input[offset]?.all Glyph.isSpace

/-- Whether the stream continues, at the start of a line, with a mark between documents. -/
def documentMark (c : Char) (input : Input) : Bool :=
  input.head?.any (·.mark.column = 0) &&
    input.at? 0 c && input.at? 1 c && input.at? 2 c && input.spaceAt 3

/-- Whether the stream continues with the start or the end of a document. -/
def isDocumentMark (input : Input) : Bool :=
  input.documentMark '-' || input.documentMark '.'

end Input

namespace Stream

/-- The characters that a stream may contain. -/
def isAllowed (c : Char) : Bool :=
  let n := c.toNat
  n = 0x09 || n = 0x0A || n = 0x0D || (0x20 ≤ n && n ≤ 0x7E) || n = 0x85 ||
  (0xA0 ≤ n && n ≤ 0xD7FF) || (0xE000 ≤ n && n ≤ 0xFFFD) || 0x10000 ≤ n

/-- Decodes the octets by their octet order mark. -/
def decode? : Octets → Option (List Char)
  | 0xFF :: 0xFE :: rest => Utf16.decode? .littleEndian rest
  | 0xFE :: 0xFF :: rest => Utf16.decode? .bigEndian rest
  | octets =>
    let body := if [0xEF, 0xBB, 0xBF].isPrefixOf octets then octets.drop 3 else octets
    match Utf8.decode body with
    | .ok s => some s.toList
    | .error _ => none

/-- The glyphs of the characters from a mark on, behind those in `done` (latest first), and the mark
at the end. -/
def glyphsFrom (done : List Glyph) (mark : Mark) : List Char → List Glyph × Mark
  | [] => (done.reverse, mark)
  | '\r' :: '\n' :: rest =>
    glyphsFrom (⟨'\n', mark⟩ :: done) ⟨mark.index + 2, mark.line + 1, 0⟩ rest
  | c :: rest =>
    let char := if c = '\r' || c = '\u0085' then '\n' else c
    glyphsFrom (⟨char, mark⟩ :: done)
      (if Glyph.isBreakChar char then ⟨mark.index + 1, mark.line + 1, 0⟩
       else ⟨mark.index + 1, mark.line, mark.column + 1⟩)
      rest

/-- The glyphs of a stream and the mark at its end. -/
def glyphs (octets : Octets) : Except Fault (List Glyph × Mark) :=
  match decode? octets with
  | none => .error .encoding
  | some cs =>
    if cs.all isAllowed then .ok (glyphsFrom [] ⟨0, 0, 0⟩ cs) else .error .forbiddenCharacter

end Stream

end RegistryGraph.Yaml
