import RegistryGraph.Text.Hex
import RegistryGraph.Yaml.Glyph

/-!
# Scalars

The scalars of YAML: plain, between single or double quotes, and in blocks.  Every reader walks the
input once and delivers the text together with the rest of the input.  In plain and quoted scalars, and
in folded blocks, a single line end between words counts as a space and further ones stand for
themselves.
-/

namespace RegistryGraph.Yaml

/-! ## Folding of lines -/

/-- A text whose lines are being folded. All its lists stand latest first. -/
structure Folding where
  text : List Char
  /-- The blanks since the last word, if they are on its line. -/
  blanks : List Char
  /-- The first line end since the last word, if it may become a space. -/
  firstBreak : Option Char
  /-- The line ends after it. -/
  breaks : List Char
  /-- Whether a line has ended since the last word. -/
  lineEnded : Bool

namespace Folding

/-- No text. -/
def empty : Folding := ⟨[], [], none, [], false⟩

/-- The text with what separates it from the next word. -/
def joined (f : Folding) : List Char :=
  if !f.lineEnded then f.blanks ++ f.text
  else
    match f.firstBreak with
    | none => f.breaks ++ f.text
    | some '\n' => if f.breaks.isEmpty then ' ' :: f.text else f.breaks ++ f.text
    | some c => f.breaks ++ c :: f.text

/-- Adds a character of a word. -/
def push (f : Folding) (c : Char) : Folding := ⟨c :: f.joined, [], none, [], false⟩

/-- Adds a blank or a line end between words. -/
def addSpace (f : Folding) (g : Glyph) : Folding :=
  if g.isBlank then if f.lineEnded then f else { f with blanks := g.char :: f.blanks }
  else if f.lineEnded then { f with breaks := g.char :: f.breaks }
  else { f with blanks := [], firstBreak := some g.char, lineEnded := true }

/-- Takes in a line end that stands for nothing. -/
def continueLine (f : Folding) : Folding := ⟨f.joined, [], none, [], true⟩

/-- The text in reading order, with the blanks at its end. -/
def closed (f : Folding) : List Char := f.joined.reverse

end Folding

/-! ## Quoted scalars -/

/-- Reads the rest of a scalar between single quotes. -/
def singleQuotedFrom (f : Folding) : Input → Except Fault (List Char × Input)
  | [] => .error .unfinishedScalar
  | g :: rest =>
    if g.isSpace then singleQuotedFrom (f.addSpace g) rest
    else if Input.isDocumentMark (g :: rest) then .error .unfinishedScalar
    else if g.char ≠ '\'' then singleQuotedFrom (f.push g.char) rest
    else
      match rest with
      | [] => .ok (f.closed, [])
      | h :: rest' =>
        if h.char = '\'' then singleQuotedFrom (f.push '\'') rest' else .ok (f.closed, h :: rest')

/-- The character that a one-letter escape stands for. -/
def escaped? (c : Char) : Option Char :=
  match c with
  | '0' => some '\x00'
  | 'a' => some '\x07'
  | 'b' => some '\x08'
  | 't' | '\t' => some '\t'
  | 'n' => some '\n'
  | 'v' => some '\x0b'
  | 'f' => some '\x0c'
  | 'r' => some '\r'
  | 'e' => some '\x1b'
  | ' ' => some ' '
  | '"' => some '"'
  | '/' => some '/'
  | '\\' => some '\\'
  | 'N' => some '\u0085'
  | '_' => some '\u00a0'
  | 'L' => some '\u2028'
  | 'P' => some '\u2029'
  | _ => none

/-- The number of hexadecimal digits after the letter of an escape. -/
def escapeWidth? (c : Char) : Option Nat :=
  if c = 'x' then some 2 else if c = 'u' then some 4 else if c = 'U' then some 8 else none

/-- Where the reader is between double quotes. -/
inductive DoubleQuoted where
  | text
  /-- Behind a backslash. -/
  | escape
  /-- In an escape with so many digits to come and the given value so far. -/
  | hex (left value : Nat)

/-- Reads the rest of a scalar between double quotes. -/
def doubleQuotedFrom (f : Folding) : DoubleQuoted → Input → Except Fault (List Char × Input)
  | _, [] => .error .unfinishedScalar
  | .escape, g :: rest =>
    if g.isBreak then doubleQuotedFrom f.continueLine .text rest
    else
      match escaped? g.char, escapeWidth? g.char with
      | some c, _ => doubleQuotedFrom (f.push c) .text rest
      | none, some width => doubleQuotedFrom f (.hex width 0) rest
      | none, none => .error .badEscape
  | .hex left value, g :: rest =>
    match Hex.value? g.char with
    | none => .error .badEscape
    | some d =>
      let value := value * 16 + d
      if left > 1 then doubleQuotedFrom f (.hex (left - 1) value) rest
      else if value.isValidChar then doubleQuotedFrom (f.push (.ofNat value)) .text rest
      else .error .badEscape
  | .text, g :: rest =>
    if g.isSpace then doubleQuotedFrom (f.addSpace g) .text rest
    else if Input.isDocumentMark (g :: rest) then .error .unfinishedScalar
    else if g.char = '"' then .ok (f.closed, rest)
    else if g.char = '\\' then doubleQuotedFrom f .escape rest
    else doubleQuotedFrom (f.push g.char) .text rest

/-! ## Plain scalars -/

/-- A plain scalar: its text, whether a line has ended behind it, and the rest of the input. -/
structure Plain where
  text : List Char
  lineEnded : Bool
  rest : Input

/-- The indicators that end a plain scalar in a flow collection. -/
def isFlowIndicator (c : Char) : Bool := [',', '[', ']', '\x7b', '\x7d'].contains c

/-- Whether the glyph before `rest` ends a plain scalar. -/
def endsPlain (inFlow : Bool) (g : Glyph) (rest : Input) : Bool :=
  (g.char = ':' && rest.spaceAt 0) || (inFlow && isFlowIndicator g.char)

/-- Whether the glyph before `rest` is a colon that no plain scalar in a flow collection may hold. -/
def isStrayColon (inFlow : Bool) (g : Glyph) (rest : Input) : Bool :=
  inFlow && g.char = ':' && rest.head?.any fun h => isFlowIndicator h.char || h.char = '?'

/-- Reads a plain scalar, whose lines are indented by `indent` at least. `fresh` tells that the next
glyph begins a word. -/
def plainFrom (inFlow : Bool) (indent : Nat) (f : Folding) (fresh : Bool) :
    Input → Except Fault Plain
  | [] => .ok ⟨f.text.reverse, f.lineEnded, []⟩
  | g :: rest =>
    if g.isSpace then
      if g.char = '\t' && f.lineEnded && g.mark.column < indent then .error .tab
      else plainFrom inFlow indent (f.addSpace g) true rest
    else if fresh && !f.text.isEmpty && !inFlow && g.mark.column < indent then
      .ok ⟨f.text.reverse, f.lineEnded, g :: rest⟩
    else if fresh && (Input.isDocumentMark (g :: rest) || g.char = '#') then
      .ok ⟨f.text.reverse, f.lineEnded, g :: rest⟩
    else if isStrayColon inFlow g rest then .error .badIndicator
    else if endsPlain inFlow g rest then .ok ⟨f.text.reverse, f.lineEnded, g :: rest⟩
    else plainFrom inFlow indent (f.push g.char) false rest

/-! ## Blocks -/

/-- What becomes of the line ends at the end of a block. -/
inductive Chomping where
  | strip
  | clip
  | keep
deriving DecidableEq, Repr

/-- The head of a block. -/
structure BlockHeader where
  chomping : Chomping
  /-- The indentation relative to the parent, if the head gives it. -/
  increment : Option Nat
deriving DecidableEq, Repr

namespace BlockHeader

/-- The chomping that a character asks for. -/
def chomping? (c : Char) : Option Chomping :=
  if c = '+' then some .keep else if c = '-' then some .strip else none

/-- The indentation that a character gives; zero is none. -/
def increment? (c : Char) : Option Nat := if c.isDigit then some (c.toNat - 48) else none

/-- Reads the indicators behind the first. -/
def read : Input → BlockHeader × Input
  | g :: rest =>
    match chomping? g.char, increment? g.char with
    | some chomping, _ =>
      match rest.head?.bind (increment? ·.char) with
      | some n => (⟨chomping, some n⟩, rest.drop 1)
      | none => (⟨chomping, none⟩, rest)
    | none, some n =>
      match rest.head?.bind (chomping? ·.char) with
      | some chomping => (⟨chomping, some n⟩, rest.drop 1)
      | none => (⟨.clip, some n⟩, rest)
    | none, none => (⟨.clip, none⟩, g :: rest)
  | [] => (⟨.clip, none⟩, [])

/-- Skips blanks and a comment; what follows must be a line end or the end of the input. -/
def finishLine (input : Input) : Except Fault Input :=
  let rest : Input := input.dropWhile Glyph.isBlank
  let rest : Input := if rest.at? 0 '#' then rest.dropWhile (!·.isBreak) else rest
  match rest with
  | [] => .ok []
  | g :: rest => if g.isBreak then .ok rest else .error .unexpectedToken

end BlockHeader

/-- A block that is being read. Its lists stand latest first. -/
structure BlockText where
  text : List Char
  /-- The line end behind the last line. -/
  lastBreak : List Char
  /-- The line ends after it. -/
  breaks : List Char
  /-- Whether the last line began with a blank. -/
  blankStart : Bool
  /-- Whether the reader is inside a line. -/
  inLine : Bool

namespace BlockText

/-- Begins a line with the given glyph. -/
def beginLine (literal : Bool) (b : BlockText) (g : Glyph) : BlockText :=
  let folds := !literal && b.lastBreak = ['\n'] && !b.blankStart && !g.isBlank
  let joint := if folds then if b.breaks.isEmpty then [' '] else [] else b.lastBreak
  { text := g.char :: (b.breaks ++ (joint ++ b.text))
    lastBreak := []
    breaks := []
    blankStart := g.isBlank
    inLine := true }

/-- The text with the line ends that chomping leaves. -/
def closed (chomping : Chomping) (b : BlockText) : List Char :=
  match chomping with
  | .strip => b.text.reverse
  | .clip => (b.lastBreak ++ b.text).reverse
  | .keep => (b.breaks ++ (b.lastBreak ++ b.text)).reverse

end BlockText

/-- Skips the blank lines before the first line of a block without a given indentation. Delivers the
greatest column that was reached and the line ends. -/
def blockMargin (greatest : Nat) (breaks : List Char) :
    Input → Except Fault (Nat × List Char × Input)
  | [] => .ok (greatest, breaks, [])
  | g :: rest =>
    if g.char = ' ' then blockMargin greatest breaks rest
    else if g.char = '\t' then .error .tab
    else
      let greatest := max greatest g.mark.column
      if g.isBreak then blockMargin greatest (g.char :: breaks) rest
      else .ok (greatest, breaks, g :: rest)

/-- Reads the lines of a block. -/
def blockFrom (literal : Bool) (indent : Nat) (b : BlockText) :
    Input → Except Fault (BlockText × Input)
  | [] => .ok (b, [])
  | g :: rest =>
    if b.inLine then
      if g.isBreak then
        blockFrom literal indent { b with lastBreak := [g.char], inLine := false } rest
      else blockFrom literal indent { b with text := g.char :: b.text } rest
    else if g.mark.column < indent && g.char = ' ' then blockFrom literal indent b rest
    else if g.mark.column < indent && g.char = '\t' then .error .tab
    else if g.isBreak then blockFrom literal indent { b with breaks := g.char :: b.breaks } rest
    else if g.mark.column = indent then blockFrom literal indent (b.beginLine literal g) rest
    else .ok (b, g :: rest)

/-- Reads a block behind its first indicator; `parent` is the indentation around it. -/
def readBlock (literal : Bool) (parent : Int) (input : Input) :
    Except Fault (List Char × Input) := do
  let (header, rest) := BlockHeader.read input
  if header.increment = some 0 then throw .badIndicator
  let rest ← BlockHeader.finishLine rest
  match header.increment with
  | some n =>
    let (b, rest) ← blockFrom literal (parent.toNat + n) ⟨[], [], [], false, false⟩ rest
    return (b.closed header.chomping, rest)
  | none =>
    let (greatest, breaks, rest) ← blockMargin 0 [] rest
    let indent := max greatest (max (parent + 1).toNat 1)
    let (b, rest) ← blockFrom literal indent ⟨[], [], breaks, false, false⟩ rest
    return (b.closed header.chomping, rest)

end RegistryGraph.Yaml
