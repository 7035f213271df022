import RegistryGraph.Yaml.Scalar

/-!
# Tokens

The first reading of a stream cuts it into tokens.  Indentation shows up as tokens that open and close
block collections.  A key that is not marked as one is recognised only at its colon; its token is then
inserted where the key began, which is why the lexer remembers where a key could have begun.
-/

namespace RegistryGraph.Yaml

/-- A token. -/
inductive Token where
  | versionDirective
  | tagDirective (handle : String) (expansion : Octets)
  | documentStart
  | documentEnd
  | blockSequenceStart
  | blockMappingStart
  | blockEnd
  | flowSequenceStart
  | flowSequenceEnd
  | flowMappingStart
  | flowMappingEnd
  | blockEntry
  | flowEntry
  | key
  | value
  | alias (name : String)
  | anchor (name : String)
  | tag (handle : String) (suffix : Octets)
  | scalar (text : String) (plain : Bool)
deriving DecidableEq, Repr

/-! ## Names, tags and directives -/

/-- The text of some glyphs. -/
def textOf (glyphs : List Glyph) : String := .ofList (glyphs.map (·.char))

/-- The name at the start of the input, and the rest. -/
def takeName (input : Input) : String × Input :=
  (textOf (input.takeWhile Glyph.isNamePart), input.dropWhile Glyph.isNamePart)

/-- Reads the name of an anchor or an alias. -/
def readName (input : Input) : Except Fault (String × Input) :=
  let (name, rest) := takeName input
  if name.isEmpty then .error .badName
  else if rest.spaceAt 0 || rest.head?.any fun g =>
      ['?', ':', ',', ']', '\x7d', '%', '@', '`'].contains g.char then .ok (name, rest)
  else .error .badName

/-- Whether the character can stand in a tag; `brackets` admits the comma and the brackets. -/
def isTagChar (brackets : Bool) (g : Glyph) : Bool :=
  g.isNamePart ||
    [';', '/', '?', ':', '@', '&', '=', '+', '$', '.', '!', '~', '*', '\'', '(', ')'].contains
      g.char ||
    (brackets && [',', '[', ']'].contains g.char)

/-- The number of octets that follow the first octet of an escaped character. -/
def continuations? (octet : Nat) : Option Nat :=
  if octet < 0x80 then some 0
  else if 0xC0 ≤ octet && octet < 0xE0 then some 1
  else if 0xE0 ≤ octet && octet < 0xF0 then some 2
  else if 0xF0 ≤ octet && octet < 0xF8 then some 3
  else none

/-- Reads the characters of a tag behind the octets `done` (latest first); `pending` counts the octets
that the escaped character at hand still lacks. -/
def tagCharsFrom (brackets : Bool) (pending : Nat) (done : Octets) :
    Input → Except Fault (Octets × Input)
  | [] => if pending = 0 then .ok (done.reverse, []) else .error .badTag
  | g :: rest =>
    if g.char = '%' then
      match rest with
      | a :: b :: rest' =>
        match Hex.value? a.char, Hex.value? b.char with
        | some x, some y =>
          let octet := 16 * x + y
          if pending = 0 then
            match continuations? octet with
            | some n => tagCharsFrom brackets n (.ofNat octet :: done) rest'
            | none => .error .badTag
          else if 0x80 ≤ octet && octet < 0xC0 then
            tagCharsFrom brackets (pending - 1) (.ofNat octet :: done) rest'
          else .error .badTag
        | _, _ => .error .badTag
      | _ => .error .badTag
    else if pending ≠ 0 then .error .badTag
    else if isTagChar brackets g then
      tagCharsFrom brackets 0 ((String.utf8EncodeChar g.char).reverse ++ done) rest
    else .ok (done.reverse, g :: rest)

/-- Reads the handle of a tag: a mark, a name, and a mark if there is one. -/
def takeHandle : Input → Option (String × Input)
  | g :: rest =>
    if g.char ≠ '!' then none
    else
      let (name, rest) := takeName rest
      if rest.at? 0 '!' then some ("!" ++ name ++ "!", rest.drop 1) else some ("!" ++ name, rest)
  | [] => none

/-- Reads a tag. A tag without a handle has the empty one. -/
def readTag (inFlow : Bool) (input : Input) : Except Fault (Token × Input) := do
  let (token, (rest : Input)) ←
    if input.at? 1 '<' then
      let (octets, rest) ← tagCharsFrom true 0 [] (input.drop 2)
      if octets.isEmpty || !rest.at? 0 '>' then throw .badTag
      pure (Token.tag "" octets, rest.drop 1)
    else
      match takeHandle input with
      | none => throw .badTag
      | some (handle, rest) =>
        if handle.length > 1 && handle.back = '!' then
          let (octets, rest) ← tagCharsFrom false 0 [] rest
          if octets.isEmpty then throw .badTag
          pure (Token.tag handle octets, rest)
        else
          let start := Utf8.encode (handle.drop 1).toString
          let (octets, rest) ← tagCharsFrom false 0 start.reverse rest
          pure (if octets.isEmpty then Token.tag "" [0x21] else Token.tag "!" octets, rest)
  if rest.spaceAt 0 || (inFlow && rest.at? 0 ',') then return (token, rest)
  throw .badTag

/-- Reads a number of at most nine digits. -/
def readNumber (input : Input) : Except Fault (Nat × Input) :=
  let digits := input.takeWhile (·.char.isDigit)
  if digits.isEmpty || digits.length > 9 then .error .badDirective
  else
    .ok (digits.foldl (fun n g => 10 * n + (g.char.toNat - 48)) 0,
      input.dropWhile (·.char.isDigit))

/-- Reads the version in a directive; only versions 1.1 and 1.2 are known. -/
def readVersion (input : Input) : Except Fault (Token × Input) := do
  let (major, rest) ← readNumber input
  if !rest.at? 0 '.' then throw .badDirective
  let (minor, rest) ← readNumber (rest.drop 1)
  if major = 1 && (minor = 1 || minor = 2) then return (.versionDirective, rest)
  throw .badDirective

/-- Reads the handle and the expansion in a directive. -/
def readTagDirective (input : Input) : Except Fault (Token × Input) := do
  match takeHandle input with
  | none => throw .badDirective
  | some (handle, rest) =>
    if !(handle = "!" || (handle.length > 1 && handle.back = '!')) then throw .badDirective
    if !rest.head?.any Glyph.isBlank then throw .badDirective
    let (octets, rest) ← tagCharsFrom true 0 [] (rest.dropWhile Glyph.isBlank)
    if octets.isEmpty || !rest.spaceAt 0 then throw .badDirective
    return (.tagDirective handle octets, rest)

/-- Reads a directive behind its first character. -/
def readDirective (input : Input) : Except Fault (Token × Input) := do
  let (name, rest) := takeName input
  if !rest.spaceAt 0 then throw .badDirective
  let body := rest.dropWhile Glyph.isBlank
  let (token, rest) ←
    if name = "YAML" then readVersion body
    else if name = "TAG" then readTagDirective body
    else throw .badDirective
  return (token, ← BlockHeader.finishLine rest)

/-! ## The lexer -/

/-- Where a key may have begun. -/
structure PossibleKey where
  /-- The number of the token that would be the key. -/
  token : Nat
  mark : Mark
  /-- Whether nothing else could stand there. -/
  required : Bool
deriving DecidableEq, Repr

/-- What the lexer remembers. -/
structure Lexer where
  /-- The tokens so far, latest first. -/
  tokens : List Token
  /-- The column of the innermost block collection; -1 outside. -/
  indent : Int
  /-- The columns around it, innermost first. -/
  outer : List Int
  /-- The possible key of every open flow collection, innermost first, and last the one outside. -/
  keys : List (Option PossibleKey)
  /-- Whether a key may begin here. -/
  keyAllowed : Bool
deriving Repr

namespace Lexer

/-- The lexer at the start of a stream. -/
def start : Lexer := ⟨[], -1, [], [none], true⟩

/-- Whether a flow collection is open. -/
def inFlow (l : Lexer) : Bool := l.keys.length > 1

/-- Adds a token. -/
def add (l : Lexer) (t : Token) : Lexer := { l with tokens := t :: l.tokens }

/-- Inserts a token before the token with the given number. -/
def insertAt (l : Lexer) (number : Nat) (t : Token) : Lexer :=
  { l with tokens := l.tokens.insertIdx (l.tokens.length - number) t }

/-- Closes the block collections beyond the column. -/
def closeTo (column : Int) (tokens : List Token) (indent : Int) :
    List Int → List Token × Int × List Int
  | [] => (tokens, indent, [])
  | i :: outer =>
    if indent > column then closeTo column (.blockEnd :: tokens) i outer
    else (tokens, indent, i :: outer)

/-- Closes the block collections beyond the column, unless a flow collection is open. -/
def unroll (l : Lexer) (column : Int) : Lexer :=
  if l.inFlow then l
  else
    let (tokens, indent, outer) := closeTo column l.tokens l.indent l.outer
    { l with tokens, indent, outer }

/-- Opens a block collection at the column, unless one is open there, with a token before the token
with the given number. -/
def roll (l : Lexer) (column number : Nat) (t : Token) : Lexer :=
  if l.inFlow || l.indent ≥ column then l
  else { l.insertAt number t with indent := column, outer := l.indent :: l.outer }

/-- Gives up the possible key of the innermost collection. -/
def dropKey (l : Lexer) : Except Fault Lexer :=
  match l.keys with
  | some key :: outer =>
    if key.required then .error .unfinishedKey else .ok { l with keys := none :: outer }
  | _ => .ok l

/-- Notes that a key may begin at the mark. -/
def noteKey (l : Lexer) (mark : Mark) : Except Fault Lexer :=
  if l.keyAllowed then do
    let l ← l.dropKey
    let required := !l.inFlow && l.indent = mark.column
    return { l with keys := some ⟨l.tokens.length, mark, required⟩ :: l.keys.drop 1 }
  else .ok l

/-- The greatest distance between the start of a key and its colon. -/
def keyReach : Nat := 1024

/-- The possible key whose colon stands at the mark: on its line and within reach. -/
def liveKey (l : Lexer) (mark : Mark) : Except Fault (Option PossibleKey) :=
  match l.keys with
  | some key :: _ =>
    if key.mark.line < mark.line || key.mark.index + keyReach < mark.index then
      if key.required then .error .unfinishedKey else .ok none
    else .ok (some key)
  | _ => .ok none

/-- A token that begins a document, ends one, or comes before one. -/
def boundary (l : Lexer) (t : Token) : Except Fault Lexer := do
  let l ← (l.unroll (-1)).dropKey
  return { l.add t with keyAllowed := false }

/-- A token that may be a key. -/
def node (l : Lexer) (mark : Mark) (t : Token) : Except Fault Lexer := do
  let l ← l.noteKey mark
  return { l.add t with keyAllowed := false }

/-- The start of a flow collection. -/
def openFlow (l : Lexer) (mark : Mark) (t : Token) : Except Fault Lexer := do
  let l ← l.noteKey mark
  return { l.add t with keys := none :: l.keys, keyAllowed := true }

/-- The end of a flow collection. -/
def closeFlow (l : Lexer) (t : Token) : Except Fault Lexer := do
  let l ← l.dropKey
  return { l.add t with keys := if l.inFlow then l.keys.drop 1 else l.keys, keyAllowed := false }

/-- A comma between the entries of a flow collection. -/
def flowEntry (l : Lexer) : Except Fault Lexer := do
  let l ← l.dropKey
  return { l.add .flowEntry with keyAllowed := true }

/-- A dash before an entry of a block sequence. -/
def blockEntry (l : Lexer) (mark : Mark) : Except Fault Lexer := do
  if !l.inFlow && !l.keyAllowed then throw .misplacedEntry
  let l ← (l.roll mark.column l.tokens.length .blockSequenceStart).dropKey
  return { l.add .blockEntry with keyAllowed := true }

/-- A question mark before a key. -/
def explicitKey (l : Lexer) (mark : Mark) : Except Fault Lexer := do
  if !l.inFlow && !l.keyAllowed then throw .misplacedKey
  let l ← (l.roll mark.column l.tokens.length .blockMappingStart).dropKey
  return { l.add .key with keyAllowed := !l.inFlow }

/-- A colon before a value. What could be a key before it is one. -/
def value (l : Lexer) (mark : Mark) : Except Fault Lexer := do
  match ← l.liveKey mark with
  | some key =>
    let l := (l.insertAt key.token .key).roll key.mark.column key.token .blockMappingStart
    return { l.add .value with keys := none :: l.keys.drop 1, keyAllowed := false }
  | none =>
    if !l.inFlow && !l.keyAllowed then throw .misplacedValue
    let l := l.roll mark.column l.tokens.length .blockMappingStart
    return { l.add .value with keyAllowed := !l.inFlow }

/-- Skips blanks, comments and line ends. A line end outside flow collections admits keys. -/
def skip (inFlow keyAllowed inComment : Bool) : Input → Bool × Input
  | [] => (keyAllowed, [])
  | g :: rest =>
    if g.isBreak then skip inFlow (keyAllowed || !inFlow) false rest
    else if inComment then skip inFlow keyAllowed true rest
    else if g.char = ' ' || (g.char = '\t' && (inFlow || !keyAllowed)) then
      skip inFlow keyAllowed false rest
    else if g.char = '\uFEFF' && g.mark.index = 0 then skip inFlow keyAllowed false rest
    else if g.char = '#' then skip inFlow keyAllowed true rest
    else (keyAllowed, g :: rest)

/-- The characters that begin something else than a plain scalar. -/
def indicators : List Char :=
  ['-', '?', ':', ',', '[', ']', '\x7b', '\x7d', '#', '&', '*', '!', '|', '>', '\'', '"', '%',
    '@', '`']

/-- Whether the glyph before `rest` begins a plain scalar. -/
def beginsPlain (inFlow : Bool) (g : Glyph) (rest : Input) : Bool :=
  !(g.isSpace || indicators.contains g.char) ||
    (g.char = '-' && !rest.head?.any Glyph.isBlank) ||
    (!inFlow && (g.char = '?' || g.char = ':') && !rest.spaceAt 0)

/-- Reads the token that begins with the glyph `g` before `rest`. -/
def readToken (l : Lexer) (g : Glyph) (rest : Input) : Except Fault (Lexer × Input) := do
  let input : Input := g :: rest
  let mark := g.mark
  let beforeSpace := rest.spaceAt 0
  if mark.column = 0 && g.char = '%' then
    let (token, rest) ← readDirective rest
    return (← l.boundary token, rest)
  else if input.documentMark '-' then return (← l.boundary .documentStart, rest.drop 2)
  else if input.documentMark '.' then return (← l.boundary .documentEnd, rest.drop 2)
  else if g.char = '[' then return (← l.openFlow mark .flowSequenceStart, rest)
  else if g.char = '\x7b' then return (← l.openFlow mark .flowMappingStart, rest)
  else if g.char = ']' then return (← l.closeFlow .flowSequenceEnd, rest)
  else if g.char = '\x7d' then return (← l.closeFlow .flowMappingEnd, rest)
  else if g.char = ',' then return (← l.flowEntry, rest)
  else if g.char = '-' && beforeSpace then return (← l.blockEntry mark, rest)
  else if g.char = '?' && (l.inFlow || beforeSpace) then return (← l.explicitKey mark, rest)
  else if g.char = ':' && (l.inFlow || beforeSpace) then return (← l.value mark, rest)
  else if g.char = '*' then
    let (name, rest) ← readName rest
    return (← l.node mark (.alias name), rest)
  else if g.char = '&' then
    let (name, rest) ← readName rest
    return (← l.node mark (.anchor name), rest)
  else if g.char = '!' then
    let (token, rest) ← readTag l.inFlow input
    return (← l.node mark token, rest)
  else if (g.char = '|' || g.char = '>') && !l.inFlow then
    let l ← l.dropKey
    let (text, rest) ← readBlock (g.char = '|') l.indent rest
    return ({ l.add (.scalar (.ofList text) false) with keyAllowed := true }, rest)
  else if g.char = '\'' then
    let (text, rest) ← singleQuotedFrom .empty rest
    return (← l.node mark (.scalar (.ofList text) false), rest)
  else if g.char = '"' then
    let (text, rest) ← doubleQuotedFrom .empty .text rest
    return (← l.node mark (.scalar (.ofList text) false), rest)
  else if beginsPlain l.inFlow g rest then
    let plain ← plainFrom l.inFlow (l.indent + 1).toNat .empty true input
    let l ← l.node mark (.scalar (.ofList plain.text) true)
    return ({ l with keyAllowed := plain.lineEnded }, plain.rest)
  else throw .badIndicator

/-- Reads tokens until the input ends, `steps` of them at most. -/
def run (l : Lexer) (input : Input) : Nat → Except Fault (List Token)
  | 0 => .error .unexpectedToken
  | steps + 1 => do
    let (keyAllowed, rest) := skip l.inFlow l.keyAllowed false input
    let l := { l with keyAllowed }
    match rest with
    | [] =>
      let l ← (l.unroll (-1)).dropKey
      return l.tokens.reverse
    | g :: rest =>
      let (l, rest) ← (l.unroll g.mark.column).readToken g rest
      run l rest steps

end Lexer

/-- The tokens of a stream. Every token takes one character at least. -/
def tokens (octets : Octets) : Except Fault (List Token) := do
  let (glyphs, _) ← Stream.glyphs octets
  Lexer.start.run glyphs (glyphs.length + 1)

end RegistryGraph.Yaml
