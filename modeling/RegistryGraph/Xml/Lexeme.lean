import RegistryGraph.Xml.Fault

/-!
# Lexemes of a document

The first reading of a document cuts it into runs of character data and pieces of markup.  The reader
is a machine over octets: `Lexer.step` takes one octet, and may complete a lexeme with it.  Nothing
here knows which tags belong together.

A piece of markup starts at its `<` and stops behind its `>`.  A run of character data starts behind
one and stops before the other, or at the end of the input.
-/

namespace RegistryGraph.Xml

/-- Blanks inside markup. -/
def isBlank (b : UInt8) : Bool := b = 0x20 || b = 0x0D || b = 0x0A || b = 0x09

/-- A piece of a document. -/
inductive Lexeme where
  /-- Character data, as it is written. -/
  | text (raw : Octets)
  /-- What stands between `<` and `>` in a start tag or an empty-element tag. -/
  | tag (content : Octets)
  /-- What stands between `</` and `>`. -/
  | close (content : Octets)
  /-- The characters of a CDATA section. -/
  | cdata (raw : Octets)
  /-- A comment, a document type, a processing instruction or a declaration. -/
  | ignored
deriving DecidableEq, Repr

/-- Something with the offsets at which it starts and stops. -/
structure Located (α : Type) where
  start : Nat
  stop : Nat
  item : α
deriving DecidableEq, Repr

/-- A fault and its offset. -/
structure LocatedFault where
  fault : Fault
  position : Nat
deriving DecidableEq, Repr

namespace Lexer

/-- Whether a tag's reader is inside a quoted value. -/
inductive Quoting where
  | outside
  | single
  | double
deriving DecidableEq, Repr

/-- The quoting after the octet `b`. -/
def Quoting.next (b : UInt8) : Quoting → Quoting
  | .outside => if b = 0x27 then .single else if b = 0x22 then .double else .outside
  | .single => if b = 0x27 then .outside else .single
  | .double => if b = 0x22 then .outside else .double

/-- What the lexer is reading. The octets of it that it keeps stand latest first. -/
inductive Mode where
  | text (run : Octets)
  /-- Just behind a `<`. -/
  | opened
  | tag (quoting : Quoting) (run : Octets)
  | close (quoting : Quoting) (run : Octets)
  | instruction (run : Octets)
  /-- Just behind `<!`. -/
  | bang
  | comment (run : Octets)
  | cdata (run : Octets)
  | doctype (nested : Nat) (run : Octets)
deriving DecidableEq, Repr

/-- The mode, and the offset at which the lexeme at hand starts. -/
structure State where
  mode : Mode
  start : Nat
deriving DecidableEq, Repr

/-- The octets of `[CDATA[`. -/
def cdataMark : Octets := [0x5B, 0x43, 0x44, 0x41, 0x54, 0x41, 0x5B]

/-- The octets of `DOCTYPE`, in upper case. -/
def doctypeMark : Octets := [0x44, 0x4F, 0x43, 0x54, 0x59, 0x50, 0x45]

/-- Upper case of an ASCII letter. -/
def upper (b : UInt8) : UInt8 := if 0x61 ≤ b && b ≤ 0x7A then b - 0x20 else b

/-- One octet of a start tag. -/
def stepTag (b : UInt8) (quoting : Quoting) (run : Octets) : Mode × Option Lexeme :=
  if b = 0x3E && quoting = .outside then (.text [], some (.tag run.reverse))
  else (.tag (quoting.next b) (b :: run), none)

/-- The end of a comment whose octets behind `<!` are `run`, latest first. -/
def endsComment (run : Octets) : Bool := run.take 2 = [0x2D, 0x2D] && 4 ≤ run.length

/-- The end of a CDATA section whose octets behind `<!` are `run`, latest first. -/
def endsCData (run : Octets) : Bool := run.take 2 = [0x5D, 0x5D]

/-- A finished CDATA section: the octets between its marks. -/
def cdataContent? (run : Octets) : Option Octets :=
  let content := run.reverse
  if cdataMark.isPrefixOf content then
    some ((content.drop cdataMark.length).take (content.length - cdataMark.length - 2))
  else none

/-- What a finished `<!D…>` is: a document type, one without a name, or none. -/
def doctypeFault? (run : Octets) : Option Fault :=
  let content := run.reverse
  if doctypeMark.isPrefixOf (content.map upper) then
    if (content.drop doctypeMark.length).all isBlank then some (.form .missingDoctypeName) else none
  else some (.markup .unclosedDoctype)

/-- Reads the octet `b` at `offset`. -/
def step (offset : Nat) (b : UInt8) (s : State) :
    Except LocatedFault (State × Option Lexeme) :=
  match s.mode with
  | .text run =>
    if b = 0x3C then
      .ok (⟨.opened, offset⟩, if run.isEmpty then none else some (.text run.reverse))
    else .ok (⟨.text (b :: run), s.start⟩, none)
  | .opened =>
    if b = 0x21 then .ok (⟨.bang, s.start⟩, none)
    else if b = 0x2F then .ok (⟨.close .outside [], s.start⟩, none)
    else if b = 0x3F then .ok (⟨.instruction [b], s.start⟩, none)
    else
      let (mode, lexeme) := stepTag b .outside []
      .ok (⟨mode, if lexeme.isSome then offset + 1 else s.start⟩, lexeme)
  | .tag quoting run =>
    let (mode, lexeme) := stepTag b quoting run
    .ok (⟨mode, if lexeme.isSome then offset + 1 else s.start⟩, lexeme)
  | .close quoting run =>
    if b = 0x3E && quoting = .outside then
      .ok (⟨.text [], offset + 1⟩, some (.close run.reverse))
    else .ok (⟨.close (quoting.next b) (b :: run), s.start⟩, none)
  | .instruction run =>
    if b = 0x3E && run.head? = some 0x3F then
      if run.length > 1 then .ok (⟨.text [], offset + 1⟩, some .ignored)
      else .error ⟨.markup .unclosedInstruction, s.start⟩
    else .ok (⟨.instruction (b :: run), s.start⟩, none)
  | .bang =>
    if b = 0x5B then .ok (⟨.cdata [b], s.start⟩, none)
    else if b = 0x2D then .ok (⟨.comment [b], s.start⟩, none)
    else if upper b = 0x44 then .ok (⟨.doctype 0 [b], s.start⟩, none)
    else .error ⟨.markup .unknownMarkup, s.start⟩
  | .comment run =>
    if b = 0x3E && endsComment run then
      if run.reverse.take 2 = [0x2D, 0x2D] then .ok (⟨.text [], offset + 1⟩, some .ignored)
      else .error ⟨.markup .unclosedComment, s.start⟩
    else .ok (⟨.comment (b :: run), s.start⟩, none)
  | .cdata run =>
    if b = 0x3E && endsCData run then
      match cdataContent? run with
      | some raw => .ok (⟨.text [], offset + 1⟩, some (.cdata raw))
      | none => .error ⟨.markup .unclosedCData, s.start⟩
    else .ok (⟨.cdata (b :: run), s.start⟩, none)
  | .doctype nested run =>
    if b = 0x3E && nested = 0 then
      match doctypeFault? run with
      | none => .ok (⟨.text [], offset + 1⟩, some .ignored)
      | some (.form cause) => .error ⟨.form cause, offset⟩
      | some fault => .error ⟨fault, s.start⟩
    else
      let nested := if b = 0x3C then nested + 1 else if b = 0x3E then nested - 1 else nested
      .ok (⟨.doctype nested (b :: run), s.start⟩, none)

/-- Where a lexeme stops that the octet at `offset` completes: character data before that octet, markup
behind it. -/
def stopAt (offset : Nat) : Lexeme → Nat
  | .text _ => offset
  | _ => offset + 1

/-- What the end of the input leaves: the last run of character data, nothing, or a fault. -/
def finish (s : State) : Except LocatedFault (Option Lexeme) :=
  match s.mode with
  | .text run => .ok (if run.isEmpty then none else some (.text run.reverse))
  | .opened | .tag .. | .close .. => .error ⟨.markup .unclosedTag, s.start⟩
  | .instruction _ => .error ⟨.markup .unclosedInstruction, s.start⟩
  | .bang => .error ⟨.markup .unknownMarkup, s.start⟩
  | .comment _ => .error ⟨.markup .unclosedComment, s.start⟩
  | .cdata _ => .error ⟨.markup .unclosedCData, s.start⟩
  | .doctype .. => .error ⟨.markup .unclosedDoctype, s.start⟩

end Lexer

/-- The lexemes of a document up to the first fault, if there is one, and the size of the document. -/
structure Lexed where
  lexemes : List (Located Lexeme)
  fault : Option LocatedFault
  size : Nat
deriving DecidableEq, Repr

namespace Lexed

/-- Reads the octets from `offset` on, behind the lexemes `done` (latest first). -/
def readFrom (offset : Nat) (s : Lexer.State) (done : List (Located Lexeme)) : Octets → Lexed
  | [] =>
    match Lexer.finish s with
    | .ok none => ⟨done.reverse, none, offset⟩
    | .ok (some lexeme) => ⟨(⟨s.start, offset, lexeme⟩ :: done).reverse, none, offset⟩
    | .error fault => ⟨done.reverse, some fault, offset⟩
  | b :: rest =>
    match Lexer.step offset b s with
    | .ok (s', none) => readFrom (offset + 1) s' done rest
    | .ok (s', some lexeme) =>
      readFrom (offset + 1) s' (⟨s.start, Lexer.stopAt offset lexeme, lexeme⟩ :: done) rest
    | .error fault => ⟨done.reverse, some fault, offset⟩

/-- The octet order mark of UTF-8. -/
def byteOrderMark : Octets := [0xEF, 0xBB, 0xBF]

/-- The lexemes of a document. An octet order mark at its start does not count. -/
def ofOctets (octets : Octets) : Lexed :=
  let body := if byteOrderMark.isPrefixOf octets then octets.drop 3 else octets
  readFrom 0 ⟨.text [], 0⟩ [] body

end Lexed

end RegistryGraph.Xml
