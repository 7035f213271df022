import RegistryGraph.Xml.Tag

/-!
# Events of a document

The second reading pairs end tags with start tags.  It delivers the events of a document in order, up
to the first fault; an end tag must repeat the name of the innermost open element octet by octet.
Elements that are still open when the input ends are no fault here.
-/

namespace RegistryGraph.Xml

/-- What a reader of a document meets. -/
inductive Event where
  | start (tag : Tag)
  | empty (tag : Tag)
  | close
  /-- Raw character data: references are not resolved yet. -/
  | text (raw : Octets)
  /-- Characters that stand for themselves. -/
  | cdata (raw : Octets)
deriving DecidableEq, Repr

/-- An event and the offset behind it. -/
structure Occurrence where
  event : Event
  position : Nat
deriving DecidableEq, Repr

/-- How a document ends: at the end of the input or with a fault. -/
inductive Ending where
  | complete (position : Nat)
  | broken (fault : Fault) (position : Nat)
deriving DecidableEq, Repr

/-- The events of a document and its ending. -/
structure Reading where
  events : List Occurrence
  ending : Ending
deriving DecidableEq, Repr

namespace Reading

/-- The event of a tag: a slash at its end makes it an empty element. -/
def tagEvent (content : Octets) : Event :=
  if content.getLast? = some 0x2F then .empty ⟨content.dropLast⟩ else .start ⟨content⟩

/-- The name in an end tag: its content less the blanks at its end, or all of it if it is blank. -/
def endName (content : Octets) : Octets :=
  let name := (content.reverse.dropWhile isBlank).reverse
  if name.isEmpty then content else name

/-- The text of a name in a message: empty if the name is not UTF-8. -/
def nameText (name : Octets) : String :=
  match Utf8.decode name with
  | .ok s => s
  | .error _ => ""

/-- Takes one lexeme with the names of the open elements, innermost first. -/
def step (names : List Octets) : Lexeme → Except FormFault (List Octets × Option Event)
  | .text raw => .ok (names, some (.text raw))
  | .cdata raw => .ok (names, some (.cdata raw))
  | .ignored => .ok (names, none)
  | .tag content =>
    let event := tagEvent content
    match event with
    | .start tag => .ok (tag.name :: names, some event)
    | _ => .ok (names, some event)
  | .close content =>
    let name := endName content
    match names with
    | [] => .error (.unmatchedEnd (nameText name))
    | expected :: outer =>
      if name = expected then .ok (outer, some .close)
      else .error (.mismatchedEnd (nameText expected) (nameText name))

/-- Reads lexemes behind the events `done` (latest first). -/
def readFrom (names : List Octets) (done : List Occurrence) (ending : Ending) :
    List (Located Lexeme) → Reading
  | [] => ⟨done.reverse, ending⟩
  | lexeme :: rest =>
    match step names lexeme.item with
    | .ok (names, none) => readFrom names done ending rest
    | .ok (names, some event) => readFrom names (⟨event, lexeme.stop⟩ :: done) ending rest
    | .error fault => ⟨done.reverse, .broken (.form fault) lexeme.start⟩

/-- The events of a document. -/
def ofOctets (octets : Octets) : Reading :=
  let lexed := Lexed.ofOctets octets
  let ending :=
    match lexed.fault with
    | none => .complete lexed.size
    | some f => .broken f.fault f.position
  readFrom [] [] ending lexed.lexemes

end Reading

end RegistryGraph.Xml
