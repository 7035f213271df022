import RegistryGraph.Yaml.Node

/-!
# Reading values out of nodes

Texts, lists and records in a document.  A text may be any scalar, whatever it looks like.  A list or a
record may be left blank, which makes it empty; it must not be written as a null.
-/

namespace RegistryGraph.Yaml

namespace Scalar

/-- The tag of nulls. -/
def nullTag : String := "tag:yaml.org,2002:null"

/-- Whether the text is one of the spellings of null. -/
def spellsNull (s : Scalar) : Bool := ["~", "null", "Null", "NULL"].contains s.text

/-- Whether nothing is written. -/
def isBlank (s : Scalar) : Bool := s.plain && s.text.isEmpty

end Scalar

namespace Document

/-- The node that an alias stands for; any other node stands for itself. -/
def resolve (d : Document) : Node → Except Fault Node
  | .alias anchor =>
    match d.anchored.lookup anchor with
    | some n => .ok n
    | none => .error .unknownAnchor
  | n => .ok n

/-- A text. -/
def text (d : Document) (n : Node) : Except Fault String := do
  match ← d.resolve n with
  | .scalar s => return s.text
  | _ => throw .shape

/-- A text, or none for a null. -/
def optText (d : Document) (n : Node) : Except Fault (Option String) := do
  match ← d.resolve n with
  | .scalar s =>
    if !s.plain then return some s.text
    else if s.tag = some Scalar.nullTag then
      if s.spellsNull then return none else throw .shape
    else if s.tag.isNone && (s.text.isEmpty || s.spellsNull) then return none
    else return some s.text
  | _ => throw .shape

/-- A list whose items `read` takes. -/
def list {α : Type} (d : Document) (read : Node → Except Fault α) (n : Node) :
    Except Fault (List α) := do
  match ← d.resolve n with
  | .sequence items => items.mapM read
  | .scalar s => if s.isBlank then return [] else throw .shape
  | _ => throw .shape

/-- The fields of a record with the given names, none of which may occur twice. Other entries do not
matter, but every key must be a text. -/
def fields (d : Document) (names : List String) (n : Node) :
    Except Fault (List (String × Node)) := do
  match ← d.resolve n with
  | .mapping entries =>
    let entries ← entries.mapM fun e => (d.text e.1).map (·, e.2)
    let known := entries.filter fun e => names.contains e.1
    if (known.map (·.1)).eraseDups.length = known.length then return known
    throw .repeatedField
  | .scalar s => if s.isBlank then return [] else throw .shape
  | _ => throw .shape

/-- Reads a field, which counts as `default` if it is absent. -/
def optional {α : Type} (fields : List (String × Node)) (name : String) (default : α)
    (read : Node → Except Fault α) : Except Fault α :=
  match fields.lookup name with
  | some n => read n
  | none => .ok default

/-- Reads a field that must be there. -/
def required {α : Type} (fields : List (String × Node)) (name : String)
    (read : Node → Except Fault α) : Except Fault α :=
  match fields.lookup name with
  | some n => read n
  | none => .error .missingField

end Document

end RegistryGraph.Yaml
