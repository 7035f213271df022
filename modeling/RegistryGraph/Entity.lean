import RegistryGraph.Text.Keyed

/-!
# Entities

An entity is an element of a registry document that carries a code.  It is known by its id, which
joins its type and its code, and it keeps the ids of its parent and of its children.
-/

namespace RegistryGraph

/-- An addressable node of a registry. -/
structure Entity where
  id : String
  /-- The local name of the element. -/
  type : String
  /-- The human label; empty if the document gives none. -/
  name : String
  /-- The id of the nearest enclosing entity; empty at the top level. -/
  parentId : String
  /-- The element's own attributes and the texts of its uncoded descendants. -/
  attributes : Keyed String
  /-- The ids of the direct children in document order. -/
  children : List String

/-- What listings show of an entity. -/
structure EntitySummary where
  id : String
  type : String
  name : String
  parentId : String
deriving DecidableEq, Repr

namespace Entity

/-- The attribute that makes an element an entity. -/
def codeKey : String := "code"

/-- The attribute that names an entity. -/
def nameKey : String := "name"

/-- The id of an entity of the given type and code. -/
def idOf (type code : String) : String := type ++ ":" ++ code

/-- The value of an attribute. -/
def attribute? (e : Entity) (key : String) : Option String := e.attributes[key]?

/-- The value of an attribute, empty if there is none. -/
def attributeD (e : Entity) (key : String) : String := (e.attribute? key).getD ""

/-- The code. -/
def code (e : Entity) : String := e.attributeD codeKey

/-- Whether no entity encloses this one. -/
def isRoot (e : Entity) : Bool := e.parentId.isEmpty

/-- The name, or the id of an entity without a name. -/
def label (e : Entity) : String := if e.name.isEmpty then e.id else e.name

/-- The summary of an entity. -/
def summary (e : Entity) : EntitySummary := ⟨e.id, e.type, e.name, e.parentId⟩

/-- Adds a text to the attribute `key`, behind a comma if the attribute has a value already. -/
def addText (e : Entity) (key value : String) : Entity :=
  let old := e.attributeD key
  { e with
    attributes := e.attributes.insert key (if old.isEmpty then value else old ++ ", " ++ value) }

end Entity

end RegistryGraph
