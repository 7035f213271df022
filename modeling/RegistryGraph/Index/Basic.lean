import RegistryGraph.Entity

/-!
# The index of a document

An index holds the entities of one document at one revision, and the lists that queries use: the ids
of every type and the ids of every entity's children, both in document order.  An element whose id an
earlier element has taken is kept apart, among the duplicates.
-/

namespace RegistryGraph

/-- How many entities an index holds, in all and per type. -/
structure IndexStats where
  total : Nat
  byType : Keyed Nat

/-- The stats of nothing. -/
def IndexStats.zero : IndexStats := ⟨0, ∅⟩

/-- The entities of a document and the tables over them. -/
structure EntityIndex where
  entities : Keyed Entity
  byType : Keyed (List String)
  byParent : Keyed (List String)
  /-- Elements whose id was taken, in document order. -/
  duplicates : List Entity
  sourceFile : String
  revision : String

namespace EntityIndex

/-- The index of a document without entities. -/
def empty (sourceFile revision : String) : EntityIndex :=
  ⟨∅, ∅, ∅, [], sourceFile, revision⟩

/-- The entity with the given id. -/
def get? (index : EntityIndex) (id : String) : Option Entity := index.entities[id]?

/-- The number of distinct entities. -/
def size (index : EntityIndex) : Nat := index.entities.size

/-- The ids of all entities in ascending order. -/
def sortedIds (index : EntityIndex) : List String := index.entities.keys

/-- All entities in ascending order of their ids. -/
def all (index : EntityIndex) : List Entity := index.sortedIds.filterMap index.get?

/-- The types in ascending order. -/
def types (index : EntityIndex) : List String := index.byType.keys

/-- The entities of a type in document order. -/
def ofType (index : EntityIndex) (type : String) : List Entity :=
  (index.byType.listAt type).filterMap index.get?

/-- The direct children of an entity in document order. -/
def childrenOf (index : EntityIndex) (id : String) : List Entity :=
  (index.byParent.listAt id).filterMap index.get?

/-- Visits the ids on the stack depth first, at most `steps` of them. -/
def visit (index : EntityIndex) (found : List Entity) : Nat → List String → List Entity
  | _, [] => found.reverse
  | 0, _ => found.reverse
  | steps + 1, id :: stack =>
    match index.get? id with
    | none => visit index found steps stack
    | some e => visit index (e :: found) steps (index.byParent.listAt id ++ stack)

/-- The entity with the given id and all its descendants, depth first, siblings in document order.
Every id but the first stands in exactly one list of children, so the entities are enough steps. -/
def subtree (index : EntityIndex) (id : String) : List Entity :=
  index.visit [] (index.size + 1) [id]

/-- The types that have a member at the top level, in ascending order. -/
def topLevelTypes (index : EntityIndex) : List String :=
  index.types.filter fun type => (index.ofType type).any Entity.isRoot

/-- The stats of an index. -/
def stats (index : EntityIndex) : IndexStats :=
  ⟨index.size, index.byType.map fun _ ids => ids.length⟩

end EntityIndex

end RegistryGraph
