import RegistryGraph.Index.Basic
import RegistryGraph.Text.LowerCase

/-!
# Searching an index

A search compares lower case with lower case.  It finds the entities whose name, id or some attribute
value contains the query, in ascending order of their ids.
-/

namespace RegistryGraph

/-- Whether the lower case of a text contains `needle`. -/
def containsLower (needle : List Char) (text : String) : Bool :=
  Text.occursIn needle (Text.lowerCase text).toList

/-- Whether the name, the id or an attribute value of an entity contains `needle` in lower case. -/
def Entity.matchesLower (needle : List Char) (e : Entity) : Bool :=
  containsLower needle e.name || containsLower needle e.id ||
    e.attributes.values.any (containsLower needle)

/-- The first `limit` entities that contain the query, whatever the case. -/
def EntityIndex.search (index : EntityIndex) (query : String) (limit : Nat) : List Entity :=
  (index.all.filter (Entity.matchesLower (Text.lowerCase query).toList)).take limit

end RegistryGraph
