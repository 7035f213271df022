import RegistryGraph.Document.Basic
import RegistryGraph.Proofs.Index.Descent

/-!
# The rows of a document

A document shows entities in ascending order of their ids, each once.  Which entities these are is read
off the parents that the entities name.

* `sortById_sorted`: entities that are found under their ids are sorted strictly.
* `EntityIndex.Consistent.childrenAre`: the children of an entity.
* `EntityIndex.Consistent.rowsAre`: the rows of a table over an entity and its descendants.
-/

namespace RegistryGraph

/-- Sorting by id neither adds nor drops an entity. -/
theorem sortById_perm (entities : List Entity) : (sortById entities).Perm entities :=
  List.mergeSort_perm _ _

/-- **Different ids are sorted strictly.** -/
theorem sortById_sorted {entities : List Entity} (h : (entities.map (·.id)).Nodup) :
    (sortById entities).Pairwise fun a b => a.id < b.id := by
  have hsorted : (sortById entities).Pairwise fun a b => a.id ≤ b.id :=
    Keyed.pairwise_mergeSort (·.id) entities
  have hids : ((sortById entities).map (·.id)).Nodup :=
    ((sortById_perm entities).map _).nodup_iff.2 h
  refine (hsorted.and (List.pairwise_map.1 hids)).imp ?_
  rintro a b ⟨hle, hne⟩
  exact lt_of_le_of_ne hle hne

namespace EntityIndex

variable {index : EntityIndex} {e : Entity}

/-- The children of an entity, in the order in which it lists them. -/
structure ChildrenAre (index : EntityIndex) (e : Entity) (children : List Entity) : Prop where
  ids : children.map (·.id) = e.children
  mem : ∀ c, c ∈ children ↔ index.get? c.id = some c ∧ c.parentId = e.id

/-- The entities that a type admits among an entity and its descendants, each once, in ascending order
of their ids. -/
structure RowsAre (index : EntityIndex) (e : Entity) (type : Option String) (rows : List Entity) :
    Prop where
  mem : ∀ c, c ∈ rows ↔
    (index.get? c.id = some c ∧ Relation.ReflTransGen index.HasParent c.id e.id) ∧
      DocumentFilter.admits type c = true
  sorted : rows.Pairwise fun a b => a.id < b.id

/-- **The children of an entity.** -/
theorem Consistent.childrenAre (h : index.Consistent) (hfound : index.get? e.id = some e) :
    index.ChildrenAre e (index.childrenOf e.id) where
  ids := h.map_id_childrenOf hfound
  mem _ := h.mem_childrenOf_iff (h.id_ne_of_get? hfound)

/-- **The rows of a table** over an entity and its descendants. -/
theorem Consistent.rowsAre (h : index.Consistent) (hfound : index.get? e.id = some e)
    (type : Option String) : index.RowsAre e type (index.csvRows ⟨type, some e.id⟩) where
  mem c := by
    rw [csvRows, (sortById_perm _).mem_iff, List.mem_filter, h.mem_subtree_iff hfound]
  sorted := by
    have hnodup : ((index.subtree e.id).filter (DocumentFilter.admits type)).Nodup :=
      (h.nodup_subtree hfound).filter _
    have hselected : ∀ c ∈ (index.subtree e.id).filter (DocumentFilter.admits type),
        index.get? c.id = some c := by
      intro c hc
      exact ((h.mem_subtree_iff hfound).1 (List.mem_filter.1 hc).1).1
    exact sortById_sorted (nodup_ids hnodup hselected)

end EntityIndex

end RegistryGraph
