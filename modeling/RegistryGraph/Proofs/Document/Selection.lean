import RegistryGraph.Proofs.Document.Rows
import RegistryGraph.Proofs.Index.Elements
import RegistryGraph.Proofs.Index.Visits

/-!
# What a filter selects

A filter names a type, or an entity whose descendants count, or both, or nothing.  `SelectedBy` says by the
entities alone which of them it selects; that the rows of a table are just these goes back to the visit of
the index, which ends and meets every descendant once.

* `EntityIndex.Consistent.selectedBy_csvRows`: the rows of a table are what its filter selects.
* `EntityIndex.subtree_of_build`: the subtrees of the index of a document, and the tables over them.
-/

namespace RegistryGraph.EntityIndex

open Relation

variable {octets : Octets} {sourceFile revision : String} {index : EntityIndex}

/-- The entities of the filter's type among the entity it names and its descendants, each once, in ascending
order of their ids. -/
structure SelectedBy (index : EntityIndex) (filter : DocumentFilter) (rows : List Entity) : Prop where
  mem : ∀ c, c ∈ rows ↔ index.get? c.id = some c ∧
    (∀ parent, filter.parent = some parent → ReflTransGen index.HasParent c.id parent) ∧
    ∀ type, filter.type = some type → c.type = type
  sorted : rows.Pairwise fun a b => a.id < b.id

/-- A filter admits every type, or only the one that it names. -/
theorem admits_iff {type : Option String} {e : Entity} :
    DocumentFilter.admits type e = true ↔ ∀ t, type = some t → e.type = t := by
  cases type with
  | none => simp [DocumentFilter.admits]
  | some t => simp [DocumentFilter.admits]

/-- **The rows of a table** are what its filter selects. -/
theorem Consistent.selectedBy_csvRows (h : index.Consistent) (filter : DocumentFilter) :
    index.SelectedBy filter (index.csvRows filter) := by
  -- The scope of a filter, before its type counts.
  obtain ⟨scope, hrows, hmem, hnodup⟩ : ∃ scope : List Entity,
      index.csvRows filter = sortById (scope.filter (DocumentFilter.admits filter.type)) ∧
        (∀ c, c ∈ scope ↔ index.get? c.id = some c ∧
          ∀ parent, filter.parent = some parent → ReflTransGen index.HasParent c.id parent) ∧
        (scope.map (·.id)).Nodup := by
    obtain ⟨type, parent⟩ := filter
    cases parent with
    | none => exact ⟨index.all, rfl, fun c => by simp [mem_all_iff h], h.nodup_map_id_all⟩
    | some parent =>
        exact ⟨index.subtree parent, rfl, fun c => by simp [h.mem_subtree], h.nodup_ids_subtree parent⟩
  rw [hrows]
  constructor
  case mem =>
    intro c
    rw [(sortById_perm _).mem_iff, List.mem_filter, hmem, admits_iff, and_assoc]
  case sorted => exact sortById_sorted (hnodup.sublist (List.filter_sublist.map _))

/-- The subtree of an id: how the visit that begins there ends, in which order it lists the entities, and
which entities these are. -/
structure SubtreeIs (index : EntityIndex) (id : String) (entities : List Entity) : Prop where
  ends : ∃ rounds ≤ index.size + 1, (Visit.start id).Ends index rounds entities
  eq_nil_iff : entities = [] ↔ index.get? id = none
  preorder : ∀ e, index.get? id = some e → Unfolds index [id] entities
  mem : ∀ c, c ∈ entities ↔ index.get? c.id = some c ∧ ReflTransGen index.HasParent c.id id
  nodup : (entities.map (·.id)).Nodup

/-- **The subtrees of the index of a document.**  For every id the visit that begins there ends.  It lists
nothing if the id is unknown; otherwise the entity with this id and all that reach it through their
parents, each once, every entity before what is below it and siblings in document order.  A table over such
a subtree has one row for each of these entities that has the filter's type. -/
theorem subtree_of_build (h : build octets sourceFile revision = .ok index) :
    ∃ content, Xml.HasContent octets content ∧
      (∀ parent, (index.byParent.listAt parent).Sublist (documentOrder content)) ∧
      (∀ id, index.SubtreeIs id (index.subtree id)) ∧
      ∀ type parent, index.SelectedBy ⟨type, some parent⟩ (index.csvRows ⟨type, some parent⟩) := by
  obtain ⟨content, hcontent, rfl⟩ := IndexBuilder.exists_hasContent_of_build h
  have hindex := consistent_index content sourceFile revision
  refine ⟨content, hcontent, listAt_byParent_sublist content, ?_, ?_⟩
  · intro id
    exact
      { ends := hindex.ends_subtree id
        eq_nil_iff := hindex.subtree_eq_nil_iff
        preorder := fun _ hfound => hindex.subtree_unfolds hfound
        mem := fun _ => hindex.mem_subtree id
        nodup := hindex.nodup_ids_subtree id }
  · intro type parent
    exact hindex.selectedBy_csvRows ⟨type, some parent⟩

/-- An element inside another with the same id, one generation apart: what is inside the inner one counts
as a child of the entity and comes behind what is inside the element between them, although it begins
earlier. -/
theorem subtree_of_twin_between :
    ∃ index content,
      build (Utf8.encode "<a code='1'><b code='2'><a code='1'><c code='3'/></a><d code='4'/></b></a>")
        "f" "v" = .ok index ∧
      Xml.HasContent
        (Utf8.encode "<a code='1'><b code='2'><a code='1'><c code='3'/></a><d code='4'/></b></a>")
        content ∧
      (index.subtree "a:1").map (·.id) = ["a:1", "b:2", "d:4", "c:3"] ∧
      index.SubtreeIs "a:1" (index.subtree "a:1") ∧
      index.byParent.listAt "a:1" = ["b:2", "c:3"] ∧
      ["b:2", "c:3"].Sublist (documentOrder content) := by
  have hbuilt : (build
      (Utf8.encode "<a code='1'><b code='2'><a code='1'><c code='3'/></a><d code='4'/></b></a>") "f"
      "v").toOption.map (fun index => ((index.subtree "a:1").map (·.id), index.byParent.listAt "a:1")) =
        some (["a:1", "b:2", "d:4", "c:3"], ["b:2", "c:3"]) := by
    decide +kernel
  obtain ⟨index, hbuild, hshown⟩ := exists_build_of_map hbuilt
  obtain ⟨hsubtree, hlisted⟩ := Prod.mk.inj hshown
  obtain ⟨content, hcontent, hsiblings, hsubtrees, _⟩ := subtree_of_build hbuild
  refine ⟨index, content, hbuild, hcontent, hsubtree, hsubtrees "a:1", hlisted, ?_⟩
  rw [← hlisted]
  exact hsiblings "a:1"

end RegistryGraph.EntityIndex
