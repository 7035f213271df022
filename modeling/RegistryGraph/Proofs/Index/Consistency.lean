import Mathlib.Logic.Relation
import RegistryGraph.Proofs.Index.Firsts
import RegistryGraph.Proofs.Index.Simulation

/-!
# Indexes are consistent

An index stores some facts in several places: the ids as keys, in the lists of the types and in the
lists of the children, the children once more with every entity.  `EntityIndex.Consistent` says how
these agree, and that the parents form a forest.

The main statement is `consistent_of_build`: the index of a document is consistent.  That it has no
dangling parents and no cycles comes from the records behind it, which are grounded: a parent has been
seen before its children, also where an element stands inside another with the same id.
-/

namespace RegistryGraph.EntityIndex

open Records

variable {sourceFile revision : String}

/-- Following the parents from an entity leads to the top level in finitely many steps. -/
inductive ReachesTop (index : EntityIndex) : String → Prop
  | top {id : String} {e : Entity} (found : index.get? id = some e) (root : e.parentId = "") :
      ReachesTop index id
  | inside {id : String} {e : Entity} (found : index.get? id = some e)
      (outer : ReachesTop index e.parentId) : ReachesTop index id

/-- The entity `id` names `parent` as its parent. -/
def HasParent (index : EntityIndex) (id parent : String) : Prop :=
  ∃ e, index.get? id = some e ∧ parent ≠ "" ∧ e.parentId = parent

/-- The tables of an index agree with each other, and the parents form a forest. -/
structure Consistent (index : EntityIndex) : Prop where
  id_eq : ∀ id e, index.get? id = some e → e.id = id
  id_ne : ∀ id ∈ index.entities, id ≠ ""
  type_ne : ∀ type ∈ index.byType, index.byType.listAt type ≠ []
  type_nodup : ∀ type, (index.byType.listAt type).Nodup
  type_mem : ∀ type id, id ∈ index.byType.listAt type ↔
    ∃ e, index.get? id = some e ∧ e.type = type
  parent_nodup : ∀ parent, (index.byParent.listAt parent).Nodup
  parent_mem : ∀ parent, parent ≠ "" → ∀ id, id ∈ index.byParent.listAt parent ↔
    ∃ e, index.get? id = some e ∧ e.parentId = parent
  parent_filed : ∀ parent ∈ index.byParent, parent ∈ index.entities
  children_eq : ∀ id e, index.get? id = some e → e.children = index.byParent.listAt id
  parent_known : ∀ id e, index.get? id = some e → e.parentId ≠ "" → e.parentId ∈ index.entities
  reaches_top : ∀ id ∈ index.entities, index.ReachesTop id
  acyclic : ∀ id, ¬Relation.TransGen index.HasParent id id
  duplicate_known : ∀ e ∈ index.duplicates, e.id ∈ index.entities
  duplicate_parent : ∀ e ∈ index.duplicates, e.parentId ≠ "" → e.parentId ∈ index.entities
  ids_sorted : index.sortedIds.Pairwise (· < ·)
  ids_mem : ∀ id, id ∈ index.sortedIds ↔ id ∈ index.entities
  total_eq : index.stats.total = index.sortedIds.length
  counts_eq : (index.stats.byType.toList.map (·.2)).sum = index.stats.total

/-- An entity that reaches the top level is not among its own ancestors. -/
theorem ReachesTop.not_transGen {index : EntityIndex} {id : String} (h : index.ReachesTop id) :
    ¬Relation.TransGen index.HasParent id id := by
  induction h with
  | @top id e found root =>
      intro hcycle
      obtain ⟨parent, ⟨e', found', hne, hparent⟩, _⟩ := Relation.TransGen.head'_iff.1 hcycle
      obtain rfl := Option.some.inj (found.symm.trans found')
      exact hne (hparent.symm.trans root)
  | @inside id e found _ ih =>
      intro hcycle
      obtain ⟨parent, ⟨e', found', hne, hparent⟩, hback⟩ := Relation.TransGen.head'_iff.1 hcycle
      obtain rfl := Option.some.inj (found.symm.trans found')
      subst hparent
      exact ih (Relation.TransGen.tail' hback ⟨e, found, hne, rfl⟩)

/-- The ids of an index are the ids of its records. -/
theorem mem_entities_ofRecords {rs : List Entity} {id : String} :
    id ∈ (ofRecords rs sourceFile revision).entities ↔ id ∈ ids rs := by
  rw [Std.ExtTreeMap.mem_iff_contains, contains_ofRecords, decide_eq_true_iff]

/-- Looking an id up gives the first record of it, with its children. -/
theorem get?_ofRecords (rs : List Entity) (id : String) :
    (ofRecords rs sourceFile revision).get? id = entity? rs id :=
  getElem?_ofRecords rs id

/-- **Grounded records reach the top level.**  The records are taken one by one; those before have
been shown to reach it. -/
theorem reachesTop_of_grounded (before after : List Entity)
    (hbefore : ∀ id ∈ ids before,
      (ofRecords (before ++ after) sourceFile revision).ReachesTop id)
    (hafter : Grounded (ids before) after) :
    ∀ id ∈ ids (before ++ after),
      (ofRecords (before ++ after) sourceFile revision).ReachesTop id := by
  induction after generalizing before with
  | nil => simpa using hbefore
  | cons r rest ih =>
      have hsplit : before ++ r :: rest = (before ++ [r]) ++ rest := by simp
      rw [hsplit] at hbefore ⊢
      refine ih (before ++ [r]) ?_ ?_
      · intro id hid
        by_cases hmem : id ∈ ids before
        · exact hbefore id hmem
        · obtain rfl : id = r.id := by simpa [hmem] using hid
          have hfind : ((before ++ [r]) ++ rest).find? (·.id = r.id) = some r := by
            rw [List.find?_append, List.find?_append, find?_eq_none hmem]
            simp
          have hfound : (ofRecords ((before ++ [r]) ++ rest) sourceFile revision).get? r.id =
              some { r with children := childIds ((before ++ [r]) ++ rest) r.id } :=
            (get?_ofRecords _ _).trans (entity?_eq_some_iff.2 ⟨r, hfind, rfl⟩)
          by_cases hroot : r.parentId = ""
          · exact .top hfound hroot
          · have hparent : r.parentId ∈ ids before :=
              hafter.1 _ (Entity.parent?_eq_some_iff.2 ⟨hroot, rfl⟩)
            exact .inside hfound (hbefore _ hparent)
      · refine hafter.2.mono fun id hid => ?_
        simpa [or_comm] using hid

/-- Under a type stand the ids of the entities of this type. -/
theorem mem_byType_ofRecords_iff {rs : List Entity} {type id : String} :
    id ∈ (ofRecords rs sourceFile revision).byType.listAt type ↔
      ∃ e, entity? rs id = some e ∧ e.type = type := by
  rw [ofRecords, Keyed.listAt_group, mem_filedUnder_firsts_iff fun _ _ => rfl]
  simp only [Option.some.injEq]

/-- Under a parent stand the ids of the entities that name it. -/
theorem mem_byParent_ofRecords_iff {rs : List Entity} {parent id : String} :
    id ∈ (ofRecords rs sourceFile revision).byParent.listAt parent ↔
      ∃ e, entity? rs id = some e ∧ parent ≠ "" ∧ e.parentId = parent := by
  rw [ofRecords, Keyed.listAt_group, mem_filedUnder_firsts_iff fun _ _ => rfl]
  simp only [Entity.parent?_eq_some_iff]

/-- Every list that a table of groups holds is found by its key, and is not empty. -/
theorem listAt_of_mem_group {members : List Entity} {key? : Entity → Option String} {k : String}
    (h : k ∈ Keyed.group members key? (·.id)) :
    (Keyed.group members key? (·.id)).listAt k ≠ [] := by
  intro hnil
  rw [Keyed.listAt_group] at hnil
  rw [Std.ExtTreeMap.mem_iff_isSome_getElem?, Keyed.getElem?_group, if_pos hnil] at h
  cases h

/-- The types divide the entities among them. -/
theorem counts_ofRecords (rs : List Entity) :
    ((ofRecords rs sourceFile revision).stats.byType.toList.map (·.2)).sum =
      (ofRecords rs sourceFile revision).stats.total := by
  let index := ofRecords rs sourceFile revision
  have hlengths : (index.byType.toList.map fun entry => entry.2.length).sum =
      index.entities.keys.length := by
    refine Keyed.sum_lengths Std.ExtTreeMap.nodup_keys ?_ ?_ ?_
    · intro type
      exact Keyed.listAt_group (firsts rs) _ _ type ▸ nodup_filedUnder_firsts rs _ type
    · intro id
      rw [Std.ExtTreeMap.mem_keys, Std.ExtTreeMap.mem_iff_isSome_getElem?, getElem?_ofRecords,
        Option.isSome_iff_exists]
      constructor
      · intro h
        obtain ⟨e, he⟩ := h
        exact ⟨e.type, mem_byType_ofRecords_iff.2 ⟨e, he, rfl⟩⟩
      · intro h
        obtain ⟨type, hid⟩ := h
        obtain ⟨e, he, _⟩ := mem_byType_ofRecords_iff.1 hid
        exact ⟨e, he⟩
    · intro type type' id hid hid'
      obtain ⟨e, he, rfl⟩ := mem_byType_ofRecords_iff.1 hid
      obtain ⟨e', he', rfl⟩ := mem_byType_ofRecords_iff.1 hid'
      obtain rfl := Option.some.inj (he.symm.trans he')
      rfl
  have hkeys : index.entities.keys.length = index.size := Std.ExtTreeMap.length_keys
  rw [stats, Std.ExtTreeMap.toList_map, List.map_map]
  exact hlengths.trans hkeys

/-- **Grounded records make a consistent index.** -/
theorem consistent_ofRecords {rs : List Entity} (hgrounded : Grounded [] rs)
    (hids : ∀ r ∈ rs, r.id ≠ "") : (ofRecords rs sourceFile revision).Consistent := by
  have hanchored : ∀ r ∈ rs, r.parentId ≠ "" → r.parentId ∈ ids rs := by
    intro r hr hne
    exact hgrounded.anchored r hr _ (Entity.parent?_eq_some_iff.2 ⟨hne, rfl⟩)
  have hknown : ∀ {id e}, entity? rs id = some e → e.parentId ≠ "" → e.parentId ∈ ids rs := by
    intro id e he hne
    obtain ⟨r, hr, _, hparent⟩ := exists_mem_of_entity? he
    rw [← hparent] at hne ⊢
    exact hanchored r hr hne
  have htop : ∀ id ∈ ids rs, (ofRecords rs sourceFile revision).ReachesTop id :=
    reachesTop_of_grounded [] rs (fun id hid => by cases hid) hgrounded
  constructor
  case id_eq =>
    intro id e he
    rw [get?_ofRecords] at he
    exact id_of_entity? he
  case id_ne =>
    intro id hid
    rw [mem_entities_ofRecords] at hid
    obtain ⟨r, hr, rfl⟩ := List.mem_map.1 hid
    exact hids r hr
  case type_ne => exact fun type htype => listAt_of_mem_group htype
  case type_nodup =>
    intro type
    rw [ofRecords, Keyed.listAt_group]
    exact nodup_filedUnder_firsts rs _ type
  case type_mem =>
    intro type id
    rw [get?_ofRecords]
    exact mem_byType_ofRecords_iff
  case parent_nodup =>
    intro parent
    rw [ofRecords, Keyed.listAt_group]
    exact nodup_filedUnder_firsts rs _ parent
  case parent_mem =>
    intro parent hne id
    rw [get?_ofRecords, mem_byParent_ofRecords_iff]
    simp [hne]
  case parent_filed =>
    intro parent hparent
    obtain ⟨id, hid⟩ := List.exists_mem_of_ne_nil _ (listAt_of_mem_group hparent)
    rw [Keyed.listAt_group, mem_filedUnder_firsts_iff fun _ _ => rfl] at hid
    obtain ⟨e, he, hp⟩ := hid
    obtain ⟨hne, rfl⟩ := Entity.parent?_eq_some_iff.1 hp
    exact mem_entities_ofRecords.2 (hknown he hne)
  case children_eq =>
    intro id e he
    rw [get?_ofRecords] at he
    obtain ⟨r, _, rfl⟩ := entity?_eq_some_iff.1 he
    rw [ofRecords, Keyed.listAt_group]
    rfl
  case parent_known =>
    intro id e he hne
    rw [get?_ofRecords] at he
    exact mem_entities_ofRecords.2 (hknown he hne)
  case reaches_top =>
    intro id hid
    exact htop id (mem_entities_ofRecords.1 hid)
  case acyclic =>
    intro id hcycle
    obtain ⟨parent, ⟨e, he, _⟩, _⟩ := Relation.TransGen.head'_iff.1 hcycle
    rw [get?_ofRecords] at he
    obtain ⟨r, hr, rfl, _⟩ := exists_mem_of_entity? he
    exact (htop r.id (List.mem_map_of_mem hr)).not_transGen hcycle
  case duplicate_known =>
    intro e he
    rw [mem_entities_ofRecords]
    exact List.mem_map_of_mem (mem_of_mem_sift he)
  case duplicate_parent =>
    intro e he hne
    rw [mem_entities_ofRecords]
    exact hanchored e (mem_of_mem_sift he) hne
  case ids_sorted => exact Keyed.pairwise_keys _
  case ids_mem => exact fun id => Std.ExtTreeMap.mem_keys
  case total_eq => exact Std.ExtTreeMap.length_keys.symm
  case counts_eq => exact counts_ofRecords rs

/-- **The index of a document is consistent.** -/
theorem consistent_of_build {octets : Octets} {index : EntityIndex}
    (h : build octets sourceFile revision = .ok index) : index.Consistent := by
  obtain ⟨content, _, rfl⟩ := IndexBuilder.exists_hasContent_of_build h
  refine consistent_ofRecords (Walk.grounded_records content (Or.inl rfl)) ?_
  exact fun r hr => Walk.id_ne_empty_of_mem_records hr

/-- An element inside another with the same id: the second is a duplicate and would be its own parent,
but the entity is not. -/
theorem consistent_of_twin_inside :
    ∃ index, build (Utf8.encode "<a code='1'><a code='1'><b code='2'/></a></a>") "f" "v" =
        .ok index ∧
      index.sortedIds = ["a:1", "b:2"] ∧ index.duplicates.map (·.parentId) = ["a:1"] ∧
        index.Consistent := by
  have htables : (build (Utf8.encode "<a code='1'><a code='1'><b code='2'/></a></a>") "f"
      "v").toOption.map (fun index => (index.sortedIds, index.duplicates.map (·.parentId))) =
        some (["a:1", "b:2"], ["a:1"]) := by
    cbv
  cases hbuild : build (Utf8.encode "<a code='1'><a code='1'><b code='2'/></a></a>") "f" "v" with
  | error fault =>
      rw [hbuild] at htables
      cases htables
  | ok index =>
      rw [hbuild] at htables
      obtain ⟨hids, hparents⟩ := Prod.ext_iff.1 (Option.some.inj htables)
      exact ⟨index, rfl, hids, hparents, consistent_of_build hbuild⟩

end RegistryGraph.EntityIndex
