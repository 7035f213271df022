import Mathlib.Data.Fintype.EquivFin
import Mathlib.Data.Fintype.Sets
import Mathlib.Data.List.Perm.Subperm
import RegistryGraph.Proofs.Index.Consistency

/-!
# Going down an index

The visit of an index takes one id after the other from a stack and puts the ids of the children in its
place.  It keeps no list of what it has visited and counts its steps instead.  `Unfolds` describes the
same order by recursion over the forest: an entity, everything below it, and then what stands beside it.
In a consistent index both agree, because no entity is met twice.

* `Consistent.mem_childrenOf_iff`: the children of an entity are those that name it as their parent.
* `Unfolds.visit`: a visit lists what its stack unfolds to.
* `Consistent.exists_unfolds`: every stack of known ids unfolds.
* `Consistent.subtree_unfolds`: the subtree of an entity is what its id unfolds to.
* `Consistent.mem_subtree_iff`: it holds the entity and its descendants.
-/

namespace RegistryGraph.EntityIndex

open Relation

variable {index : EntityIndex} {id parent : String} {e c : Entity}

/-- The index of an element tree is consistent. -/
theorem consistent_index (content : Xml.Content) (sourceFile revision : String) :
    (Walk.index content sourceFile revision).Consistent :=
  consistent_ofRecords (Walk.grounded_records content (.inl rfl)) fun _ hr =>
    Walk.id_ne_empty_of_mem_records hr

/-! ## Children -/

/-- What stands in a list of children. -/
theorem Consistent.mem_listAt_iff (h : index.Consistent) (hne : parent ≠ "") :
    id ∈ index.byParent.listAt parent ↔ index.HasParent id parent := by
  rw [h.parent_mem parent hne]
  constructor
  · rintro ⟨e, hfound, hparent⟩
    exact ⟨e, hfound, hne, hparent⟩
  · rintro ⟨e, hfound, _, hparent⟩
    exact ⟨e, hfound, hparent⟩

/-- An id is in the index exactly if an entity is found under it. -/
theorem mem_entities_iff : id ∈ index.entities ↔ ∃ e, index.get? id = some e := by
  rw [Std.ExtTreeMap.mem_iff_isSome_getElem?, Option.isSome_iff_exists, get?]

/-- No entity is found under the empty id. -/
theorem Consistent.id_ne_of_get? (h : index.Consistent) (hfound : index.get? id = some e) :
    id ≠ "" :=
  h.id_ne id (mem_entities_iff.2 ⟨e, hfound⟩)

/-- **The children of an entity** are the entities that name it as their parent. -/
theorem Consistent.mem_childrenOf_iff (h : index.Consistent) (hne : id ≠ "") :
    c ∈ index.childrenOf id ↔ index.get? c.id = some c ∧ c.parentId = id := by
  rw [childrenOf, List.mem_filterMap]
  constructor
  · rintro ⟨child, hmem, hfound⟩
    obtain ⟨e, hfound', hparent⟩ := (h.parent_mem id hne child).1 hmem
    cases hfound.symm.trans hfound'
    cases h.id_eq child c hfound
    exact ⟨hfound, hparent⟩
  · rintro ⟨hfound, hparent⟩
    exact ⟨c.id, (h.parent_mem id hne c.id).2 ⟨c, hfound, hparent⟩, hfound⟩

/-- Ids that are all found lead to entities with these ids. -/
theorem Consistent.map_id_filterMap (h : index.Consistent) {ids : List String}
    (hids : ∀ id ∈ ids, ∃ e, index.get? id = some e) :
    (ids.filterMap index.get?).map (·.id) = ids := by
  induction ids with
  | nil => rfl
  | cons id ids ih =>
      rw [List.forall_mem_cons] at hids
      obtain ⟨⟨e, hfound⟩, hrest⟩ := hids
      rw [List.filterMap_cons_some hfound, List.map_cons, ih hrest, h.id_eq id e hfound]

/-- The children stand in the order in which their parent lists them. -/
theorem Consistent.map_id_childrenOf (h : index.Consistent) (hfound : index.get? id = some e) :
    (index.childrenOf id).map (·.id) = e.children := by
  rw [h.children_eq id e hfound, childrenOf]
  refine h.map_id_filterMap fun child hchild => ?_
  obtain ⟨c, hc, _⟩ := (h.parent_mem id (h.id_ne_of_get? hfound) child).1 hchild
  exact ⟨c, hc⟩

/-! ## Unfolding -/

/-- The entities that some ids lead to: each with everything below it, before the next. -/
inductive Unfolds (index : EntityIndex) : List String → List Entity → Prop
  | nil : Unfolds index [] []
  | cons {id : String} {rest : List String} {e : Entity} {below beside : List Entity}
    (found : index.get? id = some e) (inner : Unfolds index (index.byParent.listAt id) below)
    (outer : Unfolds index rest beside) : Unfolds index (id :: rest) (e :: (below ++ beside))

/-- **A visit lists what its stack unfolds to**, in as many steps as there are entities. -/
theorem Unfolds.visit {ids : List String} {out : List Entity} (h : Unfolds index ids out)
    (found : List Entity) (more : Nat) (stack : List String) :
    index.visit found (out.length + more) (ids ++ stack) =
      index.visit (out.reverse ++ found) more stack := by
  induction h generalizing found more stack with
  | nil => rw [List.length_nil, Nat.zero_add, List.nil_append, List.reverse_nil, List.nil_append]
  | @cons id rest e below beside hfound _ _ ihinner ihouter =>
      have hsteps : (e :: (below ++ beside)).length + more =
          below.length + (beside.length + more) + 1 := by
        rw [List.length_cons, List.length_append]
        omega
      rw [hsteps, List.cons_append, EntityIndex.visit, hfound]
      dsimp only
      rw [ihinner, ihouter]
      simp

/-- What an entity is below: itself, or what one of its children is below. -/
theorem Consistent.reflTransGen_iff (h : index.Consistent) (hne : id ≠ "") {x : String} :
    ReflTransGen index.HasParent x id ↔
      x = id ∨ ∃ child ∈ index.byParent.listAt id, ReflTransGen index.HasParent x child := by
  rw [ReflTransGen.cases_tail_iff, eq_comm]
  refine or_congr Iff.rfl (exists_congr fun child => ?_)
  rw [h.mem_listAt_iff hne, and_comm]

/-- **What an unfolding holds**: the entities that reach one of the ids through their parents. -/
theorem Unfolds.mem_iff {ids : List String} {out : List Entity} (h : Unfolds index ids out)
    (hindex : index.Consistent) :
    c ∈ out ↔ index.get? c.id = some c ∧ ∃ id ∈ ids, ReflTransGen index.HasParent c.id id := by
  induction h with
  | nil => simp
  | @cons id rest e below beside hfound _ _ ihinner ihouter =>
      have hid : e.id = id := hindex.id_eq id e hfound
      have hbelow : ∀ x, ReflTransGen index.HasParent x id ↔
          x = id ∨ ∃ child ∈ index.byParent.listAt id, ReflTransGen index.HasParent x child :=
        fun x => hindex.reflTransGen_iff (hindex.id_ne_of_get? hfound)
      rw [List.mem_cons, List.mem_append, ihinner, ihouter]
      simp only [List.mem_cons, exists_eq_or_imp, hbelow]
      constructor
      · rintro (rfl | ⟨hc, hinner⟩ | ⟨hc, houter⟩)
        · exact ⟨hid ▸ hfound, .inl (.inl hid)⟩
        · exact ⟨hc, .inl (.inr hinner)⟩
        · exact ⟨hc, .inr houter⟩
      · rintro ⟨hc, (hself | hinner) | houter⟩
        · rw [hself, hfound] at hc
          exact .inl (Option.some.inj hc).symm
        · exact .inr (.inl ⟨hc, hinner⟩)
        · exact .inr (.inr ⟨hc, houter⟩)

/-! ## Every stack unfolds -/

/-- Ids unfold if each is found and its children do. -/
theorem exists_unfolds_of_forall {ids : List String}
    (h : ∀ id ∈ ids, (∃ e, index.get? id = some e) ∧
      ∃ below, Unfolds index (index.byParent.listAt id) below) : ∃ out, Unfolds index ids out := by
  induction ids with
  | nil => exact ⟨[], .nil⟩
  | cons id rest ih =>
      rw [List.forall_mem_cons] at h
      obtain ⟨⟨⟨e, hfound⟩, below, hinner⟩, hrest⟩ := h
      obtain ⟨beside, houter⟩ := ih hrest
      exact ⟨_, .cons hfound hinner houter⟩

/-- The children of an entity unfold. The induction is on the order of the descendants, which is
well-founded because there are finitely many entities and no cycles. -/
theorem Consistent.exists_unfolds_listAt (h : index.Consistent) (hid : id ∈ index.entities) :
    ∃ below, Unfolds index (index.byParent.listAt id) below := by
  let Known := {id // id ∈ index.sortedIds}
  let Below : Known → Known → Prop := fun a b => TransGen index.HasParent a.1 b.1
  have : Finite Known := inferInstanceAs (Finite {id // id ∈ index.sortedIds})
  have : Std.Irrefl Below := ⟨fun a => h.acyclic a.1⟩
  have : IsTrans Known Below := ⟨fun _ _ _ => TransGen.trans⟩
  have hwf : WellFounded Below := Finite.wellFounded_of_trans_of_irrefl Below
  suffices hall : ∀ a : Known, ∃ below, Unfolds index (index.byParent.listAt a.1) below from
    hall ⟨id, (h.ids_mem id).2 hid⟩
  intro a
  induction a using hwf.induction with
  | _ a ih =>
      have hne : a.1 ≠ "" := h.id_ne a.1 ((h.ids_mem a.1).1 a.2)
      refine exists_unfolds_of_forall fun child hchild => ?_
      have hparent : index.HasParent child a.1 := (h.mem_listAt_iff hne).1 hchild
      have hfound : ∃ e, index.get? child = some e := hparent.imp fun _ he => he.1
      have hknown : child ∈ index.sortedIds := (h.ids_mem child).2 (mem_entities_iff.2 hfound)
      exact ⟨hfound, ih ⟨child, hknown⟩ (.single hparent)⟩

/-- **Every stack of known ids unfolds.** -/
theorem Consistent.exists_unfolds (h : index.Consistent) {ids : List String}
    (hids : ∀ id ∈ ids, id ∈ index.entities) : ∃ out, Unfolds index ids out :=
  exists_unfolds_of_forall fun id hid =>
    ⟨mem_entities_iff.1 (hids id hid), h.exists_unfolds_listAt (hids id hid)⟩

/-! ## Nothing is met twice -/

/-- No entity is below two of the ids. -/
def Apart (index : EntityIndex) (ids : List String) : Prop :=
  ids.Pairwise fun a b => ∀ x,
    ReflTransGen index.HasParent x a → ¬ReflTransGen index.HasParent x b

/-- An entity has at most one parent. -/
theorem hasParent_rightUnique : Relator.RightUnique index.HasParent := by
  rintro id p q ⟨e, hfound, _, hp⟩ ⟨e', hfound', _, hq⟩
  cases hfound.symm.trans hfound'
  exact hp.symm.trans hq

/-- One of two siblings is not below the other. -/
theorem Consistent.not_below_sibling (h : index.Consistent) {a b : String} (hab : a ≠ b)
    (ha : index.HasParent a parent) (hb : index.HasParent b parent) :
    ¬ReflTransGen index.HasParent a b := by
  intro hbelow
  rcases ReflTransGen.cases_head hbelow with rfl | ⟨p, hp, hpb⟩
  · exact hab rfl
  · cases hasParent_rightUnique ha hp
    exact h.acyclic parent (TransGen.tail' hpb hb)

/-- The descendants of siblings are apart. -/
theorem Consistent.apart_listAt (h : index.Consistent) (hne : parent ≠ "") :
    index.Apart (index.byParent.listAt parent) := by
  refine (h.parent_nodup parent).imp_of_mem ?_
  intro a b ha hb hab x hxa hxb
  rw [h.mem_listAt_iff hne] at ha hb
  rcases hxa.total_of_right_unique hasParent_rightUnique hxb with hbelow | hbelow
  · exact h.not_below_sibling hab ha hb hbelow
  · exact h.not_below_sibling (Ne.symm hab) hb ha hbelow

/-- **No entity is met twice** in the unfolding of ids that are apart. -/
theorem Unfolds.nodup {ids : List String} {out : List Entity} (h : Unfolds index ids out)
    (hindex : index.Consistent) (hapart : index.Apart ids) : out.Nodup := by
  induction h with
  | nil => exact List.nodup_nil
  | @cons id rest e below beside hfound hinner houter ihinner ihouter =>
      have hne := hindex.id_ne_of_get? hfound
      have hid : e.id = id := hindex.id_eq id e hfound
      obtain ⟨hfirst, hrest⟩ := List.pairwise_cons.1 hapart
      -- What is below `id`, strictly or not, is not below the ids behind it.
      have haway : ∀ c, ReflTransGen index.HasParent c.id id → c ∉ beside := by
        intro c hc hmem
        obtain ⟨_, id', hid', hc'⟩ := (houter.mem_iff hindex).1 hmem
        exact hfirst id' hid' c.id hc hc'
      have hself : e ∉ below := by
        intro hmem
        obtain ⟨_, child, hchild, hbelow⟩ := (hinner.mem_iff hindex).1 hmem
        rw [hid] at hbelow
        exact hindex.acyclic id (TransGen.tail' hbelow ((hindex.mem_listAt_iff hne).1 hchild))
      have hdisjoint : below.Disjoint beside := by
        intro c hc
        obtain ⟨_, hc⟩ := (hinner.mem_iff hindex).1 hc
        exact haway c ((hindex.reflTransGen_iff hne).2 (.inr hc))
      rw [List.nodup_cons, List.mem_append, not_or]
      exact ⟨⟨hself, haway e (hid ▸ .refl)⟩,
        (ihinner (hindex.apart_listAt hne)).append (ihouter hrest) hdisjoint⟩

/-- Entities that are found under their ids have different ids. -/
theorem nodup_ids {entities : List Entity} (h : entities.Nodup)
    (hfound : ∀ c ∈ entities, index.get? c.id = some c) : (entities.map (·.id)).Nodup := by
  refine h.map_on ?_
  intro c hc d hd hid
  have hsame := hfound c hc
  rw [hid, hfound d hd] at hsame
  exact (Option.some.inj hsame).symm

/-- An unfolding is no longer than the index. -/
theorem Unfolds.length_le {ids : List String} {out : List Entity} (h : Unfolds index ids out)
    (hindex : index.Consistent) (hapart : index.Apart ids) : out.length ≤ index.size := by
  have hfound : ∀ c ∈ out, index.get? c.id = some c := fun c hc => ((h.mem_iff hindex).1 hc).1
  have hnodup : (out.map (·.id)).Nodup := nodup_ids (h.nodup hindex hapart) hfound
  have hsub : out.map (·.id) ⊆ index.sortedIds := by
    intro id hid
    obtain ⟨c, hc, rfl⟩ := List.mem_map.1 hid
    exact (hindex.ids_mem c.id).2 (mem_entities_iff.2 ⟨c, hfound c hc⟩)
  have hlength := (List.subperm_of_subset hnodup hsub).length_le
  rw [List.length_map] at hlength
  exact hlength.trans hindex.total_eq.ge

/-! ## Subtrees -/

/-- A single id is apart from the others. -/
theorem apart_singleton (id : String) : index.Apart [id] := List.pairwise_singleton _ _

/-- **The subtree of an entity** is what its id unfolds to. -/
theorem Consistent.subtree_unfolds (h : index.Consistent) (hfound : index.get? id = some e) :
    Unfolds index [id] (index.subtree id) := by
  have hknown : ∀ id' ∈ [id], id' ∈ index.entities := by
    rw [List.forall_mem_singleton]
    exact mem_entities_iff.2 ⟨e, hfound⟩
  obtain ⟨out, hout⟩ := h.exists_unfolds hknown
  obtain ⟨more, hmore⟩ := Nat.exists_eq_add_of_le (hout.length_le h (apart_singleton id))
  have hvisit : index.subtree id = out := by
    rw [subtree, hmore, Nat.add_assoc, ← List.append_nil [id], hout.visit]
    simp [EntityIndex.visit]
  rw [hvisit]
  exact hout

/-- The subtree of an unknown id is empty. -/
theorem subtree_of_get?_eq_none (h : index.get? id = none) : index.subtree id = [] := by
  rw [subtree, EntityIndex.visit, h]
  cases index.size <;> rfl

/-- **What a subtree holds**: the entity and its descendants. -/
theorem Consistent.mem_subtree_iff (h : index.Consistent) (hfound : index.get? id = some e) :
    c ∈ index.subtree id ↔
      index.get? c.id = some c ∧ ReflTransGen index.HasParent c.id id := by
  rw [(h.subtree_unfolds hfound).mem_iff h]
  simp

/-- A subtree meets no entity twice. -/
theorem Consistent.nodup_subtree (h : index.Consistent) (hfound : index.get? id = some e) :
    (index.subtree id).Nodup :=
  (h.subtree_unfolds hfound).nodup h (apart_singleton id)

end RegistryGraph.EntityIndex
