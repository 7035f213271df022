import RegistryGraph.Index.Builder
import RegistryGraph.Proofs.Tables

/-!
# The index of a list of records

A record is an entity before its children are known.  `EntityIndex.ofRecords` is the index of some
records in document order: the first record of an id becomes an entity, every later one a duplicate,
and the children of an entity are the entities that name it as their parent.

The builder's two operations on an index are list operations on the records behind it.  Registering
appends a record (`register_ofRecords`), and updating a slot changes the record in that slot where it
stands (`updateSlot_ofRecords`).
-/

namespace RegistryGraph

/-- The id of the entity around an entity, if there is one. -/
def Entity.parent? (e : Entity) : Option String :=
  if e.parentId.isEmpty then none else some e.parentId

/-- The parent of an entity is what it names, unless that is empty. -/
theorem Entity.parent?_eq_some_iff {e : Entity} {p : String} :
    e.parent? = some p ↔ p ≠ "" ∧ e.parentId = p := by
  unfold Entity.parent?
  by_cases hroot : e.parentId = ""
  · rw [hroot, if_pos (String.isEmpty_iff.2 rfl)]
    constructor
    · intro h
      cases h
    · intro h
      obtain ⟨hne, rfl⟩ := h
      exact absurd rfl hne
  · have hfull : e.parentId.isEmpty = false := by simpa using hroot
    rw [hfull, if_neg Bool.false_ne_true, Option.some.injEq]
    constructor
    · intro heq
      obtain rfl := heq
      exact ⟨hroot, rfl⟩
    · exact fun h => h.2

namespace Records

/-- The ids of some records. -/
def ids (rs : List Entity) : List String := rs.map (·.id)

/-- The records whose id has been seen, among `seen` or earlier in the list, or those whose id has
not. -/
def sift (repeated : Bool) (seen : List String) : List Entity → List Entity
  | [] => []
  | r :: rest =>
    if decide (r.id ∈ seen) = repeated then r :: sift repeated (r.id :: seen) rest
    else sift repeated (r.id :: seen) rest

/-- The first record of every id. -/
def firsts (rs : List Entity) : List Entity := sift false [] rs

/-- The records behind the first one of their id. -/
def repeats (rs : List Entity) : List Entity := sift true [] rs

/-- The ids of the entities directly inside the entity `id`. -/
def childIds (rs : List Entity) (id : String) : List String :=
  Keyed.filedUnder (firsts rs) Entity.parent? (·.id) id

/-- The entity with the given id: the first record of it, with its children. -/
def entity? (rs : List Entity) (id : String) : Option Entity :=
  (rs.find? (·.id = id)).map fun r => { r with children := childIds rs id }

/-- Where the index keeps a record behind the records `before`. -/
def slotOf (before : List Entity) (e : Entity) : Slot :=
  if e.id ∈ ids before then .duplicate (repeats before).length else .primary e.id

/-- Every parent that a record names is among `known`. -/
def Anchored (known : List String) (rs : List Entity) : Prop :=
  ∀ r ∈ rs, ∀ p, r.parent? = some p → p ∈ known

end Records

open Records

/-- The index of some records in document order. -/
def EntityIndex.ofRecords (rs : List Entity) (sourceFile revision : String) : EntityIndex where
  entities := Keyed.tabulate (ids rs) (entity? rs)
  byType := Keyed.group (firsts rs) (some ·.type) (·.id)
  byParent := Keyed.group (firsts rs) Entity.parent? (·.id)
  duplicates := repeats rs
  sourceFile
  revision

namespace Records

/-- The ids of two lists of records, one behind the other. -/
@[simp] theorem ids_append (rs more : List Entity) : ids (rs ++ more) = ids rs ++ ids more :=
  List.map_append

/-- The ids of a record and those behind it. -/
@[simp] theorem ids_cons (r : Entity) (rs : List Entity) : ids (r :: rs) = r.id :: ids rs := rfl

/-- Without records there are no ids. -/
@[simp] theorem ids_nil : ids [] = [] := rfl

/-- Sifting goes on behind some records with their ids seen. -/
theorem sift_append (repeated : Bool) (seen : List String) (rs more : List Entity) :
    sift repeated seen (rs ++ more) =
      sift repeated seen rs ++ sift repeated ((ids rs).reverse ++ seen) more := by
  induction rs generalizing seen with
  | nil => rfl
  | cons r rest ih =>
      simp only [List.cons_append, sift, ih, ids_cons, List.reverse_cons, List.append_assoc,
        List.nil_append]
      split <;> rfl

/-- A record whose id occurs already is not a first one. -/
theorem firsts_concat_of_mem {rs : List Entity} {e : Entity} (h : e.id ∈ ids rs) :
    firsts (rs ++ [e]) = firsts rs := by
  rw [firsts, sift_append]
  simp [sift, h, firsts]

/-- A record with a new id is the last of the first ones. -/
theorem firsts_concat_of_not_mem {rs : List Entity} {e : Entity} (h : e.id ∉ ids rs) :
    firsts (rs ++ [e]) = firsts rs ++ [e] := by
  rw [firsts, sift_append]
  simp [sift, h, firsts]

/-- A record whose id occurs already is the last of the repeats. -/
theorem repeats_concat_of_mem {rs : List Entity} {e : Entity} (h : e.id ∈ ids rs) :
    repeats (rs ++ [e]) = repeats rs ++ [e] := by
  rw [repeats, sift_append]
  simp [sift, h, repeats]

/-- A record with a new id is no repeat. -/
theorem repeats_concat_of_not_mem {rs : List Entity} {e : Entity} (h : e.id ∉ ids rs) :
    repeats (rs ++ [e]) = repeats rs := by
  rw [repeats, sift_append]
  simp [sift, h, repeats]

/-- Sifting adds no records. -/
theorem mem_of_mem_sift {repeated : Bool} {seen : List String} {rs : List Entity} {r : Entity}
    (h : r ∈ sift repeated seen rs) : r ∈ rs := by
  induction rs generalizing seen with
  | nil => exact h
  | cons first rest ih =>
      rw [sift] at h
      split at h
      · rcases List.mem_cons.1 h with rfl | h
        · exact List.mem_cons_self
        · exact List.mem_cons_of_mem _ (ih h)
      · exact List.mem_cons_of_mem _ (ih h)

/-- A search finds a record exactly if its id occurs. -/
theorem find?_isSome_iff {rs : List Entity} {id : String} :
    (rs.find? (·.id = id)).isSome ↔ id ∈ ids rs := by
  simp [ids]

/-- A search for an id that does not occur finds nothing. -/
theorem find?_eq_none {rs : List Entity} {id : String} (h : id ∉ ids rs) :
    rs.find? (·.id = id) = none :=
  Option.not_isSome_iff_eq_none.1 fun hs => h (find?_isSome_iff.1 hs)

/-- No record names a parent that does not occur. -/
theorem childIds_eq_nil {rs : List Entity} {id : String} (hanchored : Anchored (ids rs) rs)
    (h : id ∉ ids rs) : childIds rs id = [] := by
  rw [childIds, Keyed.filedUnder, List.map_eq_nil_iff, List.filter_eq_nil_iff]
  intro r hr hp
  exact h (hanchored r (mem_of_mem_sift hr) id (of_decide_eq_true hp))

/-! ## A new last record -/

/-- A record whose id occurs already changes no entity. -/
theorem entity?_concat_of_mem {rs : List Entity} {e : Entity} (h : e.id ∈ ids rs) (id : String) :
    entity? (rs ++ [e]) id = entity? rs id := by
  have hfind : (rs ++ [e]).find? (·.id = id) = rs.find? (·.id = id) := by
    rw [List.find?_append]
    cases hf : rs.find? (·.id = id) with
    | some r => rfl
    | none =>
        have hne : e.id ≠ id := by
          intro heq
          obtain rfl := heq
          simpa [hf] using find?_isSome_iff.2 h
        simp [hne]
  simp [entity?, hfind, childIds, firsts_concat_of_mem h]

/-- A record with a new id adds an entity without children, which is the last child of its
parent. -/
theorem entity?_concat_of_not_mem {rs : List Entity} {e : Entity} (hanchored : Anchored (ids rs) rs)
    (hparent : Anchored (ids rs) [e]) (hchildren : e.children = []) (h : e.id ∉ ids rs)
    (id : String) :
    entity? (rs ++ [e]) id =
      if e.id = id then some e
      else if e.parent? = some id then
        (entity? rs id).map fun p => { p with children := p.children ++ [e.id] }
      else entity? rs id := by
  have hchild : childIds (rs ++ [e]) id =
      childIds rs id ++ if e.parent? = some id then [e.id] else [] := by
    rw [childIds, firsts_concat_of_not_mem h, Keyed.filedUnder_append]
    by_cases hp : e.parent? = some id <;> simp [childIds, Keyed.filedUnder, hp]
  rw [entity?, hchild, List.find?_append]
  by_cases hid : e.id = id
  · subst hid
    have hnone : rs.find? (·.id = e.id) = none := find?_eq_none h
    have hself : e.parent? ≠ some e.id := fun hp => h (hparent e List.mem_cons_self _ hp)
    have hbare : { e with children := ([] : List String) } = e := by rw [← hchildren]
    simp [hnone, hself, childIds_eq_nil hanchored h, hbare]
  · by_cases hp : e.parent? = some id
    · simp [entity?, hid, hp, Function.comp_def]
    · simp [entity?, hid, hp]

/-! ## A changed record -/

/-- A change of a record that touches only its name and its attributes. -/
structure Retouch (f : Entity → Entity) : Prop where
  id : ∀ e, (f e).id = e.id
  type : ∀ e, (f e).type = e.type
  parentId : ∀ e, (f e).parentId = e.parentId
  children : ∀ e children, f { e with children } = { f e with children }

/-- An attribute's text is added without touching id, type or parent. -/
theorem Retouch.addText (key value : String) : Retouch (·.addText key value) :=
  ⟨fun _ => rfl, fun _ => rfl, fun _ => rfl, fun _ _ => rfl⟩

/-- A name is set without touching id, type or parent. -/
theorem Retouch.setName (name : String) : Retouch fun e => { e with name } :=
  ⟨fun _ => rfl, fun _ => rfl, fun _ => rfl, fun _ _ => rfl⟩

/-- A retouched entity has the parent that it had. -/
theorem Retouch.parent? {f : Entity → Entity} (hf : Retouch f) (e : Entity) :
    (f e).parent? = e.parent? := by
  simp [Entity.parent?, hf.parentId]

/-- Sifting around one record: it stays or goes by the ids in front of it. -/
theorem sift_middle (repeated : Bool) (before after : List Entity) (e : Entity) :
    sift repeated [] (before ++ e :: after) =
      sift repeated [] before ++ ((if decide (e.id ∈ ids before) = repeated then [e] else []) ++
        sift repeated (e.id :: (ids before).reverse) after) := by
  rw [sift_append, List.append_nil, sift]
  simp only [List.mem_reverse]
  split <;> rfl

/-- A change that keeps the id and the key of a record keeps what is filed. -/
theorem filedUnder_firsts_retouch {f : Entity → Entity} (hf : Retouch f)
    {key? : Entity → Option String} (before after : List Entity) {e : Entity}
    (hkey : key? (f e) = key? e) (k : String) :
    Keyed.filedUnder (firsts (before ++ f e :: after)) key? (·.id) k =
      Keyed.filedUnder (firsts (before ++ e :: after)) key? (·.id) k := by
  rw [firsts, firsts, sift_middle, sift_middle, hf.id]
  simp only [Keyed.filedUnder_append]
  congr 2
  by_cases hk : key? e = some k <;> split <;> simp [Keyed.filedUnder, hf.id, hkey, hk]

/-- Retouching a record does not change what is filed under a key that it keeps. -/
theorem group_firsts_retouch {f : Entity → Entity} (hf : Retouch f)
    {key? : Entity → Option String} (before after : List Entity) {e : Entity}
    (hkey : key? (f e) = key? e) :
    Keyed.group (firsts (before ++ f e :: after)) key? (·.id) =
      Keyed.group (firsts (before ++ e :: after)) key? (·.id) := by
  apply Std.ExtTreeMap.ext_getElem?
  intro k
  rw [Keyed.getElem?_group, Keyed.getElem?_group, filedUnder_firsts_retouch hf before after hkey]

/-- A search finds the retouched record where it is the first of its id. -/
theorem find?_retouch {f : Entity → Entity} (hf : Retouch f) (before after : List Entity)
    (e : Entity) (id : String) :
    (before ++ f e :: after).find? (·.id = id) =
      if e.id = id ∧ e.id ∉ ids before then some (f e)
      else (before ++ e :: after).find? (·.id = id) := by
  rw [List.find?_append, List.find?_append]
  by_cases hid : e.id = id
  · subst hid
    by_cases hmem : e.id ∈ ids before
    · obtain ⟨r, hr⟩ := Option.isSome_iff_exists.1 (find?_isSome_iff.2 hmem)
      simp [hr, hmem]
    · have hnone : before.find? (·.id = e.id) = none := find?_eq_none hmem
      simp [hnone, hmem, hf.id]
  · simp [hid, hf.id]

/-- Retouching a record changes the entity of its id if it is the first record of it. -/
theorem entity?_retouch {f : Entity → Entity} (hf : Retouch f) (before after : List Entity)
    (e : Entity) (id : String) :
    entity? (before ++ f e :: after) id =
      if e.id = id ∧ e.id ∉ ids before then (entity? (before ++ e :: after) id).map f
      else entity? (before ++ e :: after) id := by
  have hchild : childIds (before ++ f e :: after) id = childIds (before ++ e :: after) id :=
    filedUnder_firsts_retouch hf before after (hf.parent? e) id
  rw [entity?, entity?, hchild, find?_retouch hf]
  split
  · next h =>
      obtain ⟨rfl, hmem⟩ := h
      have hnone : before.find? (·.id = e.id) = none := find?_eq_none hmem
      rw [List.find?_append, hnone, Option.none_or, List.find?_cons_of_pos (by simp),
        Option.map_some, Option.map_some, Option.map_some]
      exact congrArg some (hf.children e _).symm
  · rfl

end Records

namespace EntityIndex

variable {sourceFile revision : String}

/-- The table of entities answers with the entity of the records. -/
theorem getElem?_ofRecords (rs : List Entity) (id : String) :
    (ofRecords rs sourceFile revision).entities[id]? = entity? rs id := by
  rw [ofRecords, Keyed.getElem?_tabulate]
  split
  · rfl
  · next h =>
      have hnone : rs.find? (·.id = id) = none := find?_eq_none h
      simp [entity?, hnone]

/-- The table of entities has the ids that occur. -/
theorem contains_ofRecords (rs : List Entity) (id : String) :
    (ofRecords rs sourceFile revision).entities.contains id = decide (id ∈ ids rs) := by
  rw [Std.ExtTreeMap.contains_eq_isSome_getElem?, getElem?_ofRecords, entity?, Option.isSome_map,
    Bool.eq_iff_iff, find?_isSome_iff, decide_eq_true_iff]

/-- A record whose id occurs already goes to the duplicates and nowhere else. -/
theorem ofRecords_concat_of_mem {rs : List Entity} {e : Entity} (h : e.id ∈ ids rs) :
    ofRecords (rs ++ [e]) sourceFile revision =
      { ofRecords rs sourceFile revision with duplicates := repeats rs ++ [e] } := by
  have hentities : (ofRecords (rs ++ [e]) sourceFile revision).entities =
      (ofRecords rs sourceFile revision).entities := by
    apply Std.ExtTreeMap.ext_getElem?
    intro id
    rw [getElem?_ofRecords, getElem?_ofRecords, entity?_concat_of_mem h]
  simp only [ofRecords, firsts_concat_of_mem h, repeats_concat_of_mem h] at hentities ⊢
  rw [hentities]

/-- A record with a new id goes to the entities and to the children of its parent. -/
theorem entities_concat_of_not_mem {rs : List Entity} {e : Entity}
    (hanchored : Anchored (ids rs) rs) (hparent : Anchored (ids rs) [e])
    (hchildren : e.children = []) (h : e.id ∉ ids rs) :
    (ofRecords (rs ++ [e]) sourceFile revision).entities =
      (if e.parentId.isEmpty then (ofRecords rs sourceFile revision).entities
      else (ofRecords rs sourceFile revision).entities.modify e.parentId fun p =>
        { p with children := p.children ++ [e.id] }).insert e.id e := by
  apply Std.ExtTreeMap.ext_getElem?
  intro id
  rw [getElem?_ofRecords, entity?_concat_of_not_mem hanchored hparent hchildren h,
    Std.ExtTreeMap.getElem?_insert]
  by_cases hroot : e.parentId.isEmpty
  · simp [Entity.parent?, hroot, getElem?_ofRecords]
  · by_cases hp : e.parentId = id
    · subst hp
      simp [Entity.parent?, hroot, getElem?_ofRecords]
    · simp [Entity.parent?, hroot, hp, getElem?_ofRecords, Std.ExtTreeMap.getElem?_modify]

/-- A record with a new id is filed last under its parent, if it has one. -/
theorem byParent_concat_of_not_mem {rs : List Entity} {e : Entity} (h : e.id ∉ ids rs) :
    (ofRecords (rs ++ [e]) sourceFile revision).byParent =
      if e.parentId.isEmpty then (ofRecords rs sourceFile revision).byParent
      else (ofRecords rs sourceFile revision).byParent.append e.parentId e.id := by
  simp only [ofRecords, firsts_concat_of_not_mem h]
  split
  · next hroot => exact Keyed.group_concat_of_none _ (if_pos hroot)
  · next hroot => exact Keyed.group_concat_of_some (fun r : Entity => r.id) (if_neg hroot)

/-- A record with a new id is filed last under its type. -/
theorem byType_concat_of_not_mem {rs : List Entity} {e : Entity} (h : e.id ∉ ids rs) :
    (ofRecords (rs ++ [e]) sourceFile revision).byType =
      (ofRecords rs sourceFile revision).byType.append e.type e.id := by
  simp only [ofRecords, firsts_concat_of_not_mem h]
  exact Keyed.group_concat_of_some (fun r : Entity => r.id) rfl

/-- **Registering appends a record.** -/
theorem register_ofRecords {rs : List Entity} {e : Entity} (hanchored : Anchored (ids rs) rs)
    (hparent : Anchored (ids rs) [e]) (hchildren : e.children = []) :
    IndexBuilder.register (ofRecords rs sourceFile revision) e =
      (ofRecords (rs ++ [e]) sourceFile revision, slotOf rs e) := by
  unfold IndexBuilder.register
  rw [contains_ofRecords]
  by_cases h : e.id ∈ ids rs
  · rw [ofRecords_concat_of_mem h]
    simp [h, slotOf, ofRecords]
  · have hduplicates := repeats_concat_of_not_mem h
    simp only [h, decide_false, slotOf, Bool.false_eq_true, if_false, Prod.mk.injEq, and_true]
    rw [EntityIndex.mk.injEq, entities_concat_of_not_mem hanchored hparent hchildren h,
      byType_concat_of_not_mem h, byParent_concat_of_not_mem h]
    split
    · exact ⟨rfl, rfl, rfl, hduplicates.symm, rfl, rfl⟩
    · exact ⟨rfl, rfl, rfl, hduplicates.symm, rfl, rfl⟩

/-- **Updating a slot changes one record where it stands.** -/
theorem updateSlot_ofRecords {f : Entity → Entity} (hf : Retouch f) (before after : List Entity)
    (e : Entity) :
    IndexBuilder.updateSlot (ofRecords (before ++ e :: after) sourceFile revision)
        (slotOf before e) f =
      ofRecords (before ++ f e :: after) sourceFile revision := by
  have hbyType : (ofRecords (before ++ f e :: after) sourceFile revision).byType =
      (ofRecords (before ++ e :: after) sourceFile revision).byType :=
    group_firsts_retouch hf before after (congrArg some (hf.type e))
  have hbyParent : (ofRecords (before ++ f e :: after) sourceFile revision).byParent =
      (ofRecords (before ++ e :: after) sourceFile revision).byParent :=
    group_firsts_retouch hf before after (hf.parent? e)
  by_cases hmem : e.id ∈ ids before
  · have hentities : (ofRecords (before ++ f e :: after) sourceFile revision).entities =
        (ofRecords (before ++ e :: after) sourceFile revision).entities := by
      apply Std.ExtTreeMap.ext_getElem?
      intro id
      rw [getElem?_ofRecords, getElem?_ofRecords, entity?_retouch hf]
      simp [hmem]
    have hduplicates : repeats (before ++ f e :: after) =
        (repeats (before ++ e :: after)).modify (repeats before).length f := by
      rw [repeats, repeats, sift_middle, sift_middle, hf.id, ← repeats]
      simp [hmem, List.modify_eq_take_drop]
    simp only [slotOf, if_pos hmem, IndexBuilder.updateSlot]
    rw [EntityIndex.mk.injEq, hentities, hbyType, hbyParent]
    exact ⟨rfl, rfl, rfl, hduplicates.symm, rfl, rfl⟩
  · have hentities : (ofRecords (before ++ f e :: after) sourceFile revision).entities =
        (ofRecords (before ++ e :: after) sourceFile revision).entities.modify e.id f := by
      apply Std.ExtTreeMap.ext_getElem?
      intro id
      rw [getElem?_ofRecords, Std.ExtTreeMap.getElem?_modify, getElem?_ofRecords,
        entity?_retouch hf]
      by_cases hid : e.id = id
      · simp [hmem, ← hid]
      · simp [hid, getElem?_ofRecords]
    have hduplicates : repeats (before ++ f e :: after) = repeats (before ++ e :: after) := by
      rw [repeats, repeats, sift_middle, sift_middle, hf.id]
      simp [hmem]
    simp only [slotOf, if_neg hmem, IndexBuilder.updateSlot]
    rw [EntityIndex.mk.injEq, hentities, hbyType, hbyParent]
    exact ⟨rfl, rfl, rfl, hduplicates.symm, rfl, rfl⟩

end EntityIndex

end RegistryGraph
