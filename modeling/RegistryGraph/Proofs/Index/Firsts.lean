import Mathlib.Data.List.Nodup
import RegistryGraph.Proofs.Index.Walk

/-!
# First records and grounded records

The entities of `EntityIndex.ofRecords` are the first records of their ids, so the lists of an index
hold every id at most once.  Records are grounded if each of them names as its parent an id that has
been seen before it.  The records of an element tree are grounded (`grounded_records`), because the id
of an element comes before those of the elements inside it.
-/

namespace RegistryGraph

/-- The colon stays even if type and code are empty. -/
theorem Entity.idOf_ne_empty (type code : String) : Entity.idOf type code ≠ "" := by
  intro h
  have hlength := congrArg String.length h
  simp [Entity.idOf] at hlength

namespace Records

/-! ## First records -/

/-- Sifting keeps the first record of every id that has not been seen. -/
theorem mem_sift_false_iff {seen : List String} {rs : List Entity} {r : Entity} :
    r ∈ sift false seen rs ↔ r.id ∉ seen ∧ rs.find? (·.id = r.id) = some r := by
  induction rs generalizing seen with
  | nil => simp [sift]
  | cons x rest ih =>
      rw [sift]
      by_cases hid : x.id = r.id
      · have hrest : r ∉ sift false (x.id :: seen) rest := by
          intro hr
          exact (ih.1 hr).1 (hid ▸ List.mem_cons_self)
        have hfind : (x :: rest).find? (·.id = r.id) = some x :=
          List.find?_cons_of_pos (decide_eq_true hid)
        rw [hfind, Option.some.injEq]
        by_cases hseen : x.id ∈ seen
        · simpa [hseen, hrest] using fun h : r.id ∉ seen => absurd (hid ▸ hseen) h
        · have hseen' : r.id ∉ seen := hid ▸ hseen
          simp [hseen, hseen', hrest, eq_comm]
      · have hne : r ≠ x := fun h => hid (h ▸ rfl)
        have hfind : (x :: rest).find? (·.id = r.id) = rest.find? (·.id = r.id) :=
          List.find?_cons_of_neg (by simpa using hid)
        have hcons : r.id ∉ x.id :: seen ↔ r.id ∉ seen := by
          simp [Ne.symm hid]
        rw [hfind, ← hcons, ← ih]
        split
        · simp [hne]
        · rfl

/-- The first records are those that a search for their id finds. -/
theorem mem_firsts_iff {rs : List Entity} {r : Entity} :
    r ∈ firsts rs ↔ rs.find? (·.id = r.id) = some r := by
  rw [firsts, mem_sift_false_iff]
  simp

/-- What is kept of the first records has no id twice. -/
theorem nodup_ids_sift_false (seen : List String) (rs : List Entity) :
    (ids (sift false seen rs)).Nodup := by
  induction rs generalizing seen with
  | nil => exact List.nodup_nil
  | cons x rest ih =>
      rw [sift]
      split
      · rw [ids_cons, List.nodup_cons]
        refine ⟨?_, ih (x.id :: seen)⟩
        intro hx
        obtain ⟨r, hr, hid⟩ := List.mem_map.1 hx
        exact (mem_sift_false_iff.1 hr).1 (hid ▸ List.mem_cons_self)
      · exact ih (x.id :: seen)

/-- An entity is the first record of its id, with the children filed under it. -/
theorem entity?_eq_some_iff {rs : List Entity} {id : String} {e : Entity} :
    entity? rs id = some e ↔
      ∃ r, rs.find? (·.id = id) = some r ∧ e = { r with children := childIds rs id } := by
  rw [entity?, Option.map_eq_some_iff]
  constructor
  · intro h
    obtain ⟨r, hfind, rfl⟩ := h
    exact ⟨r, hfind, rfl⟩
  · intro h
    obtain ⟨r, hfind, rfl⟩ := h
    exact ⟨r, hfind, rfl⟩

/-- An entity comes from a record with its id and its parent. -/
theorem exists_mem_of_entity? {rs : List Entity} {id : String} {e : Entity}
    (h : entity? rs id = some e) : ∃ r ∈ rs, r.id = id ∧ r.parentId = e.parentId := by
  obtain ⟨r, hfind, rfl⟩ := entity?_eq_some_iff.1 h
  have hid : r.id = id := by simpa using List.find?_some hfind
  exact ⟨r, List.mem_of_find?_eq_some hfind, hid, rfl⟩

/-- The entity found under an id has this id. -/
theorem id_of_entity? {rs : List Entity} {id : String} {e : Entity}
    (h : entity? rs id = some e) : e.id = id := by
  obtain ⟨r, hfind, rfl⟩ := entity?_eq_some_iff.1 h
  simpa using List.find?_some hfind

/-- What is filed under a key are the ids of the entities with this key. -/
theorem mem_filedUnder_firsts_iff {key? : Entity → Option String}
    (hkey : ∀ (e : Entity) children, key? { e with children } = key? e) {rs : List Entity}
    {k id : String} :
    id ∈ Keyed.filedUnder (firsts rs) key? (·.id) k ↔
      ∃ e, entity? rs id = some e ∧ key? e = some k := by
  simp only [Keyed.filedUnder, List.mem_map, List.mem_filter, decide_eq_true_eq, mem_firsts_iff]
  constructor
  · intro h
    obtain ⟨r, ⟨hfind, hr⟩, rfl⟩ := h
    exact ⟨_, entity?_eq_some_iff.2 ⟨r, hfind, rfl⟩, (hkey r _).trans hr⟩
  · intro h
    obtain ⟨e, he, hk⟩ := h
    have hid := id_of_entity? he
    obtain ⟨r, hfind, rfl⟩ := entity?_eq_some_iff.1 he
    obtain rfl : r.id = id := hid
    exact ⟨r, ⟨hfind, (hkey r _).symm.trans hk⟩, rfl⟩

/-- No id is filed twice under a key. -/
theorem nodup_filedUnder_firsts (rs : List Entity) (key? : Entity → Option String) (k : String) :
    (Keyed.filedUnder (firsts rs) key? (·.id) k).Nodup := by
  have hsub : (Keyed.filedUnder (firsts rs) key? (·.id) k).Sublist (ids (firsts rs)) :=
    List.Sublist.map _ List.filter_sublist
  exact (nodup_ids_sift_false [] rs).sublist hsub

/-! ## Grounded records -/

/-- Every parent that a record names is known before the record. -/
def Grounded (known : List String) : List Entity → Prop
  | [] => True
  | r :: rest => (∀ p, r.parent? = some p → p ∈ known) ∧ Grounded (r.id :: known) rest

/-- Records stay grounded when more parents are known. -/
theorem Grounded.mono {known more : List String} {rs : List Entity} (h : Grounded known rs)
    (hsub : ∀ id ∈ known, id ∈ more) : Grounded more rs := by
  induction rs generalizing known more with
  | nil => trivial
  | cons r rest ih =>
      refine ⟨fun p hp => hsub p (h.1 p hp), ih h.2 ?_⟩
      intro id hid
      rcases List.mem_cons.1 hid with rfl | hid
      · exact List.mem_cons_self
      · exact List.mem_cons_of_mem _ (hsub id hid)

/-- Grounded records followed by grounded ones are grounded. -/
theorem Grounded.append {known : List String} {rs more : List Entity} (h : Grounded known rs)
    (hmore : Grounded known more) : Grounded known (rs ++ more) := by
  induction rs generalizing known with
  | nil => exact hmore
  | cons r rest ih =>
      have hlater : Grounded (r.id :: known) more :=
        hmore.mono fun id hid => List.mem_cons_of_mem _ hid
      exact ⟨h.1, ih h.2 hlater⟩

/-- A parent that is known before its record is known to all records. -/
theorem Grounded.anchored {known : List String} {rs : List Entity} (h : Grounded known rs) :
    Anchored (known ++ ids rs) rs := by
  induction rs generalizing known with
  | nil => intro r hr; cases hr
  | cons x rest ih =>
      intro r hr p hp
      rcases List.mem_cons.1 hr with rfl | hr
      · exact List.mem_append_left _ (h.1 p hp)
      · have hmem := ih h.2 r hr p hp
        simp only [List.cons_append, List.mem_cons, List.mem_append] at hmem
        simp only [ids_cons, List.mem_append, List.mem_cons]
        rcases hmem with rfl | hknown | hrest
        · exact Or.inr (Or.inl rfl)
        · exact Or.inl hknown
        · exact Or.inr (Or.inr hrest)

end Records

namespace Walk

open Records
open Xml (Content)

/-- **The records of an element tree are grounded.** -/
theorem grounded_records {known : List String} {outer : String} (content : Content)
    (houter : outer = "" ∨ outer ∈ known) : Grounded known (records outer content) := by
  induction content generalizing known outer with
  | nil => trivial
  | text chunk rest ih => exact ih houter
  | element name pairs inner rest ihInner ihRest =>
      rw [records]
      cases code? pairs with
      | none => exact (ihInner houter).append (ihRest houter)
      | some code =>
          refine ⟨?_, ?_⟩
          · intro p hp
            obtain ⟨hne, rfl⟩ := Entity.parent?_eq_some_iff.1 hp
            exact houter.resolve_left hne
          · have hrest : outer = "" ∨ outer ∈ Entity.idOf name code :: known :=
              houter.imp_right (List.mem_cons_of_mem _)
            exact (ihInner (Or.inr List.mem_cons_self)).append (ihRest hrest)

/-- No record of an element tree has the empty id. -/
theorem id_ne_empty_of_mem_records {outer : String} {content : Content} {r : Entity}
    (h : r ∈ records outer content) : r.id ≠ "" := by
  induction content generalizing outer with
  | nil => cases h
  | text chunk rest ih => exact ih h
  | element name pairs inner rest ihInner ihRest =>
      rw [records] at h
      cases hcode : code? pairs with
      | none =>
          rw [hcode] at h
          rcases List.mem_append.1 h with h | h
          · exact ihInner h
          · exact ihRest h
      | some code =>
          rw [hcode] at h
          rcases List.mem_cons.1 h with rfl | h
          · exact Entity.idOf_ne_empty name code
          · rcases List.mem_append.1 h with h | h
            · exact ihInner h
            · exact ihRest h

end Walk

end RegistryGraph
