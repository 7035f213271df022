import RegistryGraph.Proofs.Index.Elements

/-!
# What ids tell apart

An id joins a type and a code with a colon, and both may hold colons themselves.  So two elements can have
one id although their types differ: the type of one goes on where the code of the other begins.  Then one of
them displaces the other, and the message about the repeated id, which takes everything in front of the
first colon for the type, names a type and a code that an element with a colon in its type does not have.

* `Entity.idOf_eq_iff`: when two ids are equal.
* `Violation.splitId_idOf_iff`: when an id is read back as it was formed.
* `EntityIndex.repeatedId_mem_violations_iff`: which ids are reported, and with which numbers.
* `EntityIndex.ids_tell`: what the ids of a document tell about its coded elements.
* `EntityIndex.id_of_colon_in_type`: two elements of different types with one id.
-/

namespace RegistryGraph

open Walk

/-! ## Ids as texts -/

/-- The number of colons in a text. -/
def colons (s : String) : Nat := s.toList.count ':'

/-- An id is the type, a colon and the code. -/
theorem Entity.toList_idOf (type code : String) :
    (Entity.idOf type code).toList = type.toList ++ ':' :: code.toList := by
  simp [idOf]

/-- The second type goes on, behind a colon, with the front of the first code. -/
def Entity.Extends (type code type' code' : String) : Prop :=
  ∃ more, type' = Entity.idOf type more ∧ code = Entity.idOf more code'

/-- A type that takes over a part of the code, colon and all, makes the same id. -/
theorem Entity.Extends.idOf_eq {type code type' code' : String}
    (h : Entity.Extends type code type' code') :
    Entity.idOf type code = Entity.idOf type' code' := by
  obtain ⟨more, rfl, rfl⟩ := h
  simp [idOf, String.append_assoc]

/-- What one type has beyond the other is nothing, or starts with a colon. -/
theorem Entity.same_or_extends {type code type' code' : String} {beyond : List Char}
    (htype : type'.toList = type.toList ++ beyond)
    (hcode : ':' :: code.toList = beyond ++ ':' :: code'.toList) :
    (type = type' ∧ code = code') ∨ Entity.Extends type code type' code' := by
  cases beyond with
  | nil =>
      refine .inl ⟨?_, ?_⟩
      · rw [← String.toList_inj, htype, List.append_nil]
      · exact String.toList_inj.1 (List.cons.inj hcode).2
  | cons c more =>
      obtain ⟨rfl, hfront⟩ := List.cons.inj hcode
      refine .inr ⟨.ofList more, ?_, ?_⟩
      · rw [← String.toList_inj, htype, toList_idOf, String.toList_ofList]
      · rw [← String.toList_inj, hfront, toList_idOf, String.toList_ofList]
        rfl

/-- **When two ids are equal.**  Type and code are the same, or one type goes on with the front of the
other code. -/
theorem Entity.idOf_eq_iff {type code type' code' : String} :
    Entity.idOf type code = Entity.idOf type' code' ↔
      (type = type' ∧ code = code') ∨ Entity.Extends type code type' code' ∨
        Entity.Extends type' code' type code := by
  constructor
  · intro h
    rw [← String.toList_inj, toList_idOf, toList_idOf, List.append_eq_append_iff] at h
    rcases h with ⟨beyond, htype, hcode⟩ | ⟨beyond, htype, hcode⟩
    · rcases same_or_extends htype hcode with hsame | hextends
      · exact .inl hsame
      · exact .inr (.inl hextends)
    · rcases same_or_extends htype hcode with ⟨hsame, hcodes⟩ | hextends
      · exact .inl ⟨hsame.symm, hcodes.symm⟩
      · exact .inr (.inr hextends)
  · rintro (⟨rfl, rfl⟩ | h | h)
    · rfl
    · exact h.idOf_eq
    · exact h.idOf_eq.symm

/-- A type that extends another has more colons. -/
theorem Entity.Extends.colons_lt {type code type' code' : String}
    (h : Entity.Extends type code type' code') : colons type < colons type' := by
  obtain ⟨more, rfl, _⟩ := h
  rw [colons, colons, toList_idOf, List.count_append, List.count_cons_self]
  omega

/-- Elements with one id have one type just in case their types have equally many colons. -/
theorem Entity.type_eq_iff_of_idOf_eq {type code type' code' : String}
    (h : Entity.idOf type code = Entity.idOf type' code') :
    type = type' ↔ colons type = colons type' := by
  rcases Entity.idOf_eq_iff.1 h with ⟨rfl, _⟩ | hbeyond | hbeyond
  · exact ⟨fun _ => rfl, fun _ => rfl⟩
  · have hlt := hbeyond.colons_lt
    exact ⟨fun heq => congrArg colons heq, fun heq => absurd heq hlt.ne⟩
  · have hlt := hbeyond.colons_lt
    exact ⟨fun heq => congrArg colons heq, fun heq => absurd heq hlt.ne'⟩

namespace Violation

/-- **When an id is read back as it was formed.**  The type must not hold a colon. -/
theorem splitId_idOf_iff {type code : String} :
    splitId (Entity.idOf type code) = (type, code) ↔ ':' ∉ type.toList := by
  rw [splitId, Entity.toList_idOf]
  constructor
  · intro h hcolon
    have hfront := congrArg String.toList (Prod.mk.inj h).1
    rw [String.toList_ofList] at hfront
    rw [← hfront] at hcolon
    simpa using List.mem_takeWhile_imp hcolon
  · intro hcolon
    have hother : ∀ c ∈ type.toList, (decide (c ≠ ':')) = true := by
      intro c hc
      exact decide_eq_true fun heq => hcolon (heq ▸ hc)
    have hfront : (type.toList ++ ':' :: code.toList).takeWhile (· ≠ ':') = type.toList := by
      rw [List.takeWhile_append_of_pos hother, List.takeWhile_cons_of_neg (by simp),
        List.append_nil]
    rw [hfront, List.drop_left]
    simp

/-- The message about an id names the parts of the id and the number of the elements that share it. -/
theorem message_repeatedId (id : String) (n : Nat) :
    message (.repeatedId id n) =
      s!"duplicate code '{(splitId id).2}' for type '{(splitId id).1}' ({n} elements share id {id})" :=
  rfl

end Violation

/-! ## Counting ids -/

namespace EntityIndex

variable {octets : Octets} {sourceFile revision : String} {index : EntityIndex} {id : String}

/-- Counting on from a table. -/
theorem getElem?_countFrom (ds : List Entity) (counts : Keyed Nat) (id : String) :
    (ds.foldl (fun (counts : Keyed Nat) e => counts.insert e.id (counts.getD e.id 0 + 1)) counts)[id]? =
      if id ∈ ds.map (·.id) then some (counts.getD id 0 + (ds.map (·.id)).count id)
      else counts[id]? := by
  induction ds generalizing counts with
  | nil => rfl
  | cons d rest ih =>
      rw [List.foldl_cons, ih, Std.ExtTreeMap.getElem?_insert, Std.ExtTreeMap.getD_insert,
        List.map_cons]
      by_cases hid : d.id = id
      · subst hid
        by_cases hmem : d.id ∈ rest.map (·.id)
        · simp only [hmem, if_true, Std.ReflCmp.compare_self, List.mem_cons, true_or,
            List.count_cons_self]
          congr 1
          omega
        · have hzero := List.count_eq_zero.2 hmem
          simp [hmem, hzero]
      · have hne : id ≠ d.id := fun heq => hid heq.symm
        by_cases hmem : id ∈ rest.map (·.id)
        · simp [hmem, hid, hne, List.count_cons_of_ne hid]
        · simp [hmem, hid, hne]

/-- A repeated id is counted as often as it stands among the duplicates; no other id is counted. -/
theorem getElem?_duplicateCounts (index : EntityIndex) (id : String) :
    index.duplicateCounts[id]? =
      if id ∈ index.duplicates.map (·.id) then some ((index.duplicates.map (·.id)).count id)
      else none := by
  rw [duplicateCounts, getElem?_countFrom]
  simp

/-- In a consistent index an id that occurs belongs to one entity, and to any number of duplicates. -/
theorem Consistent.count_id (h : index.Consistent) (id : String) :
    (index.elements.map (·.id)).count id =
      (if id ∈ index.entities then 1 else 0) + (index.duplicates.map (·.id)).count id := by
  rw [elements, List.map_append, List.count_append, h.map_id_all]
  congr 1
  have hnodup : index.sortedIds.Nodup := h.ids_sorted.imp fun hlt => ne_of_lt hlt
  by_cases hknown : id ∈ index.entities
  · rw [if_pos hknown, List.count_eq_one_of_mem hnodup ((h.ids_mem id).2 hknown)]
  · rw [if_neg hknown, List.count_eq_zero.2 fun hmem => hknown ((h.ids_mem id).1 hmem)]

/-- **Which ids are reported**: those of at least two elements, with the number of these elements. -/
theorem Consistent.repeatedId_mem_violations_iff (h : index.Consistent) {n : Nat} :
    .repeatedId id n ∈ index.violations ↔
      2 ≤ n ∧ (index.elements.map (·.id)).count id = n := by
  have hreported : .repeatedId id n ∈ index.violations ↔
      ∃ k, index.duplicateCounts[id]? = some k ∧ n = k + 1 := by
    simp only [violations, List.mem_append, List.mem_map, reduceCtorEq, and_false, exists_false,
      false_or, Violation.repeatedId.injEq, Prod.exists, Std.ExtTreeMap.mem_toList_iff_getElem?_eq_some]
    constructor
    · rintro ⟨_, k, hk, rfl, rfl⟩
      exact ⟨k, hk, rfl⟩
    · rintro ⟨k, hk, rfl⟩
      exact ⟨id, k, hk, rfl, rfl⟩
  rw [hreported, getElem?_duplicateCounts, h.count_id]
  by_cases hmem : id ∈ index.duplicates.map (·.id)
  · obtain ⟨d, hd, rfl⟩ := List.mem_map.1 hmem
    have hpos := List.count_pos_iff.2 hmem
    rw [if_pos hmem, if_pos (h.duplicate_known d hd)]
    constructor
    · rintro ⟨_, hk, rfl⟩
      obtain rfl := Option.some.inj hk
      omega
    · intro hcount
      exact ⟨_, rfl, by omega⟩
  · rw [if_neg hmem, List.count_eq_zero.2 hmem]
    constructor
    · rintro ⟨_, hk, _⟩
      cases hk
    · intro hcount
      split at hcount <;> omega

/-! ## Ids and elements -/

/-- What the ids in an index tell about the coded elements of its document. -/
structure IdsTell (index : EntityIndex) (elements : List CodedElement) : Prop where
  shared_iff : ∀ a ∈ elements, ∀ b ∈ elements, a.id = b.id ↔
    (a.type = b.type ∧ a.code = b.code) ∨ Entity.Extends a.type a.code b.type b.code ∨
      Entity.Extends b.type b.code a.type a.code
  displaced : ∀ d ∈ index.duplicates, ∃ e, index.get? d.id = some e ∧
    (e.type = d.type ↔ colons e.type = colons d.type)
  reported_iff : ∀ id n, .repeatedId id n ∈ index.violations ↔
    2 ≤ n ∧ (elements.map (·.id)).count id = n
  named_iff : ∀ c ∈ elements, Violation.splitId c.id = (c.type, c.code) ↔ ':' ∉ c.type.toList
  worded : ∀ c ∈ elements, ':' ∉ c.type.toList → ∀ n, Violation.message (.repeatedId c.id n) =
    s!"duplicate code '{c.code}' for type '{c.type}' ({n} elements share id {c.id})"

/-- **What ids tell.**  Two coded elements have one id just in case they have one type and one code, or the
type of one goes on with the front of the other's code; a duplicate has the type of the entity that
displaces it just in case both types have equally many colons; and the message about an id counts the
elements that have it, and names the type and the code of just those whose type has no colon. -/
theorem ids_tell (h : build octets sourceFile revision = .ok index) :
    ∃ content, Xml.HasContent octets content ∧ index.IdsTell (codedElements content) := by
  obtain ⟨hconsistent, content, hcontent, elements, hperm, hdescribed⟩ := exists_described h
  refine ⟨content, hcontent, ?_⟩
  constructor
  case shared_iff => exact fun a _ b _ => Entity.idOf_eq_iff
  case displaced =>
    intro d hd
    obtain ⟨e, hfound⟩ := mem_entities_iff.1 (hconsistent.duplicate_known d hd)
    have hid : e.id = d.id := hconsistent.id_eq d.id e hfound
    have he : e ∈ index.elements :=
      List.mem_append_left _ ((mem_all_iff hconsistent).2 (hid ▸ hfound))
    obtain ⟨a, _, ha⟩ := exists_of_mem_left hdescribed he
    obtain ⟨b, _, hb⟩ := exists_of_mem_left hdescribed (List.mem_append_right _ hd)
    have hsame : Entity.idOf a.type a.code = Entity.idOf b.type b.code := by
      rw [← CodedElement.id, ← CodedElement.id, ← ha.id_eq, ← hb.id_eq, hid]
    refine ⟨e, hfound, ?_⟩
    rw [ha.type_eq, hb.type_eq]
    exact Entity.type_eq_iff_of_idOf_eq hsame
  case reported_iff =>
    intro id n
    have hids : index.elements.map (·.id) = elements.map (·.id) := by
      rw [← List.forall₂_eq_eq_eq, List.forall₂_map_left_iff, List.forall₂_map_right_iff]
      exact hdescribed.imp fun _ _ => Entity.Describes.id_eq
    rw [hconsistent.repeatedId_mem_violations_iff, hids, (hperm.map _).count_eq]
  case named_iff => exact fun c _ => Violation.splitId_idOf_iff
  case worded =>
    intro c _ hcolon n
    rw [Violation.message_repeatedId, CodedElement.id, Violation.splitId_idOf_iff.2 hcolon]

/-- One code three times, twice on elements of one type. -/
theorem ids_tell_repeated :
    ∃ index content, build (Utf8.encode "<r><a code='1'/><b code='1'/><a code='1'/></r>") "f" "v" =
        .ok index ∧
      Xml.HasContent (Utf8.encode "<r><a code='1'/><b code='1'/><a code='1'/></r>") content ∧
      index.violations = [.repeatedId "a:1" 2] ∧
      ((codedElements content).map (·.id)).count "a:1" = 2 := by
  have hbuilt : (build (Utf8.encode "<r><a code='1'/><b code='1'/><a code='1'/></r>") "f"
      "v").toOption.map (·.violations) = some [.repeatedId "a:1" 2] := by
    decide +kernel
  obtain ⟨index, hbuild, hviolations⟩ := exists_build_of_map hbuilt
  obtain ⟨content, hcontent, htell⟩ := ids_tell hbuild
  refine ⟨index, content, hbuild, hcontent, hviolations, ?_⟩
  have hreported : Violation.repeatedId "a:1" 2 ∈ index.violations := by
    rw [hviolations]
    exact List.mem_singleton_self _
  exact ((htell.reported_iff "a:1" 2).1 hreported).2

/-- **A type with a colon** and a code with the same colon: two elements of different types have one id,
the second is displaced, and the message tells of two elements of the type of the second. -/
theorem id_of_colon_in_type :
    ∃ index e d, build (Utf8.encode "<r><x:a:b code='c'/><a code='b:c'/></r>") "f" "v" = .ok index ∧
      index.get? "a:b:c" = some e ∧ e.type = "a:b" ∧ e.code = "c" ∧
      index.duplicates = [d] ∧ d.id = "a:b:c" ∧ d.type = "a" ∧ d.code = "b:c" ∧
      index.violations.map Violation.message =
        ["duplicate code 'b:c' for type 'a' (2 elements share id a:b:c)"] := by
  have hbuilt : (build (Utf8.encode "<r><x:a:b code='c'/><a code='b:c'/></r>") "f"
      "v").toOption.map (fun index =>
        ((index.get? "a:b:c").map fun e => (e.type, e.code),
          index.duplicates.map fun d => (d.id, d.type, d.code),
          index.violations.map Violation.message)) =
      some (some ("a:b", "c"), [("a:b:c", "a", "b:c")],
        ["duplicate code 'b:c' for type 'a' (2 elements share id a:b:c)"]) := by
    decide +kernel
  obtain ⟨index, hbuild, hshown⟩ := exists_build_of_map hbuilt
  simp only [Prod.mk.injEq] at hshown
  obtain ⟨hentity, hduplicates, hmessages⟩ := hshown
  obtain ⟨e, hfound, he⟩ := Option.map_eq_some_iff.1 hentity
  obtain ⟨d, hdisplaced, hd⟩ := List.map_eq_singleton_iff.1 hduplicates
  simp only [Prod.mk.injEq] at he hd
  exact ⟨index, e, d, hbuild, hfound, he.1, he.2, hdisplaced, hd.1, hd.2.1, hd.2.2, hmessages⟩

end EntityIndex

end RegistryGraph
