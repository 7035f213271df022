import Mathlib.Data.List.Forall2
import Mathlib.Data.List.Perm.Basic
import RegistryGraph.Index.Uniqueness
import RegistryGraph.Proofs.Index.Descent

/-!
# The coded elements of a document

`Walk.codedElements` lists the coded elements of a document in document order.  Each of them ends up in
the index of the document, as an entity or as a duplicate, and nothing else does: the elements of an
index are the coded elements of its document in another order.

* `Walk.forall₂_records`: the records of a document, one for each coded element.
* `Entity.Describes.code_eq`: the code of a record is the code of its element and what is added to it.
* `EntityIndex.exists_described`: the elements of an index.
-/

namespace RegistryGraph

section Forall₂

variable {α β : Type} {R : α → β → Prop} {xs : List α} {ys : List β}

/-- What stands on the left of related lists has a partner on the right. -/
theorem exists_of_mem_left (h : List.Forall₂ R xs ys) {x : α} (hx : x ∈ xs) :
    ∃ y ∈ ys, R x y := by
  induction h with
  | nil => cases hx
  | @cons a b _ _ hab _ ih =>
      rcases List.mem_cons.1 hx with rfl | hx
      · exact ⟨b, List.mem_cons_self, hab⟩
      · obtain ⟨y, hy, hxy⟩ := ih hx
        exact ⟨y, List.mem_cons_of_mem b hy, hxy⟩

/-- What stands on the right of related lists has a partner on the left. -/
theorem exists_of_mem_right (h : List.Forall₂ R xs ys) {y : β} (hy : y ∈ ys) :
    ∃ x ∈ xs, R x y :=
  exists_of_mem_left h.flip hy

end Forall₂

namespace Walk

open Xml (AttributePair Content)

/-- A coded element of a document. -/
structure CodedElement where
  /-- The local name. -/
  type : String
  code : String
  attributes : List AttributePair
  inner : Content
  coded : code? attributes = some code

namespace CodedElement

/-- The id that a coded element gets from its start tag. -/
def id (c : CodedElement) : String := Entity.idOf c.type c.code

/-- What the uncoded elements named `code` say whose innermost coded element is this one. -/
def addedCodes (c : CodedElement) : List String := textsUnder (sayings c.inner) Entity.codeKey

/-- The record of a coded element inside the entity `parentId`. -/
def recordIn (parentId : String) (c : CodedElement) : Entity :=
  record parentId c.type c.code c.attributes c.inner

end CodedElement

/-- The coded elements of a content in document order. -/
def codedElements : Content → List CodedElement
  | .nil => []
  | .text _ rest => codedElements rest
  | .element name attributes inner rest =>
    match h : code? attributes with
    | none => codedElements inner ++ codedElements rest
    | some code =>
      ⟨name, code, attributes, inner, h⟩ :: (codedElements inner ++ codedElements rest)

/-- An element without a code adds nothing to the coded elements within it and behind it. -/
theorem codedElements_of_uncoded {name : String} {attributes : List AttributePair}
    (h : code? attributes = none) (inner rest : Content) :
    codedElements (.element name attributes inner rest) =
      codedElements inner ++ codedElements rest := by
  rw [codedElements]
  split
  next => rfl
  next code hcode => exact absurd (h.symm.trans hcode) (Option.some_ne_none code).symm

/-- A coded element comes before those within it, and these before those behind it. -/
theorem codedElements_of_coded {name code : String} {attributes : List AttributePair}
    (h : code? attributes = some code) (inner rest : Content) :
    codedElements (.element name attributes inner rest) =
      ⟨name, code, attributes, inner, h⟩ :: (codedElements inner ++ codedElements rest) := by
  rw [codedElements]
  split
  next hnone => exact absurd (hnone.symm.trans h) (Option.some_ne_none code).symm
  next code' hcode =>
    obtain rfl := Option.some.inj (h.symm.trans hcode)
    rfl

/-- Every coded element has its record, at its place in the document. -/
theorem forall₂_records (outer : String) (content : Content) :
    List.Forall₂ (fun r c => ∃ parentId, r = CodedElement.recordIn parentId c)
      (records outer content) (codedElements content) := by
  induction content generalizing outer with
  | nil => exact .nil
  | text chunk rest ih => exact ih outer
  | element name attributes inner rest ihInner ihRest =>
      rw [records]
      cases hcode : code? attributes with
      | none =>
          rw [codedElements_of_uncoded hcode]
          exact List.rel_append (ihInner outer) (ihRest outer)
      | some code =>
          rw [codedElements_of_coded hcode]
          exact .cons ⟨outer, rfl⟩ (List.rel_append (ihInner _) (ihRest outer))

/-- What a record says under a key: the value from its element, joined with the texts. -/
theorem getElem?_attributeTable (pairs : List AttributePair) {texts : List (String × String)}
    (htexts : ∀ t ∈ texts, t.2 ≠ "") (key : String) :
    (attributeTable pairs texts)[key]? = joined? (value? pairs key) (textsUnder texts key) := by
  let draft : Entity := ⟨"", "", "", "", Keyed.ofPairs pairs, []⟩
  have hreceived : (receive texts draft).attributes = attributeTable pairs texts :=
    attributes_receive htexts rfl
  rw [← hreceived, attribute?_receive htexts]
  exact congrArg (joined? · (textsUnder texts key)) (Keyed.getElem?_ofPairs pairs key)

end Walk

open Walk

/-- The entity holds what the element says; which children it has is told by other elements. -/
def Entity.Describes (e : Entity) (c : CodedElement) : Prop :=
  ∃ parentId children, e = { c.recordIn parentId with children }

namespace Entity.Describes

variable {e : Entity} {c : CodedElement}

/-- An entity has the type of the element that it describes. -/
theorem type_eq (h : e.Describes c) : e.type = c.type := by
  obtain ⟨_, _, rfl⟩ := h
  rfl

/-- An entity has the id of the element that it describes. -/
theorem id_eq (h : e.Describes c) : e.id = c.id := by
  obtain ⟨_, _, rfl⟩ := h
  rfl

/-- **What becomes of a code.**  The code of a record is the code of its element, followed by what the
uncoded elements named `code` add to it. -/
theorem code_eq (h : e.Describes c) :
    e.code = ", ".intercalate ([c.code].filter (· ≠ "") ++ c.addedCodes) := by
  obtain ⟨_, _, rfl⟩ := h
  have htable := getElem?_attributeTable c.attributes (sayings_ne_empty c.inner) Entity.codeKey
  have hvalue : value? c.attributes Entity.codeKey = some c.code := c.coded
  rw [hvalue, joined?, if_neg (fun h => Option.some_ne_none _ h.1)] at htable
  exact congrArg (Option.getD · "") htable

end Entity.Describes

/-! ## The elements of an index -/

namespace Records

/-- An entity without its children. -/
def bare (e : Entity) : Entity := { e with children := [] }

/-- An entity without children is bare already. -/
theorem bare_of_childless {e : Entity} (h : e.children = []) : bare e = e := by
  rw [bare, ← h]

/-- Sifting loses nothing. -/
theorem sift_append_sift_perm (seen : List String) (rs : List Entity) :
    (sift false seen rs ++ sift true seen rs).Perm rs := by
  induction rs generalizing seen with
  | nil => exact .nil
  | cons r rest ih =>
      by_cases h : r.id ∈ seen
      · simp only [sift, h, decide_true, Bool.true_eq_false, if_false, if_true]
        exact List.perm_middle.trans ((ih _).cons r)
      · simp only [sift, h, decide_false, Bool.false_eq_true, if_false, if_true]
        exact (ih _).cons r

end Records

namespace EntityIndex

open Records

variable {octets : Octets} {sourceFile revision : String} {index : EntityIndex}

/-- A document has an index if something can be computed from its index. -/
theorem exists_build_of_map {α : Type} {f : EntityIndex → α} {a : α}
    (h : (build octets sourceFile revision).toOption.map f = some a) :
    ∃ index, build octets sourceFile revision = .ok index ∧ f index = a := by
  obtain ⟨index, hbuild, hvalue⟩ := Option.map_eq_some_iff.1 h
  cases hresult : build octets sourceFile revision with
  | error fault =>
      rw [hresult] at hbuild
      cases hbuild
  | ok index' =>
      rw [hresult] at hbuild
      obtain rfl := Option.some.inj hbuild
      exact ⟨index', rfl, hvalue⟩

/-- Every entity is listed under its id. -/
theorem Consistent.map_id_all (h : index.Consistent) : index.all.map (·.id) = index.sortedIds := by
  refine h.map_id_filterMap fun id hid => ?_
  exact mem_entities_iff.1 ((h.ids_mem id).1 hid)

/-- The entities listed are those found under their own ids. -/
theorem mem_all_iff {e : Entity} (h : index.Consistent) :
    e ∈ index.all ↔ index.get? e.id = some e := by
  rw [all, List.mem_filterMap]
  constructor
  · rintro ⟨id, _, hfound⟩
    rwa [h.id_eq id e hfound]
  · intro hfound
    exact ⟨e.id, (h.ids_mem _).2 (mem_entities_iff.2 ⟨e, hfound⟩), hfound⟩

/-- No two of the entities listed share an id. -/
theorem Consistent.nodup_map_id_all (h : index.Consistent) : (index.all.map (·.id)).Nodup := by
  rw [h.map_id_all]
  exact h.ids_sorted.imp fun hlt => ne_of_lt hlt

/-- The entities, less their children, are the first records. -/
theorem map_bare_all_perm {rs : List Entity} (hbare : ∀ r ∈ rs, bare r = r)
    (hindex : (ofRecords rs sourceFile revision).Consistent) :
    ((ofRecords rs sourceFile revision).all.map bare).Perm (firsts rs) := by
  have hids := hindex.nodup_map_id_all
  have hnodup : ((ofRecords rs sourceFile revision).all.map bare).Nodup := by
    refine List.Nodup.of_map (·.id) ?_
    rwa [List.map_map]
  refine (List.perm_ext_iff_of_nodup hnodup (nodup_ids_sift_false [] rs).of_map).2 fun r => ?_
  rw [List.mem_map, ← firsts, mem_firsts_iff]
  constructor
  · rintro ⟨e, he, rfl⟩
    have hfound := (mem_all_iff hindex).1 he
    rw [get?_ofRecords] at hfound
    obtain ⟨r, hfind, heq⟩ := entity?_eq_some_iff.1 hfound
    have hr : bare e = r := by
      rw [heq]
      exact hbare r (List.mem_of_find?_eq_some hfind)
    have hid : r.id = e.id := by rw [← hr]; rfl
    rw [hr, hid, hfind]
  · intro hfind
    let e : Entity := { r with children := childIds rs r.id }
    have hfound : (ofRecords rs sourceFile revision).get? r.id = some e :=
      (get?_ofRecords rs r.id).trans (entity?_eq_some_iff.2 ⟨r, hfind, rfl⟩)
    refine ⟨e, (mem_all_iff hindex).2 hfound, ?_⟩
    exact hbare r (List.mem_of_find?_eq_some hfind)

/-- A record has no children yet. -/
theorem bare_of_mem_records {content : Xml.Content} {r : Entity} (hr : r ∈ records "" content) :
    bare r = r := by
  obtain ⟨c, _, parentId, rfl⟩ := exists_of_mem_left (forall₂_records "" content) hr
  have hchildless : (c.recordIn parentId).children = [] := rfl
  exact bare_of_childless hchildless

/-- The elements of the index of a document, less their children, are its records. -/
theorem map_bare_elements_perm (content : Xml.Content) (sourceFile revision : String) :
    ((Walk.index content sourceFile revision).elements.map bare).Perm (records "" content) := by
  have hduplicates : (repeats (records "" content)).map bare = repeats (records "" content) :=
    List.map_congr_left (fun r hr => bare_of_mem_records (mem_of_mem_sift hr)) |>.trans
      (List.map_id _)
  rw [elements, List.map_append]
  have hall := map_bare_all_perm (fun _ => bare_of_mem_records)
    (consistent_index content sourceFile revision)
  refine (hall.append (.of_eq hduplicates)).trans ?_
  exact sift_append_sift_perm [] (records "" content)

/-- **The elements of an index**, which is consistent, are the coded elements of its document, in
another order. -/
theorem exists_described (h : build octets sourceFile revision = .ok index) :
    index.Consistent ∧ ∃ content, Xml.HasContent octets content ∧
      ∃ elements, elements.Perm (codedElements content) ∧
        List.Forall₂ Entity.Describes index.elements elements := by
  obtain ⟨content, hcontent, rfl⟩ := IndexBuilder.exists_hasContent_of_build h
  obtain ⟨elements, hdescribed, hperm⟩ := List.perm_comp_forall₂
    (map_bare_elements_perm content sourceFile revision) (forall₂_records "" content)
  refine ⟨consistent_index content sourceFile revision, content, hcontent, elements, hperm, ?_⟩
  refine (List.forall₂_map_left_iff.1 hdescribed).imp ?_
  rintro e c ⟨parentId, heq⟩
  refine ⟨parentId, e.children, ?_⟩
  rw [← heq]
  rfl

end EntityIndex

end RegistryGraph
