import RegistryGraph.Proofs.Document.Rows
import RegistryGraph.Proofs.Document.Table
import RegistryGraph.Proofs.Index.Elements

/-!
# Codes and the ids formed from them

The id of an element is formed from its code when its start tag is read.  The code itself is an attribute
like any other: an uncoded element named `code` inside it adds its text there, and from then on the record
has another code than the one in its id.

* `Entity.Describes.tellsCode`: what a record tells about the code of its element.
* `EntityIndex.Consistent.mem_all_of_mem_csvRows`: the rows of a table are entities.
* `EntityIndex.id_formed_from_code`: which records, and which rows, have the code of their id.
* `EntityIndex.code_of_nested_code`: an element whose record has another one.
-/

namespace RegistryGraph

open Walk

/-- Ids of one type are equal only if the codes are. -/
theorem Entity.idOf_left_cancel {type code code' : String} :
    Entity.idOf type code = Entity.idOf type code' ↔ code = code' := by
  rw [idOf, idOf, String.append_right_inj]

/-- Nothing that is added to a code leaves it as it is. -/
theorem intercalate_code_eq_iff {code : String} {added : List String} (h : ∀ t ∈ added, t ≠ "") :
    ", ".intercalate ([code].filter (· ≠ "") ++ added) = code ↔ added = [] := by
  cases added with
  | nil => by_cases hcode : code = "" <;> simp [hcode]
  | cons t rest =>
      have ht : t ≠ "" := h t List.mem_cons_self
      rw [iff_false_right (List.cons_ne_nil t rest)]
      intro heq
      by_cases hcode : code = ""
      · subst hcode
        cases rest with
        | nil => exact ht (by simpa using heq)
        | cons u rest => simp at heq
      · have hlength := congrArg String.length heq
        have hcomma : ", ".length = 2 := rfl
        simp [hcode, hcomma] at hlength
        omega

/-- What a record tells about the code of its element. -/
structure Entity.TellsCode (e : Entity) (c : CodedElement) : Prop where
  type_eq : e.type = c.type
  id_eq : e.id = Entity.idOf c.type c.code
  code_eq : e.code = ", ".intercalate ([c.code].filter (· ≠ "") ++ c.addedCodes)
  kept_iff : e.code = c.code ↔ c.addedCodes = []
  formed_iff : e.id = Entity.idOf e.type e.code ↔ c.addedCodes = []

/-- **The code of a record** is that of its element just in case nothing is added to it. -/
theorem Entity.Describes.tellsCode {e : Entity} {c : CodedElement} (h : e.Describes c) :
    e.TellsCode c := by
  have hadded : ∀ t ∈ c.addedCodes, t ≠ "" := by
    intro t ht
    obtain ⟨saying, hsaying, rfl⟩ := List.mem_map.1 ht
    exact sayings_ne_empty c.inner saying (List.mem_filter.1 hsaying).1
  have hkept : e.code = c.code ↔ c.addedCodes = [] := by
    rw [h.code_eq, intercalate_code_eq_iff hadded]
  refine ⟨h.type_eq, h.id_eq, h.code_eq, hkept, ?_⟩
  rw [h.id_eq, h.type_eq, CodedElement.id, Entity.idOf_left_cancel, eq_comm, hkept]

namespace EntityIndex

variable {octets : Octets} {sourceFile revision : String} {index : EntityIndex}

/-- The field of an entity's record in the column with a name. -/
def csvField? (column : String) (e : Entity) : Option String :=
  (csvColumns.zip (csvFields e)).lookup column

/-- What the row of an entity tells about the code of its element. -/
structure RowTellsCode (e : Entity) (c : CodedElement) : Prop where
  type_eq : csvField? "type" e = some c.type
  id_eq : csvField? "id" e = some (Entity.idOf c.type c.code)
  code_iff : csvField? "code" e = some c.code ↔ c.addedCodes = []

/-- The row of an entity tells what its record tells. -/
theorem rowTellsCode {e : Entity} {c : CodedElement} (h : e.TellsCode c) : RowTellsCode e c where
  type_eq := congrArg some h.type_eq
  id_eq := congrArg some h.id_eq
  code_iff := by
    have hfield : csvField? "code" e = some e.code := rfl
    rw [hfield, Option.some.injEq, h.kept_iff]

/-- **The rows of a table are entities**, whatever the filter. -/
theorem Consistent.mem_all_of_mem_csvRows (h : index.Consistent) {filter : DocumentFilter}
    {e : Entity} (he : e ∈ index.csvRows filter) : e ∈ index.all := by
  rw [csvRows, (sortById_perm _).mem_iff, List.mem_filter] at he
  have hscope := he.1
  cases hparent : filter.parent with
  | none => rwa [hparent] at hscope
  | some parent =>
      rw [hparent] at hscope
      dsimp only at hscope
      cases hfound : index.get? parent with
      | none =>
          rw [subtree_of_get?_eq_none hfound] at hscope
          cases hscope
      | some top =>
          obtain rfl := h.id_eq parent top hfound
          exact (mem_all_iff h).2 ((h.mem_subtree_iff hfound).1 hscope).1

/-- **Which records have the code of their id.**  Every record stands for one coded element of the
document, and its id is formed from the code of that element.  A record still has this code, and its row
in a table shows it beside the id, just in case no uncoded element named `code` says anything inside the
element, unless inside another coded one. -/
theorem id_formed_from_code (h : build octets sourceFile revision = .ok index) :
    ∃ content, Xml.HasContent octets content ∧
      (∃ elements, elements.Perm (codedElements content) ∧
        List.Forall₂ Entity.TellsCode index.elements elements) ∧
      ((∀ e ∈ index.elements, e.id = Entity.idOf e.type e.code) ↔
        ∀ c ∈ codedElements content, c.addedCodes = []) ∧
      ∀ filter,
        index.csv filter = .ok (Csv.text (csvColumns :: (index.csvRows filter).map csvFields)) ∧
          ∀ e ∈ index.csvRows filter, ∃ c ∈ codedElements content, RowTellsCode e c := by
  obtain ⟨hconsistent, content, hcontent, elements, hperm, hdescribed⟩ := exists_described h
  have htells : List.Forall₂ Entity.TellsCode index.elements elements :=
    hdescribed.imp fun _ _ => Entity.Describes.tellsCode
  refine ⟨content, hcontent, ⟨elements, hperm, htells⟩, ⟨?_, ?_⟩, ?_⟩
  · intro hformed c hc
    obtain ⟨e, he, htold⟩ := exists_of_mem_right htells (hperm.mem_iff.2 hc)
    exact htold.formed_iff.1 (hformed e he)
  · intro hnone e he
    obtain ⟨c, hc, htold⟩ := exists_of_mem_left htells he
    exact htold.formed_iff.2 (hnone c (hperm.mem_iff.1 hc))
  · intro filter
    refine ⟨csv_eq index filter, fun e he => ?_⟩
    have hall : e ∈ index.elements :=
      List.mem_append_left _ (hconsistent.mem_all_of_mem_csvRows he)
    obtain ⟨c, hc, htold⟩ := exists_of_mem_left htells hall
    exact ⟨c, hperm.mem_iff.1 hc, rowTellsCode htold⟩

/-- An element inside which nothing is named `code`. -/
theorem id_formed_from_code_plain :
    ∃ index content, build (Utf8.encode "<r><org code='1'><n>x</n></org></r>") "f" "v" =
        .ok index ∧
      Xml.HasContent (Utf8.encode "<r><org code='1'><n>x</n></org></r>") content ∧
      index.elements.map (fun e => (e.id, e.type, e.code)) = [("org:1", "org", "1")] ∧
      ∀ c ∈ codedElements content, c.addedCodes = [] := by
  have hbuilt : (build (Utf8.encode "<r><org code='1'><n>x</n></org></r>") "f" "v").toOption.map
      (fun index => index.elements.map fun e => (e.id, e.type, e.code)) =
        some [("org:1", "org", "1")] := by
    decide +kernel
  obtain ⟨index, hbuild, htold⟩ := exists_build_of_map hbuilt
  obtain ⟨content, hcontent, _, hiff, _⟩ := id_formed_from_code hbuild
  refine ⟨index, content, hbuild, hcontent, htold, hiff.1 fun e he => ?_⟩
  have hmem := List.mem_map_of_mem (f := fun e : Entity => (e.id, e.type, e.code)) he
  rw [htold, List.mem_singleton, Prod.mk.injEq, Prod.mk.injEq] at hmem
  obtain ⟨hid, htype, hcode⟩ := hmem
  rw [hid, htype, hcode]
  decide

/-- **An element with a child named `code`** has another code in the end than its id was formed from,
also in its row of the table. -/
theorem code_of_nested_code :
    ∃ index e, build (Utf8.encode "<r><org code='1'><code>2</code></org></r>") "f" "v" =
        .ok index ∧
      e ∈ index.elements ∧ e.id = "org:1" ∧ e.type = "org" ∧ e.code = "1, 2" ∧
      e.id ≠ Entity.idOf e.type e.code ∧
      index.csv ⟨none, none⟩ =
        .ok "type,id,name,parent_id,code,nmr,docPrefix\norg,org:1,,,\"1, 2\",,\n" := by
  have hbuilt : (build (Utf8.encode "<r><org code='1'><code>2</code></org></r>") "f"
      "v").toOption.map (fun index => (index.elements.map fun e => (e.id, e.type, e.code),
        (index.csvRows ⟨none, none⟩).map csvFields)) =
      some ([("org:1", "org", "1, 2")], [["org", "org:1", "", "", "1, 2", "", ""]]) := by
    decide +kernel
  obtain ⟨index, hbuild, hshown⟩ := exists_build_of_map hbuilt
  obtain ⟨htold, hrows⟩ := Prod.mk.inj hshown
  obtain ⟨e, helements, he⟩ := List.map_eq_singleton_iff.1 htold
  rw [Prod.mk.injEq, Prod.mk.injEq] at he
  obtain ⟨hid, htype, hcode⟩ := he
  refine ⟨index, e, hbuild, ?_, hid, htype, hcode, ?_, ?_⟩
  · rw [helements]
    exact List.mem_singleton_self e
  · rw [hid, htype, hcode]
    decide
  · rw [csv_eq, hrows]
    decide +kernel

end EntityIndex

end RegistryGraph
