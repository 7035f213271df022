import RegistryGraph.Proofs.Index.DocumentOrder
import RegistryGraph.Proofs.Text.Utf8
import RegistryGraph.Proofs.Xml.Spelling

/-!
# Names without blanks

A blank ends the name of an element and the key of an attribute.  So whatever the values of a document hold,
the types of its entities and the keys of their attributes hold no blank, and no line break in particular.

* `Xml.Content.Reads.namesAre`: the names of a document.
* `EntityIndex.isSolid_of_build`: the types and the keys in its index.
-/

namespace RegistryGraph

/-- A text without the blanks of markup. -/
def IsSolid (s : String) : Prop := ∀ c ∈ s.toList, c ≠ ' ' ∧ c ≠ '\t' ∧ c ≠ '\n' ∧ c ≠ '\r'

namespace Xml

/-- The local part of a name is made of the name's octets. -/
theorem localPart_subset (name : Octets) : localPart name ⊆ name := by
  intro b hb
  unfold localPart at hb
  split at hb
  · exact hb
  · next h =>
      exact (List.dropWhile_suffix _).subset (h ▸ List.mem_cons_of_mem _ hb)

/-- The text of a name without blanks has none either: an ASCII character is read from its own octet. -/
theorem isSolid_localName {name : Octets} (h : ∀ b ∈ name, isBlank b = false) :
    IsSolid (localName name) := by
  have hchar : ∀ c ∈ (localName name).toList, c.toNat < 0x80 →
      isBlank (UInt8.ofNat c.toNat) = false := fun c hc hascii =>
    h _ (localPart_subset name (Utf8.mem_of_mem_decodeLossy hc hascii))
  intro c hc
  refine ⟨?_, ?_, ?_, ?_⟩ <;>
  · rintro rfl
    exact absurd (hchar _ hc (by decide)) (by decide)

/-- A tag's name has no blank in it. -/
theorem Tag.isBlank_of_mem_name {tag : Tag} {b : UInt8} (hb : b ∈ tag.name) : isBlank b = false := by
  simpa using List.mem_takeWhile_imp hb

/-- The keys that a tag shows have no blanks. -/
theorem Tag.Shows.isSolid {tag : Tag} {pairs : List AttributePair} (h : tag.Shows pairs) :
    ∀ pair ∈ pairs, IsSolid pair.1 := by
  intro pair hpair
  obtain ⟨a, ha, hkey, _⟩ := exists_of_mem_right h.decoded hpair
  rw [← hkey]
  exact isSolid_localName
    (Tag.isKey_of_mem_attributes h.faultless (List.mem_filter.1 ha).1).solid

/-- All names of elements and of attributes in a content satisfy `p`. -/
def Content.NamesAre (p : String → Prop) : Content → Prop
  | .nil => True
  | .text _ rest => rest.NamesAre p
  | .element name attributes inner rest =>
    p name ∧ (∀ a ∈ attributes, p a.1) ∧ inner.NamesAre p ∧ rest.NamesAre p

/-- **The names of a document** have no blanks. -/
theorem Content.Reads.namesAre {events : List Event} {content : Content}
    (h : Content.Reads events content) : content.NamesAre IsSolid := by
  have hname : ∀ tag : Tag, IsSolid (localName tag.name) := fun tag =>
    isSolid_localName fun _ => Tag.isBlank_of_mem_name
  induction h with
  | nil => trivial
  | text _ _ ih | cdata _ ih => exact ih
  | empty shown _ ih => exact ⟨hname _, shown.isSolid, trivial, ih⟩
  | element shown _ _ ihBody ihTail => exact ⟨hname _, shown.isSolid, ihBody, ihTail⟩

end Xml

namespace Walk

open Xml (Content)

variable {p : String → Prop} {content : Content}

/-- What an element says is said under a name of one of the elements. -/
theorem of_mem_sayings (h : content.NamesAre p) : ∀ saying ∈ sayings content, p saying.1 := by
  induction content with
  | nil => simp [sayings]
  | text chunk rest ih => exact ih h
  | element name attributes inner rest ihInner ihRest =>
      obtain ⟨hname, _, hinner, hrest⟩ := h
      rw [sayings]
      cases code? attributes with
      | some code => exact ihRest hrest
      | none =>
          simp only [List.forall_mem_append]
          refine ⟨⟨ihInner hinner, fun saying hsaying => ?_⟩, ihRest hrest⟩
          simp only [Option.mem_toList, Option.map_eq_some_iff] at hsaying
          obtain ⟨value, _, rfl⟩ := hsaying
          exact hname

/-- The type of a record and the keys of its attributes are names of its document. -/
theorem names_of_mem_records (h : content.NamesAre p) {parentId : String} :
    ∀ e ∈ records parentId content, p e.type ∧ ∀ key ∈ e.attributes, p key := by
  induction content generalizing parentId with
  | nil => simp [records]
  | text chunk rest ih => exact ih h
  | element name attributes inner rest ihInner ihRest =>
      obtain ⟨hname, hkeys, hinner, hrest⟩ := h
      rw [records]
      cases code? attributes with
      | none => exact List.forall_mem_append.2 ⟨ihInner hinner, ihRest hrest⟩
      | some code =>
          simp only [List.forall_mem_cons, List.forall_mem_append]
          refine ⟨⟨hname, fun key hkey => ?_⟩, ihInner hinner, ihRest hrest⟩
          have hlisted : key ∈ attributes.map (·.1) ++ (sayings inner).map (·.1) := by
            by_contra hnot
            have hnone := Keyed.getElem?_tabulate
              (attributes.map (·.1) ++ (sayings inner).map (·.1))
              (fun key => joined? (value? attributes key) (textsUnder (sayings inner) key)) key
            rw [if_neg hnot] at hnone
            exact (getElem?_eq_none_iff _ _).1 hnone hkey
          simp only [List.mem_append, List.mem_map] at hlisted
          rcases hlisted with ⟨a, ha, rfl⟩ | ⟨saying, hsaying, rfl⟩
          · exact hkeys a ha
          · exact of_mem_sayings hinner saying hsaying

end Walk

/-- **The names in an index** have no blanks: neither the types of the entities that it finds nor the keys of
their attributes. -/
theorem EntityIndex.isSolid_of_build {octets : Octets} {sourceFile revision : String}
    {index : EntityIndex} (h : build octets sourceFile revision = .ok index) {id : String} {e : Entity}
    (he : index.get? id = some e) : IsSolid e.type ∧ ∀ key ∈ e.attributes, IsSolid key := by
  obtain ⟨content, hcontent, rfl⟩ := IndexBuilder.exists_hasContent_of_build h
  obtain ⟨r, hr, _, rfl⟩ := Walk.exists_of_get?_index he
  exact Walk.names_of_mem_records hcontent.reads.namesAre r (Records.mem_of_mem_sift hr)

end RegistryGraph
