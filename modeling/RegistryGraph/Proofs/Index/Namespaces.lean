import RegistryGraph.Proofs.Validation.Alarms
import RegistryGraph.Proofs.Xml.Prefixes

/-!
# Namespaces

The builder sees the local parts of names and skips the declarations of namespaces.  So two documents that
differ in prefixes and declarations only have the same index and the same report.
-/

namespace RegistryGraph

open Xml (Document Reading TagSpelling)

namespace IndexBuilder

/-- The attributes of a tag are decoded under their local names. -/
theorem decodeAttributes_of_requalifies {t t' : TagSpelling} (h : t.tag.Requalifies t'.tag) :
    decodeAttributes t.tag = decodeAttributes t'.tag := by
  have hlocal : ∀ t : Xml.Tag, (t.attributes.list.filter (!·.isNamespace)).mapM (fun a =>
      (Xml.Reference.decode a.value).map (Xml.localName a.key, ·)) = t.localAttributes.mapM
        (fun p => (Xml.Reference.decode p.2).map (Utf8.decodeLossy p.1, ·)) := fun t => by
    rw [Xml.Tag.localAttributes, List.mapM_map]
    rfl
  have hfault : t.tag.attributes.fault = t'.tag.attributes.fault := by
    rw [t.attributes_tag, t'.attributes_tag]
  unfold decodeAttributes
  dsimp only
  rw [hlocal, hlocal, h.attributes, hfault]

/-- **The builder takes one event as the other**, if they differ in prefixes and declarations. -/
theorem step_of_requalifies {e e' : Xml.Event} (h : e.Requalifies e') (b : IndexBuilder) :
    b.step e = b.step e' := by
  cases h with
  | refl => rfl
  | start h | empty h =>
      rw [step, step, decodeAttributes_of_requalifies h, Xml.localName, Xml.localName, h.name]

/-- **It takes one document as the other.** -/
theorem after?_of_requalifies {events events' : List Xml.Event}
    (h : List.Forall₂ Xml.Event.Requalifies events events') (b : IndexBuilder) :
    b.after? events = b.after? events' := by
  induction h generalizing b with
  | nil => rfl
  | cons he _ ih => simp only [after?, step_of_requalifies he, ih]

end IndexBuilder

namespace Xml

/-- Other prefixes make the same events begin elements. -/
theorem Event.Requalifies.makesElement_eq {e e' : Event} (h : e.Requalifies e') :
    e.makesElement = e'.makesElement := by
  cases h <;> rfl

/-- The names in a document can stand in tags. -/
def HasPlainNames (octets : Octets) : Prop :=
  ∀ e ∈ (Reading.ofOctets octets).bareEvents, e.IsPlain

instance (octets : Octets) : Decidable (HasPlainNames octets) :=
  inferInstanceAs (Decidable (∀ e ∈ (Reading.ofOctets octets).bareEvents, _))

/-- Both documents have an element, or neither has. -/
theorem Document.Requalifies.hasElement_iff {d d' : Document} (h : d.Requalifies d')
    (hcomplete : (Reading.ofOctets d.octets).IsComplete) :
    HasElement d.octets ↔ HasElement d'.octets := by
  obtain ⟨_, hevents⟩ := Document.exists_events h hcomplete
  constructor
  · rintro ⟨e, he, helement⟩
    obtain ⟨e', he', hrelated⟩ := exists_of_mem_left hevents he
    exact ⟨e', he', hrelated.makesElement_eq ▸ helement⟩
  · rintro ⟨e', he', helement⟩
    obtain ⟨e, he, hrelated⟩ := exists_of_mem_right hevents he'
    exact ⟨e, he, hrelated.makesElement_eq ▸ helement⟩

end Xml

namespace EntityIndex

variable {octets : Octets} {sourceFile revision : String} {index : EntityIndex}

/-- The index does not depend on prefixes and declarations. -/
theorem build_of_requalifies {d d' : Document} (h : d.Requalifies d')
    (hbuild : build d.octets sourceFile revision = .ok index) :
    build d'.octets sourceFile revision = .ok index := by
  obtain ⟨hcomplete, b, hafter, hrest⟩ := IndexBuilder.build_eq_ok_iff_after?.1 hbuild
  obtain ⟨hcomplete', hevents⟩ := Document.exists_events h hcomplete
  rw [IndexBuilder.after?_of_requalifies hevents] at hafter
  exact IndexBuilder.build_eq_ok_iff_after?.2 ⟨hcomplete', b, hafter, hrest⟩

end EntityIndex

namespace ValidationReport

/-- The report does not depend on prefixes. -/
theorem ofOctets_of_requalifies {d d' : Document} (h : d.Requalifies d') {file revision : String}
    {index : EntityIndex} (hbuild : EntityIndex.build d.octets file revision = .ok index) (path : String) :
    ofOctets d'.octets path = ofOctets d.octets path := by
  have hbuild' := EntityIndex.build_of_requalifies h hbuild
  have hcomplete := (IndexBuilder.build_eq_ok_iff_after?.1 hbuild).1
  have herror : (ofOctets d'.octets path).error = (ofOctets d.octets path).error := by
    rw [error_of_build hbuild, error_of_build hbuild']
    exact if_congr (h.hasElement_iff hcomplete).symm rfl rfl
  have hstats : (ofOctets d'.octets path).stats = (ofOctets d.octets path).stats := by
    rw [stats_of_build hbuild, stats_of_build hbuild']
  calc ofOctets d'.octets path
      = ⟨path, (ofOctets d'.octets path).error, (ofOctets d'.octets path).stats⟩ := rfl
    _ = ofOctets d.octets path := by
        rw [herror, hstats]
        rfl

end ValidationReport

/-! ## Documents that are accepted -/

namespace Xml

/-- An element with an `x` in an element. -/
def Document.nested (outer inner : TagSpelling) (houter : outer.tag.IsPlain) (hinner : inner.tag.IsPlain) :
    Document where
  marked := false
  pieces := [⟨[], by decide, .start outer houter⟩, ⟨[], by decide, .start inner hinner⟩,
    ⟨[0x78], by decide, .close inner.name [] (inner.name_tag ▸ hinner.name) (by decide)⟩,
    ⟨[], by decide, .close outer.name [] (outer.name_tag ▸ houter.name) (by decide)⟩]
  tail := []
  isText := by decide
  unmarked _ := by simp [Xml.frontRun, Xml.Lexed.byteOrderMark]

/-- Two nested elements requalify if each of their tags does. -/
theorem Document.nested_requalifies {outer outer' inner inner' : TagSpelling} {houter hinner houter' hinner'}
    (h : outer.tag.Requalifies outer'.tag) (h' : inner.tag.Requalifies inner'.tag) :
    (nested outer inner houter hinner).Requalifies (nested outer' inner' houter' hinner') where
  marked := rfl
  pieces := .cons rfl (.start h) (.cons rfl (.start h') (.cons rfl .close (.cons rfl .close .nil)))
  tail := rfl

/-- How two nested elements are spelled. -/
theorem Document.octets_nested (outer inner : TagSpelling) (houter hinner) :
    (nested outer inner houter hinner).octets =
      0x3C :: (outer.tag.content ++ 0x3E :: 0x3C :: (inner.tag.content ++ 0x3E :: 0x78 :: 0x3C :: 0x2F ::
        (inner.tag.name ++ 0x3E :: 0x3C :: 0x2F :: (outer.tag.name ++ [0x3E])))) := by
  rw [outer.name_tag, inner.name_tag]
  simp [octets, body, nested, octetsOf, Piece.chunk, Chunk.octets, Markup.octets, TagSpelling.tag]

end Xml

namespace EntityIndex

/-- **Prefixes are transparent.**  A document that is accepted and whose names can stand in tags is spelled as
a `Document`; and however its prefixes and its declarations of namespaces are changed, the index and the report
stay the same. -/
theorem prefixes_transparent {octets : Octets} {sourceFile revision : String} {index : EntityIndex}
    (h : build octets sourceFile revision = .ok index) (hplain : Xml.HasPlainNames octets) :
    (∃ d : Document, d.octets = octets) ∧
      ∀ d d' : Document, d.octets = octets → d.Requalifies d' →
        build d'.octets sourceFile revision = .ok index ∧
          ∀ path, ValidationReport.ofOctets d'.octets path = ValidationReport.ofOctets octets path := by
  constructor
  · obtain ⟨hcomplete, hdecodes, _⟩ := (IndexBuilder.exists_build_iff sourceFile revision).1 ⟨index, h⟩
    exact Xml.exists_document hcomplete fun e he => ⟨hdecodes e he, hplain e he⟩
  · rintro d d' rfl hrequalifies
    exact ⟨build_of_requalifies hrequalifies h, fun path =>
      ValidationReport.ofOctets_of_requalifies hrequalifies h path⟩

/-- Prefixes and declarations are put in. -/
theorem prefixes_transparent_qualified :
    ∃ index, build (Utf8.encode "<r><a code=\"1\">x</a></r>") "f" "v" = .ok index ∧
      build (Utf8.encode "<q:r xmlns:q=\"u\"><q:a xmlns=\"v\" q:code=\"1\">x</q:a></q:r>") "f" "v" =
        .ok index ∧
      ValidationReport.ofOctets
          (Utf8.encode "<q:r xmlns:q=\"u\"><q:a xmlns=\"v\" q:code=\"1\">x</q:a></q:r>") "a.xml" =
        ValidationReport.ofOctets (Utf8.encode "<r><a code=\"1\">x</a></r>") "a.xml" := by
  have hids : (build (Utf8.encode "<r><a code=\"1\">x</a></r>") "f" "v").toOption.map (·.sortedIds) =
      some ["a:1"] := by
    decide +kernel
  obtain ⟨index, hbuild, _⟩ := exists_build_of_map hids
  obtain ⟨outer, houter⟩ := @Xml.Tag.exists_spelling ⟨Utf8.encode "r"⟩ (by decide +kernel)
  obtain ⟨inner, hinner⟩ := @Xml.Tag.exists_spelling ⟨Utf8.encode "a code=\"1\""⟩ (by decide +kernel)
  obtain ⟨outer', houter'⟩ :=
    @Xml.Tag.exists_spelling ⟨Utf8.encode "q:r xmlns:q=\"u\""⟩ (by decide +kernel)
  obtain ⟨inner', hinner'⟩ :=
    @Xml.Tag.exists_spelling ⟨Utf8.encode "q:a xmlns=\"v\" q:code=\"1\""⟩ (by decide +kernel)
  let d : Document := .nested outer inner (by rw [houter]; decide +kernel) (by rw [hinner]; decide +kernel)
  let d' : Document :=
    .nested outer' inner' (by rw [houter']; decide +kernel) (by rw [hinner']; decide +kernel)
  have hbare : d.octets = Utf8.encode "<r><a code=\"1\">x</a></r>" := by
    rw [Document.octets_nested, houter, hinner]
    decide +kernel
  have hqualified : d'.octets =
      Utf8.encode "<q:r xmlns:q=\"u\"><q:a xmlns=\"v\" q:code=\"1\">x</q:a></q:r>" := by
    rw [Document.octets_nested, houter', hinner']
    decide +kernel
  have hrequalifies : d.Requalifies d' :=
    Document.nested_requalifies (by rw [houter, houter']; decide +kernel)
      (by rw [hinner, hinner']; decide +kernel)
  obtain ⟨_, htransparent⟩ := prefixes_transparent hbuild (by decide +kernel)
  obtain ⟨hsame, hreports⟩ := htransparent d d' hbare hrequalifies
  rw [hqualified] at hsame hreports
  exact ⟨index, hbuild, hsame, hreports "a.xml"⟩

/-- Whether a document is accepted. -/
def isAccepted (text : String) : Bool := (build (Utf8.encode text) "f" "v").toOption.isSome

/-- **Other names are not transparent.**  In each line a prefix or a declaration is put in or taken away: a name
that becomes empty or begins like other markup, a slash that becomes the last octet of a tag, an attribute
whose name becomes empty or loses what stood in front of its equals sign, and a quote in a name that meets a
`>`. -/
theorem prefixes_opaque :
    (isAccepted "<p:/>" = true ∧ isAccepted "</>" = false) ∧
    (isAccepted "<p:!a/>" = true ∧ isAccepted "<!a/>" = false) ∧
    (isAccepted "<p:?a/>" = true ∧ isAccepted "<?a/>" = false) ∧
    (isAccepted "<p:/a/>" = true ∧ isAccepted "</a/>" = false) ∧
    (isAccepted "<a/ xmlns='u'></a/>" = true ∧ isAccepted "<a/></a/>" = false) ∧
    (isAccepted "<e p:='x'/>" = true ∧ isAccepted "<e ='x'/>" = false) ∧
    (isAccepted "<e =a='x'/>" = true ∧ isAccepted "<e p:=a='x'/>" = false) ∧
    (isAccepted "<x y'=\"'\" z\"=\"q\"/>" = true ∧
      isAccepted "<x y'=\"'\" xmlns:p=\"a>b\" z\"=\"q\"/>" = false) := by
  decide +kernel

end EntityIndex

end RegistryGraph
