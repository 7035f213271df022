import RegistryGraph.Proofs.Validation.Alarms

/-!
# The top level of a valid document

The check for well-formedness counts the open elements and remembers whether there has been any.  So it knows
that every element is closed, and that at least one stands at the top level, because the first element of a
document is inside no other.  It never looks at what happens while the count is zero: a second element there
passes, and so does text beside the elements.

* `Xml.roots_ne_nil_iff`: a document with an element has one at the top level.
* `ValidationReport.roots_of_valid`: what a report of a valid document says about the top level.
-/

namespace RegistryGraph

namespace Xml

/-- The events behind `depth` open elements that no element encloses. -/
def topLevel (depth : Nat) : List Event → List Event
  | [] => []
  | e :: rest =>
    match e.depthAfter? depth with
    | none => []
    | some next => if depth = 0 then e :: topLevel next rest else topLevel next rest

/-- The elements at the top level, each as the event that begins it. -/
def roots (events : List Event) : List Event := (topLevel 0 events).filter (·.makesElement)

/-- Character data that is nothing but white space, or an event of another kind. -/
def Event.isBlank : Event → Bool
  | .text raw =>
    match Reference.decode raw with
    | .ok s => Text.allBlank s
    | .error _ => false
  | .cdata raw => Text.allBlank (Utf8.decodeLossy raw)
  | .start _ | .empty _ | .close => true

/-- The elements of a document are one element at the top level and what is inside it, and there is nothing
but white space around it. -/
structure HasSingleRoot (octets : Octets) : Prop where
  single : (roots (Reading.ofOctets octets).bareEvents).length = 1
  blank : ∀ e ∈ topLevel 0 (Reading.ofOctets octets).bareEvents, e.isBlank = true

/-- The events at top level are some of the events, in their order. -/
theorem topLevel_sublist (depth : Nat) (events : List Event) :
    (topLevel depth events).Sublist events := by
  induction events generalizing depth with
  | nil => exact .slnil
  | cons e rest ih =>
      rw [topLevel]
      cases e.depthAfter? depth with
      | none => exact List.nil_sublist _
      | some next =>
          dsimp only
          split
          · exact (ih next).cons_cons e
          · exact (ih next).cons e

/-- **The first element is at the top level.**  Up to there no event changes the depth. -/
theorem roots_ne_nil_iff {events : List Event} {depth : Nat}
    (h : depthAfter? 0 events = some depth) :
    roots events ≠ [] ↔ ∃ e ∈ events, e.makesElement = true := by
  constructor
  · intro hne
    obtain ⟨e, he⟩ := List.exists_mem_of_ne_nil _ hne
    obtain ⟨hmem, helement⟩ := List.mem_filter.1 he
    exact ⟨e, (topLevel_sublist 0 events).subset hmem, helement⟩
  · intro hsome
    induction events with
    | nil =>
        obtain ⟨e, he, _⟩ := hsome
        cases he
    | cons e rest ih =>
        rw [depthAfter?] at h
        rw [roots, topLevel]
        cases e with
        | start tag | empty tag => simp [Event.depthAfter?, Event.makesElement]
        | close => simp [Event.depthAfter?] at h
        | text raw | cdata raw =>
            have hrest : ∃ e ∈ rest, e.makesElement = true := by
              simpa [Event.makesElement] using hsome
            simpa [Event.depthAfter?, Event.makesElement, roots] using ih h hrest

end Xml

namespace ValidationReport

open Xml (roots topLevel)

/-- A document is valid exactly if it is read to its end, all its events are in form, every element
is closed, and there is a root. -/
theorem valid_iff_roots (octets : Octets) (path : String) :
    (ofOctets octets path).valid = true ↔
      (Xml.Reading.ofOctets octets).IsComplete ∧
        (∀ e ∈ (Xml.Reading.ofOctets octets).bareEvents, e.InForm) ∧
          Xml.depthAfter? 0 (Xml.Reading.ofOctets octets).bareEvents = some 0 ∧
            1 ≤ (roots (Xml.Reading.ofOctets octets).bareEvents).length := by
  obtain ⟨depth, hdepth⟩ := Xml.Reading.depthAfter?_ofOctets octets
  rw [valid_iff, WellFormed.check_eq_ok_iff, ← Xml.roots_ne_nil_iff hdepth, ← List.length_pos_iff]
  rfl

/-- **What a valid document has at the top level**: an element at least, and any text whose references
resolve.  So it has a single root just in case there is no second element and no text but white space. -/
theorem roots_of_valid (octets : Octets) (path : String) :
    ((ofOctets octets path).valid = true ↔
      (Xml.Reading.ofOctets octets).IsComplete ∧
        (∀ e ∈ (Xml.Reading.ofOctets octets).bareEvents, e.InForm) ∧
          Xml.depthAfter? 0 (Xml.Reading.ofOctets octets).bareEvents = some 0 ∧
            1 ≤ (roots (Xml.Reading.ofOctets octets).bareEvents).length) ∧
    ((ofOctets octets path).valid = true →
      (Xml.HasSingleRoot octets ↔
        (roots (Xml.Reading.ofOctets octets).bareEvents).length ≤ 1 ∧
          ∀ e ∈ topLevel 0 (Xml.Reading.ofOctets octets).bareEvents, e.isBlank = true)) := by
  refine ⟨valid_iff_roots octets path, fun h => ?_⟩
  obtain ⟨_, _, _, hsome⟩ := (valid_iff_roots octets path).1 h
  constructor
  · intro hsingle
    exact ⟨hsingle.single.le, hsingle.blank⟩
  · rintro ⟨hone, hblank⟩
    exact ⟨Nat.le_antisymm hone hsome, hblank⟩

/-- A document with blanks and a comment around its root. -/
theorem roots_of_valid_framed :
    (ofOctets (Utf8.encode "\n<!-- a --> <r>x<a/></r>\n") "a.xml").valid = true ∧
      Xml.HasSingleRoot (Utf8.encode "\n<!-- a --> <r>x<a/></r>\n") := by
  have hvalid : (ofOctets (Utf8.encode "\n<!-- a --> <r>x<a/></r>\n") "a.xml").valid = true := by
    decide +kernel
  exact ⟨hvalid, ((roots_of_valid _ "a.xml").2 hvalid).2 (by decide +kernel)⟩

/-- **Valid documents without a single root**: two elements at the top level, and text beside one. -/
theorem valid_without_single_root :
    ((ofOctets (Utf8.encode "<a/><b/>") "a.xml").valid = true ∧
      (roots (Xml.Reading.ofOctets (Utf8.encode "<a/><b/>")).bareEvents).length = 2 ∧
      ¬Xml.HasSingleRoot (Utf8.encode "<a/><b/>")) ∧
    (ofOctets (Utf8.encode "<a/>x") "a.xml").valid = true ∧
      Xml.Event.text (Utf8.encode "x") ∈
        topLevel 0 (Xml.Reading.ofOctets (Utf8.encode "<a/>x")).bareEvents ∧
      ¬Xml.HasSingleRoot (Utf8.encode "<a/>x") := by
  have htwo : (roots (Xml.Reading.ofOctets (Utf8.encode "<a/><b/>")).bareEvents).length = 2 := by
    decide +kernel
  have htext : Xml.Event.text (Utf8.encode "x") ∈
      topLevel 0 (Xml.Reading.ofOctets (Utf8.encode "<a/>x")).bareEvents := by
    decide +kernel
  refine ⟨⟨by decide +kernel, htwo, fun h => ?_⟩, by decide +kernel, htext, fun h => ?_⟩
  · exact absurd (h.single.symm.trans htwo) (by decide)
  · exact absurd (h.blank _ htext) (by decide +kernel)

end ValidationReport

end RegistryGraph
