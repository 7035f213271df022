import Mathlib.Data.List.Forall2
import RegistryGraph.Proofs.Xml.Nesting

/-!
# The element tree of a document

`Content` is what a document, or one of its elements, contains: character data and elements in document
order, every element with its local name and its attributes as a reader sees them.  The relation
`Content.Reads` says which content a sequence of events describes, without a stack: the events of an
element are its start tag, those of its own content, and its end tag.

The main statements are `exists_reads`, by which every sequence of events that decodes and closes what
it opens describes a content, and `Reads.unique`, by which it describes only one.
-/

namespace RegistryGraph.Xml

/-- An attribute as a reader sees it: a local name and a decoded value. -/
abbrev AttributePair : Type := String × String

/-- Character data and elements in document order. -/
inductive Content where
  | nil
  | text (chunk : String) (rest : Content)
  | element (name : String) (attributes : List AttributePair) (inner rest : Content)

/-- A tag without faults shows the attributes `pairs`: one for each attribute that declares no
namespace, in the order of the tag. -/
structure Tag.Shows (t : Tag) (pairs : List AttributePair) : Prop where
  faultless : t.attributes.fault = none
  decoded : List.Forall₂
    (fun a p => localName a.key = p.1 ∧ Reference.decode a.value = .ok p.2)
    (t.attributes.list.filter (!·.isNamespace)) pairs

/-- An event whose attributes and references are in order. -/
def Event.Decodes : Event → Prop
  | .start tag | .empty tag => ∃ pairs, tag.Shows pairs
  | .text raw => ∃ chunk, Reference.decode raw = .ok chunk
  | .close | .cdata _ => True

/-- A tag shows one list of attributes. -/
theorem Tag.Shows.unique {tag : Tag} {pairs pairs' : List AttributePair} (h : tag.Shows pairs)
    (h' : tag.Shows pairs') : pairs = pairs' := by
  refine Relator.RightUnique.forall₂ ?_ h.decoded h'.decoded
  intro a p q hp hq
  have hvalue : p.2 = q.2 := Except.ok.inj (hp.2.symm.trans hq.2)
  exact Prod.ext (hp.1.symm.trans hq.1) hvalue

namespace Content

/-- The content that a sequence of events describes. -/
inductive Reads : List Event → Content → Prop
  | nil : Reads [] .nil
  | text {raw : Octets} {chunk : String} {events : List Event} {rest : Content}
      (decoded : Reference.decode raw = .ok chunk) (tail : Reads events rest) :
      Reads (.text raw :: events) (.text chunk rest)
  | cdata {raw : Octets} {events : List Event} {rest : Content} (tail : Reads events rest) :
      Reads (.cdata raw :: events) (.text (Utf8.decodeLossy raw) rest)
  | empty {tag : Tag} {pairs : List AttributePair} {events : List Event} {rest : Content}
      (shown : tag.Shows pairs) (tail : Reads events rest) :
      Reads (.empty tag :: events) (.element (localName tag.name) pairs .nil rest)
  | element {tag : Tag} {pairs : List AttributePair} {within events : List Event}
      {inner rest : Content} (shown : tag.Shows pairs) (body : Reads within inner)
      (tail : Reads events rest) :
      Reads (.start tag :: (within ++ .close :: events))
        (.element (localName tag.name) pairs inner rest)

/-- Events that close `depth` elements after some content in each of them. -/
inductive Closes : Nat → List Event → Prop
  | zero {events : List Event} {content : Content} (here : Reads events content) : Closes 0 events
  | succ {depth : Nat} {within events : List Event} {content : Content}
      (here : Reads within content) (outer : Closes depth events) :
      Closes (depth + 1) (within ++ .close :: events)

/-- Whatever goes in front of a content goes in front of the innermost one. -/
theorem Closes.cons {depth : Nat} {events : List Event} {event : Event}
    (h : Closes depth events)
    (grow : ∀ {es content}, Reads es content → ∃ content', Reads (event :: es) content') :
    Closes depth (event :: events) := by
  cases h with
  | zero here =>
      obtain ⟨content', h'⟩ := grow here
      exact .zero h'
  | succ here outer =>
      obtain ⟨content', h'⟩ := grow here
      exact .succ h' outer

/-- A start tag takes the innermost content and its end tag into one element. -/
theorem Closes.start {depth : Nat} {events : List Event} {tag : Tag} {pairs : List AttributePair}
    (h : Closes (depth + 1) events) (shown : tag.Shows pairs) :
    Closes depth (.start tag :: events) := by
  cases h with
  | succ here outer =>
      cases outer with
      | zero there => exact .zero (.element shown here there)
      | succ there outer =>
          have hsucc := Closes.succ (Reads.element shown here there) outer
          simpa using hsucc

/-- Events that decode and leave nothing open close as many elements as were open before. -/
theorem closes_of_depthAfter? {depth : Nat} {events : List Event}
    (hdecodes : ∀ e ∈ events, e.Decodes) (hdepth : depthAfter? depth events = some 0) :
    Closes depth events := by
  induction events generalizing depth with
  | nil =>
      cases hdepth
      exact .zero .nil
  | cons event rest ih =>
      have hrest : ∀ e ∈ rest, e.Decodes := fun e he => hdecodes e (List.mem_cons_of_mem _ he)
      have hevent : event.Decodes := hdecodes event List.mem_cons_self
      rw [depthAfter?] at hdepth
      cases event with
      | start tag =>
          obtain ⟨pairs, shown⟩ := hevent
          exact (ih hrest hdepth).start shown
      | empty tag =>
          obtain ⟨pairs, shown⟩ := hevent
          exact (ih hrest hdepth).cons fun here => ⟨_, .empty shown here⟩
      | text raw =>
          obtain ⟨chunk, decoded⟩ := hevent
          exact (ih hrest hdepth).cons fun here => ⟨_, .text decoded here⟩
      | cdata raw => exact (ih hrest hdepth).cons fun here => ⟨_, .cdata here⟩
      | close =>
          cases depth with
          | zero => simp [Event.depthAfter?] at hdepth
          | succ depth => exact .succ .nil (ih hrest hdepth)

/-- **Every balanced sequence of events has a tree.** -/
theorem exists_reads {events : List Event} (hdecodes : ∀ e ∈ events, e.Decodes)
    (hdepth : depthAfter? 0 events = some 0) : ∃ content, Reads events content := by
  cases closes_of_depthAfter? hdecodes hdepth with
  | zero here => exact ⟨_, here⟩

/-- The first content in front of an end tag ends where its elements are all closed. -/
theorem Reads.unique_before_close {within within' events events' : List Event}
    {content content' : Content} (h : Reads within content) (h' : Reads within' content')
    (heq : within ++ .close :: events = within' ++ .close :: events') :
    content = content' ∧ events = events' := by
  induction h generalizing within' events events' content' with
  | nil =>
      cases h' with
      | nil => exact ⟨rfl, by simpa using heq⟩
      | text | cdata | empty | element => simp at heq
  | text decoded _ ih =>
      cases h' with
      | text decoded' tail' =>
          simp only [List.cons_append, List.cons.injEq, Event.text.injEq] at heq
          obtain ⟨rfl, htail⟩ := heq
          obtain ⟨rfl, hrest⟩ := ih tail' htail
          obtain rfl := Except.ok.inj (decoded.symm.trans decoded')
          exact ⟨rfl, hrest⟩
      | nil | cdata | empty | element => simp at heq
  | cdata _ ih =>
      cases h' with
      | cdata tail' =>
          simp only [List.cons_append, List.cons.injEq, Event.cdata.injEq] at heq
          obtain ⟨rfl, htail⟩ := heq
          obtain ⟨rfl, hrest⟩ := ih tail' htail
          exact ⟨rfl, hrest⟩
      | nil | text | empty | element => simp at heq
  | empty shown _ ih =>
      cases h' with
      | empty shown' tail' =>
          simp only [List.cons_append, List.cons.injEq, Event.empty.injEq] at heq
          obtain ⟨rfl, htail⟩ := heq
          obtain ⟨rfl, hrest⟩ := ih tail' htail
          obtain rfl := shown.unique shown'
          exact ⟨rfl, hrest⟩
      | nil | text | cdata | element => simp at heq
  | element shown _ _ ihBody ihTail =>
      cases h' with
      | element shown' body' tail' =>
          simp only [List.cons_append, List.append_assoc, List.cons.injEq,
            Event.start.injEq] at heq
          obtain ⟨rfl, hinner⟩ := heq
          obtain ⟨rfl, houter⟩ := ihBody body' hinner
          obtain ⟨rfl, hrest⟩ := ihTail tail' houter
          obtain rfl := shown.unique shown'
          exact ⟨rfl, hrest⟩
      | nil | text | cdata | empty => simp at heq

/-- **No sequence of events has two trees.** -/
theorem Reads.unique {events : List Event} {content content' : Content}
    (h : Reads events content) (h' : Reads events content') : content = content' := by
  have hclosed : events ++ .close :: [] = events ++ .close :: [] := rfl
  exact (h.unique_before_close h' hclosed).1

/-- Events that are read to their end have texts that decode. -/
theorem Reads.decodes {events : List Event} {content : Content} (h : Reads events content) :
    ∀ e ∈ events, e.Decodes := by
  induction h with
  | nil => simp
  | text decoded _ ih => simpa using ⟨⟨_, decoded⟩, ih⟩
  | cdata _ ih => simpa [Event.Decodes] using ih
  | empty shown _ ih => simpa using ⟨⟨_, shown⟩, ih⟩
  | element shown _ _ ihBody ihTail =>
      intro e he
      simp only [List.mem_cons, List.mem_append] at he
      rcases he with rfl | he | rfl | he
      · exact ⟨_, shown⟩
      · exact ihBody e he
      · trivial
      · exact ihTail e he

/-- A content leaves no element open. -/
theorem Reads.depthAfter?_eq {events : List Event} {content : Content} (h : Reads events content)
    (depth : Nat) : depthAfter? depth events = some depth := by
  induction h generalizing depth with
  | nil => rfl
  | text _ _ ih | cdata _ ih | empty _ _ ih => exact ih depth
  | element _ _ _ ihBody ihTail =>
      rw [depthAfter?, Event.depthAfter?, Option.bind_some, depthAfter?_append, ihBody,
        Option.bind_some, depthAfter?]
      exact ihTail depth

end Content

/-- The document is read to its end and describes the content. -/
structure HasContent (octets : Octets) (content : Content) : Prop where
  complete : (Reading.ofOctets octets).IsComplete
  reads : Content.Reads (Reading.ofOctets octets).bareEvents content

/-- A document has one content. -/
theorem HasContent.unique {octets : Octets} {content content' : Content}
    (h : HasContent octets content) (h' : HasContent octets content') : content = content' :=
  h.reads.unique h'.reads

/-- The documents with a content: they are read to their end, decode, and close what they open. -/
theorem exists_hasContent_iff {octets : Octets} :
    (∃ content, HasContent octets content) ↔
      (Reading.ofOctets octets).IsComplete ∧
        (∀ e ∈ (Reading.ofOctets octets).bareEvents, e.Decodes) ∧
          depthAfter? 0 (Reading.ofOctets octets).bareEvents = some 0 := by
  constructor
  · intro h
    obtain ⟨content, hcomplete, hreads⟩ := h
    exact ⟨hcomplete, hreads.decodes, hreads.depthAfter?_eq 0⟩
  · intro h
    obtain ⟨hcomplete, hdecodes, hdepth⟩ := h
    obtain ⟨content, hreads⟩ := Content.exists_reads hdecodes hdepth
    exact ⟨content, hcomplete, hreads⟩

end RegistryGraph.Xml
