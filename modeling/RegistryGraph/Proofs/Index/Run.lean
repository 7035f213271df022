import RegistryGraph.Index.Builder
import RegistryGraph.Proofs.Xml.Content

/-!
# Runs of the builder

What a run of the builder does is a matter of the events alone; offsets only tell where a fault is.
`after?` is a run without them.  Whether it goes through does not depend on the builder either, but only
on whether all events decode (`exists_after?_iff`), and its stack has one frame per open element
(`stack_length_after?`).

Together these say which documents have an index (`exists_build_iff`): those that are read to their end,
decode, and close what they open.
-/

namespace RegistryGraph.IndexBuilder

open Xml (AttributePair Event Occurrence)

/-! ## Single events -/

/-- A list is mapped without a fault just in case each of its members is. -/
theorem mapM_eq_ok_iff {α β ε : Type} {f : α → Except ε β} {xs : List α} {ys : List β} :
    xs.mapM f = .ok ys ↔ List.Forall₂ (fun x y => f x = .ok y) xs ys := by
  induction xs generalizing ys with
  | nil => cases ys <;> simp [pure, Except.pure]
  | cons x rest ih =>
      rw [List.mapM_cons]
      cases hx : f x with
      | error fault => cases ys <;> simp [bind, Except.bind, hx]
      | ok y =>
          cases hrest : rest.mapM f with
          | error fault => cases ys <;> simp [bind, Except.bind, ← ih, hrest]
          | ok more => cases ys <;> simp [bind, Except.bind, pure, Except.pure, ← ih, hrest, hx]

/-- An attribute decodes to its local name and its unescaped value. -/
theorem decodePair_eq_ok_iff {a : Xml.Attribute} {p : AttributePair} :
    (Xml.Reference.decode a.value).map (Xml.localName a.key, ·) = .ok p ↔
      Xml.localName a.key = p.1 ∧ Xml.Reference.decode a.value = .ok p.2 := by
  cases Xml.Reference.decode a.value with
  | error fault => simp [Except.map]
  | ok value => simp [Except.map, Prod.ext_iff]

/-- A tag's attributes decode to the table of what the tag shows. -/
theorem decodeAttributes_eq_ok_iff {tag : Xml.Tag} {table : Keyed String} :
    decodeAttributes tag = .ok table ↔ ∃ pairs, tag.Shows pairs ∧ table = Keyed.ofPairs pairs := by
  have hmap : ∀ pairs, (tag.attributes.list.filter (!·.isNamespace)).mapM (fun a =>
      (Xml.Reference.decode a.value).map (Xml.localName a.key, ·)) = .ok pairs ↔
        List.Forall₂
          (fun a p => Xml.localName a.key = p.1 ∧ Xml.Reference.decode a.value = .ok p.2)
          (tag.attributes.list.filter (!·.isNamespace)) pairs := by
    intro pairs
    simp only [mapM_eq_ok_iff, decodePair_eq_ok_iff]
  unfold decodeAttributes
  dsimp only
  constructor
  · intro h
    split at h
    · cases h
    · next found hfound =>
        split at h
        · cases h
        · next hnone =>
            cases h
            exact ⟨found, ⟨hnone, (hmap found).1 hfound⟩, rfl⟩
  · intro h
    obtain ⟨pairs, hshows, rfl⟩ := h
    rw [(hmap pairs).2 hshows.decoded]
    dsimp only
    rw [hshows.faultless]

/-- What taking an event does to a builder. -/
inductive Takes (b : IndexBuilder) : Event → IndexBuilder → Prop
  | start {tag : Xml.Tag} {attributes : Keyed String}
      (decoded : decodeAttributes tag = .ok attributes) :
      Takes b (.start tag) (b.openElement (Xml.localName tag.name) attributes)
  | empty {tag : Xml.Tag} {attributes : Keyed String}
      (decoded : decodeAttributes tag = .ok attributes) :
      Takes b (.empty tag) (b.openElement (Xml.localName tag.name) attributes).closeElement
  | close : Takes b .close b.closeElement
  | text {raw : Octets} {chunk : String} (decoded : Xml.Reference.decode raw = .ok chunk) :
      Takes b (.text raw) (b.addText chunk)
  | cdata {raw : Octets} : Takes b (.cdata raw) (b.addText (Utf8.decodeLossy raw))

/-- A mapped result is a result exactly if it was one before. -/
theorem map_eq_ok_iff {α β ε : Type} {f : α → β} {x : Except ε α} {b : β} :
    x.map f = .ok b ↔ ∃ a, x = .ok a ∧ f a = b := by
  cases x <;> simp [Except.map]

/-- A step that goes through takes its event in one of these ways. -/
theorem step_eq_ok_iff {b b' : IndexBuilder} {event : Event} :
    b.step event = .ok b' ↔ b.Takes event b' := by
  constructor
  · intro h
    cases event with
    | start tag =>
        obtain ⟨attributes, decoded, rfl⟩ := map_eq_ok_iff.1 h
        exact .start decoded
    | empty tag =>
        obtain ⟨attributes, decoded, rfl⟩ := map_eq_ok_iff.1 h
        exact .empty decoded
    | text raw =>
        obtain ⟨chunk, decoded, rfl⟩ := map_eq_ok_iff.1 h
        exact .text decoded
    | close =>
        cases h
        exact .close
    | cdata raw =>
        cases h
        exact .cdata
  · intro h
    cases h with
    | start decoded | empty decoded | text decoded => exact map_eq_ok_iff.2 ⟨_, decoded, rfl⟩
    | close | cdata => rfl

/-- A builder takes an event just in case the event decodes. -/
theorem exists_step_iff (b : IndexBuilder) (event : Event) :
    (∃ b', b.step event = .ok b') ↔ event.Decodes := by
  simp only [step_eq_ok_iff]
  constructor
  · intro hgiven
    obtain ⟨b', h⟩ := hgiven
    cases h with
    | start decoded | empty decoded =>
        obtain ⟨pairs, hshows, _⟩ := decodeAttributes_eq_ok_iff.1 decoded
        exact ⟨pairs, hshows⟩
    | text decoded => exact ⟨_, decoded⟩
    | close | cdata => trivial
  · intro h
    cases event with
    | start tag =>
        obtain ⟨pairs, hshows⟩ := h
        exact ⟨_, .start (decodeAttributes_eq_ok_iff.2 ⟨pairs, hshows, rfl⟩)⟩
    | empty tag =>
        obtain ⟨pairs, hshows⟩ := h
        exact ⟨_, .empty (decodeAttributes_eq_ok_iff.2 ⟨pairs, hshows, rfl⟩)⟩
    | text raw =>
        obtain ⟨chunk, decoded⟩ := h
        exact ⟨_, .text decoded⟩
    | close => exact ⟨_, .close⟩
    | cdata raw => exact ⟨_, .cdata⟩

/-- Opening an element puts one frame on the stack. -/
theorem stack_length_openElement (b : IndexBuilder) (tag : String) (attributes : Keyed String) :
    (b.openElement tag attributes).stack.length = b.stack.length + 1 := by
  unfold openElement
  split <;> rfl

/-- Offering a name keeps the number of frames. -/
theorem stack_length_offerName (value : String) (frames : List Frame) :
    (offerName value frames).length = frames.length := by
  unfold offerName
  split <;> rfl

/-- Closing an element takes one frame off the stack, if there is one. -/
theorem stack_length_closeElement (b : IndexBuilder) :
    b.closeElement.stack.length = b.stack.length - 1 := by
  unfold closeElement
  split
  · next h => simp [h]
  · next h => simp [h]
  · next tag direct text outer h =>
      have houter :
          (if direct && nameTags.contains tag then offerName (Text.trim text) outer
            else outer).length = outer.length := by
        split
        · exact stack_length_offerName ..
        · rfl
      rw [h]
      dsimp only
      split
      · rfl
      · split
        · exact houter
        · exact houter

/-- Text leaves the number of frames as it is. -/
theorem stack_length_addText (b : IndexBuilder) (chunk : String) :
    (b.addText chunk).stack.length = b.stack.length := by
  unfold addText
  split
  · next h => simp [h]
  · rfl

/-- The stack has one frame per open element. -/
theorem stack_length_step {b b' : IndexBuilder} {event : Event} {depth : Nat}
    (h : b.step event = .ok b') (hdepth : event.depthAfter? b.stack.length = some depth) :
    b'.stack.length = depth := by
  cases step_eq_ok_iff.1 h with
  | start =>
      obtain rfl := Option.some.inj hdepth
      exact stack_length_openElement ..
  | empty =>
      obtain rfl := Option.some.inj hdepth
      rw [stack_length_closeElement, stack_length_openElement, Nat.add_sub_cancel]
  | close =>
      rw [stack_length_closeElement]
      simp only [Event.depthAfter?] at hdepth
      split at hdepth
      · cases hdepth
      · exact Option.some.inj hdepth
  | text | cdata =>
      obtain rfl := Option.some.inj hdepth
      exact stack_length_addText ..

/-! ## Sequences of events -/

/-- The builder after some events, if it takes them all. -/
def after? (b : IndexBuilder) : List Event → Option IndexBuilder
  | [] => some b
  | event :: rest => (b.step event).toOption.bind (·.after? rest)

/-- Events are taken one list behind the other. -/
theorem after?_append (b : IndexBuilder) (events more : List Event) :
    b.after? (events ++ more) = (b.after? events).bind (·.after? more) := by
  induction events generalizing b with
  | nil => rfl
  | cons event rest ih =>
      cases hs : b.step event with
      | error fault => simp [after?, hs, Except.toOption]
      | ok b' => simpa [after?, hs, Except.toOption] using ih b'

/-- A step that succeeds is the first of the run. -/
theorem after?_cons_of_step {b b' : IndexBuilder} {event : Event} (h : b.step event = .ok b')
    (rest : List Event) : b.after? (event :: rest) = b'.after? rest := by
  rw [after?, h]
  rfl

/-- A run succeeds if its first step does and the rest from there. -/
theorem after?_cons_eq_some_iff {b b' : IndexBuilder} {event : Event} {rest : List Event} :
    b.after? (event :: rest) = some b' ↔ ∃ next, b.step event = .ok next ∧ next.after? rest = some b' := by
  rw [after?]
  cases b.step event <;> simp [Except.toOption]

/-- Offsets do not matter to a run that goes through. -/
theorem run_eq_ok_iff {b b' : IndexBuilder} {occurrences : List Occurrence} :
    b.run occurrences = .ok b' ↔ b.after? (occurrences.map (·.event)) = some b' := by
  induction occurrences generalizing b with
  | nil => simp [run, after?]
  | cons o rest ih =>
      rw [run, List.map_cons, after?]
      cases hs : b.step o.event with
      | error fault => simp [Except.toOption]
      | ok next => simpa [Except.toOption] using ih

/-- Events are taken to their end exactly if all their texts decode. -/
theorem exists_after?_iff (b : IndexBuilder) (events : List Event) :
    (∃ b', b.after? events = some b') ↔ ∀ e ∈ events, e.Decodes := by
  induction events generalizing b with
  | nil => simp [after?]
  | cons event rest ih =>
      rw [List.forall_mem_cons]
      constructor
      · intro hgiven
        obtain ⟨b', h⟩ := hgiven
        obtain ⟨next, hs, hrest⟩ := after?_cons_eq_some_iff.1 h
        exact ⟨(exists_step_iff b event).1 ⟨next, hs⟩, (ih next).1 ⟨b', hrest⟩⟩
      · intro h
        obtain ⟨hevent, hrest⟩ := h
        obtain ⟨next, hs⟩ := (exists_step_iff b event).2 hevent
        rw [after?_cons_of_step hs]
        exact (ih next).2 hrest

/-- The stack is as high as the events are deep. -/
theorem stack_length_after? {b b' : IndexBuilder} {events : List Event} {depth : Nat}
    (h : b.after? events = some b') (hdepth : Xml.depthAfter? b.stack.length events = some depth) :
    b'.stack.length = depth := by
  induction events generalizing b with
  | nil =>
      cases h
      exact Option.some.inj hdepth
  | cons event rest ih =>
      rw [Xml.depthAfter?] at hdepth
      obtain ⟨next, hnext, hrest⟩ := Option.bind_eq_some_iff.1 hdepth
      obtain ⟨b₁, hs, hafter⟩ := after?_cons_eq_some_iff.1 h
      rw [← stack_length_step hs hnext] at hrest
      exact ih hafter hrest

/-- A beginning of the events of a document has a depth. -/
theorem exists_depthAfter?_of_append {octets : Octets} {seen more : List Xml.Occurrence}
    (h : (Xml.Reading.ofOctets octets).events = seen ++ more) :
    ∃ depth, Xml.depthAfter? 0 (seen.map (·.event)) = some depth := by
  obtain ⟨_, hdepth⟩ := Xml.Reading.depthAfter?_ofOctets octets
  rw [Xml.Reading.bareEvents, h, List.map_append, Xml.depthAfter?_append] at hdepth
  obtain ⟨depth, hseen, _⟩ := Option.bind_eq_some_iff.1 hdepth
  exact ⟨depth, hseen⟩

/-- A document has the index that a run over all of it leaves, if nothing stays open. -/
theorem build_eq_ok_iff_after? {octets : Octets} {sourceFile revision : String}
    {index : EntityIndex} :
    EntityIndex.build octets sourceFile revision = .ok index ↔
      (Xml.Reading.ofOctets octets).IsComplete ∧
        ∃ b, (start sourceFile revision).after? (Xml.Reading.ofOctets octets).bareEvents = some b ∧
          b.stack = [] ∧ b.index = index := by
  constructor
  · intro h
    unfold EntityIndex.build at h
    dsimp only at h
    split at h
    · cases h
    · next b hrun =>
        split at h
        · cases h
        · next position hending =>
            split at h
            · next hstack =>
                cases h
                exact ⟨⟨position, hending⟩, b, run_eq_ok_iff.1 hrun, hstack, rfl⟩
            · cases h
  · intro h
    obtain ⟨⟨position, hending⟩, b, hafter, hstack, rfl⟩ := h
    unfold EntityIndex.build
    dsimp only
    rw [run_eq_ok_iff.2 hafter]
    dsimp only
    rw [hending]
    dsimp only
    rw [hstack]

/-- **Which documents have an index.**  They are read to their end, decode, and close what they
open. -/
theorem exists_build_iff {octets : Octets} (sourceFile revision : String) :
    (∃ index, EntityIndex.build octets sourceFile revision = .ok index) ↔
      (Xml.Reading.ofOctets octets).IsComplete ∧
        (∀ e ∈ (Xml.Reading.ofOctets octets).bareEvents, e.Decodes) ∧
          Xml.depthAfter? 0 (Xml.Reading.ofOctets octets).bareEvents = some 0 := by
  obtain ⟨depth, hdepth⟩ := Xml.Reading.depthAfter?_ofOctets octets
  constructor
  · intro hgiven
    obtain ⟨index, h⟩ := hgiven
    obtain ⟨hcomplete, b, hafter, hstack, _⟩ := build_eq_ok_iff_after?.1 h
    have hlength := stack_length_after? hafter hdepth
    rw [hstack] at hlength
    exact ⟨hcomplete, (exists_after?_iff _ _).1 ⟨b, hafter⟩, by rw [hdepth, ← hlength]; rfl⟩
  · intro h
    obtain ⟨hcomplete, hdecodes, hzero⟩ := h
    obtain ⟨b, hafter⟩ := (exists_after?_iff (start sourceFile revision) _).2 hdecodes
    have hlength := stack_length_after? hafter hzero
    exact ⟨b.index, build_eq_ok_iff_after?.2
      ⟨hcomplete, b, hafter, List.eq_nil_of_length_eq_zero hlength, rfl⟩⟩

end RegistryGraph.IndexBuilder
