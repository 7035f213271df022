import RegistryGraph.Proofs.Index.Run
import RegistryGraph.Proofs.Index.Walk

/-!
# The builder walks the tree

A builder between two events holds the index of the records so far: those before the innermost open
entity, that entity's own record as far as it is known, and those after it.  Events that describe a
content leave the stack as high as it was.  They append the content's records, and what the content says
goes to the innermost open entity.

The main statement is `build_eq_ok_iff_walk`: a document has an index just in case it has a content, and
then the index is the one that `Walk.index` reads off the content.
-/

namespace RegistryGraph.IndexBuilder

open Xml (AttributePair Content Event)
open Records EntityIndex Walk

variable {sourceFile revision : String}

/-! ## What a builder holds -/

/-- The records of a builder, of which `current` is the one of the innermost open entity. -/
def held (before : List Entity) (current : Option Entity) (after : List Entity) : List Entity :=
  before ++ (current.toList ++ after)

/-- The builder's index is that of the records, and its stack and its cursor refer to them. -/
structure Holds (sourceFile revision : String) (b : IndexBuilder) (before : List Entity)
    (current : Option Entity) (after : List Entity) : Prop where
  index : b.index = .ofRecords (held before current after) sourceFile revision
  slot : innermostSlot? b.stack = current.map (slotOf before)
  anchored : Anchored (ids (held before current after)) (held before current after)
  parent : b.currentParent = "" ∨ b.currentParent ∈ ids (held before current after)

/-- What a content leaves of the innermost open element's frame. -/
def touched (content : Content) : List Frame → List Frame
  | [] => []
  | .entity slot parentId attrName childName :: outer =>
    .entity slot parentId attrName (childName.or (childName? content)) :: outer
  | .plain tag direct text :: outer => .plain tag direct (text ++ ownText content) :: outer

/-- Taking the events has the effect that the content describes. -/
def Simulates (sourceFile revision : String) (events : List Event) (content : Content) : Prop :=
  ∀ b before current after, Holds sourceFile revision b before current after →
    ∃ b', b.after? events = some b' ∧
      Holds sourceFile revision b' before (current.map (receive (sayings content)))
        (after ++ records b.currentParent content) ∧
      b'.stack = touched content b.stack ∧ b'.currentParent = b.currentParent

/-- A content without own text and without a name leaves the frames alone. -/
theorem touched_eq_self {content : Content} (hname : childName? content = none)
    (htext : ownText content = "") (frames : List Frame) : touched content frames = frames := by
  cases frames with
  | nil => rfl
  | cons frame outer => cases frame <;> simp [touched, hname, htext]

/-- A content does not change which entity is the innermost. -/
theorem innermostSlot?_touched (content : Content) (frames : List Frame) :
    innermostSlot? (touched content frames) = innermostSlot? frames := by
  cases frames with
  | nil => rfl
  | cons frame outer => cases frame <;> rfl

/-- A name that is offered does not change which entity is the innermost. -/
theorem innermostSlot?_offerName (value : String) (frames : List Frame) :
    innermostSlot? (offerName value frames) = innermostSlot? frames := by
  unfold offerName
  split <;> rfl

/-- A name that may be offered or not does not change which entity is the innermost. -/
theorem innermostSlot?_ite_offerName (p : Prop) [Decidable p] (value : String) (frames : List Frame) :
    innermostSlot? (if p then offerName value frames else frames) = innermostSlot? frames := by
  rw [apply_ite innermostSlot?, innermostSlot?_offerName, ite_self]

/-- Retouching the record of the open entity keeps all ids. -/
theorem ids_held_retouch {f : Entity → Entity} (hf : Retouch f) (before : List Entity)
    (current : Option Entity) (after : List Entity) :
    ids (held before (current.map f) after) = ids (held before current after) := by
  cases current with
  | none => rfl
  | some e => simp [held, hf.id]

/-- Retouching the record of the open entity keeps the parents known. -/
theorem anchored_held_retouch {f : Entity → Entity} (hf : Retouch f) {before : List Entity}
    {current : Option Entity} {after : List Entity} {known : List String}
    (h : Anchored known (held before current after)) :
    Anchored known (held before (current.map f) after) := by
  cases current with
  | none => exact h
  | some e =>
      intro r hr p hp
      simp only [held, Option.map_some, Option.toList_some, List.singleton_append,
        List.mem_append, List.mem_cons] at hr
      rcases hr with hr | rfl | hr
      · exact h r (by simp [held, hr]) p hp
      · exact h e (by simp [held]) p (by rwa [hf.parent?] at hp)
      · exact h r (by simp [held, hr]) p hp

/-- Further records come behind those that are held. -/
theorem held_append (before : List Entity) (current : Option Entity) (after more : List Entity) :
    held before current (after ++ more) = held before current after ++ more := by
  simp [held]

/-- Changing the innermost open entity changes its record. -/
theorem Holds.update {b : IndexBuilder} {before after : List Entity} {current : Option Entity}
    (h : Holds sourceFile revision b before current after) {f : Entity → Entity} (hf : Retouch f)
    {b' : IndexBuilder}
    (hindex : b'.index = match innermostSlot? b.stack with
      | none => b.index
      | some slot => updateSlot b.index slot f)
    (hslot : innermostSlot? b'.stack = innermostSlot? b.stack)
    (hparent : b'.currentParent = b.currentParent) :
    Holds sourceFile revision b' before (current.map f) after := by
  refine ⟨?_, ?_, ?_, ?_⟩
  · rw [hindex, h.slot, h.index]
    cases current with
    | none => rfl
    | some e => exact updateSlot_ofRecords hf before after e
  · rw [hslot, h.slot]
    cases current with
    | none => rfl
    | some e => simp [slotOf, hf.id]
  · rw [ids_held_retouch hf]
    exact anchored_held_retouch hf h.anchored
  · rw [ids_held_retouch hf, hparent]
    exact h.parent

/-! ## One element -/

/-- An element without a code opens a plain frame and registers nothing. -/
theorem openElement_of_uncoded {b : IndexBuilder} {name : String} {pairs : List AttributePair}
    (h : code? pairs = none) :
    b.openElement name (Keyed.ofPairs pairs) =
      { b with stack := .plain name (insideEntity b.stack) "" :: b.stack } := by
  have hcode : (Keyed.ofPairs pairs)[Entity.codeKey]? = none :=
    (Keyed.getElem?_ofPairs pairs Entity.codeKey).trans h
  unfold openElement
  rw [hcode]

/-- The record of a coded element while only its start tag is known. -/
def draft (parentId name code : String) (pairs : List AttributePair) : Entity :=
  ⟨Entity.idOf name code, name, "", parentId, Keyed.ofPairs pairs, []⟩

/-- A coded element registers its draft and becomes the cursor. -/
theorem openElement_of_coded {b : IndexBuilder} {name code : String} {pairs : List AttributePair}
    (h : code? pairs = some code) :
    b.openElement name (Keyed.ofPairs pairs) =
      ⟨(register b.index (draft b.currentParent name code pairs)).1,
        .entity (register b.index (draft b.currentParent name code pairs)).2 b.currentParent
          (Text.trim ((value? pairs Entity.nameKey).getD "")) none :: b.stack,
        Entity.idOf name code⟩ := by
  have hcode : (Keyed.ofPairs pairs)[Entity.codeKey]? = some code :=
    (Keyed.getElem?_ofPairs pairs Entity.codeKey).trans h
  have hname : (Keyed.ofPairs pairs)[Entity.nameKey]? = value? pairs Entity.nameKey :=
    Keyed.getElem?_ofPairs pairs Entity.nameKey
  unfold openElement
  rw [hcode]
  dsimp only
  rw [hname]
  rfl

/-- A draft that has received what its element says, and its name, is the element's record. -/
theorem record_eq (parentId name code : String) (pairs : List AttributePair) (inner : Content) :
    { receive (sayings inner) (draft parentId name code pairs) with name := nameOf pairs inner } =
      record parentId name code pairs inner := by
  rw [receive_eq, attributes_receive (sayings_ne_empty inner) rfl]
  rfl

/-- Closing a coded element gives its entity a name and goes back to the entity around it. -/
theorem closeElement_of_entity {b : IndexBuilder} {slot : Slot} {parentId attrName : String}
    {childName : Option String} {outer : List Frame}
    (hstack : b.stack = .entity slot parentId attrName childName :: outer) :
    b.closeElement = ⟨updateSlot b.index slot fun e =>
      { e with name := if attrName.isEmpty then childName.getD "" else attrName }, outer, parentId⟩ := by
  unfold closeElement
  rw [hstack]

/-- What opening an element, taking its events and closing it does to a builder. -/
def Element (sourceFile revision name : String) (pairs : List AttributePair) (within : List Event)
    (content : Content) : Prop :=
  ∀ b before current after, Holds sourceFile revision b before current after →
    ∃ b', (b.openElement name (Keyed.ofPairs pairs)).after? within = some b' ∧
      Holds sourceFile revision b'.closeElement before
        (current.map (receive (sayings content)))
        (after ++ records b.currentParent content) ∧
      b'.closeElement.stack = touched content b.stack ∧
      b'.closeElement.currentParent = b.currentParent

/-- A closed element's record takes its place behind the records so far. -/
theorem Holds.leave {b b₁ b₂ : IndexBuilder} {before after more : List Entity}
    {current : Option Entity} {e : Entity} (h : Holds sourceFile revision b before current after)
    (h₁ : Holds sourceFile revision b₁ (held before current after) (some e) more)
    (hindex : b₂.index = b₁.index) (hslot : innermostSlot? b₂.stack = innermostSlot? b.stack)
    (hparent : b₂.currentParent = b.currentParent) :
    Holds sourceFile revision b₂ before current (after ++ e :: more) := by
  have hheld : held (held before current after) (some e) more =
      held before current (after ++ e :: more) := by
    simp [held]
  refine ⟨?_, ?_, ?_, ?_⟩
  · rw [hindex, h₁.index, hheld]
  · rw [hslot, h.slot]
  · rw [← hheld]
    exact h₁.anchored
  · rw [hparent]
    rcases h.parent with hroot | hmem
    · exact Or.inl hroot
    · rw [held_append, ids_append]
      exact Or.inr (List.mem_append_left _ hmem)

/-- The parent of a new record is a record already. -/
theorem Holds.anchored_draft {b : IndexBuilder} {before after : List Entity}
    {current : Option Entity} (h : Holds sourceFile revision b before current after)
    (name code : String) (pairs : List AttributePair) :
    Anchored (ids (held before current after)) [draft b.currentParent name code pairs] := by
  intro r hr p hp
  obtain rfl := List.mem_singleton.1 hr
  obtain ⟨hne, rfl⟩ := Entity.parent?_eq_some_iff.1 hp
  exact h.parent.resolve_left hne

/-- Opening a coded element makes its draft the record of the innermost open entity. -/
theorem Holds.openElement {b : IndexBuilder} {before after : List Entity}
    {current : Option Entity} (h : Holds sourceFile revision b before current after)
    (name : String) {code : String} {pairs : List AttributePair}
    (hcode : code? pairs = some code) :
    Holds sourceFile revision (b.openElement name (Keyed.ofPairs pairs))
        (held before current after) (some (draft b.currentParent name code pairs)) [] ∧
      (b.openElement name (Keyed.ofPairs pairs)).stack =
        .entity (slotOf (held before current after) (draft b.currentParent name code pairs))
          b.currentParent (Text.trim ((value? pairs Entity.nameKey).getD "")) none :: b.stack := by
  have hdraft := h.anchored_draft name code pairs
  have hregister : register b.index (draft b.currentParent name code pairs) =
      (.ofRecords (held before current after ++ [draft b.currentParent name code pairs])
        sourceFile revision,
        slotOf (held before current after) (draft b.currentParent name code pairs)) := by
    rw [h.index]
    exact register_ofRecords h.anchored hdraft rfl
  rw [openElement_of_coded hcode, hregister]
  have hheld : held (held before current after) (some (draft b.currentParent name code pairs)) [] =
      held before current after ++ [draft b.currentParent name code pairs] := rfl
  refine ⟨⟨rfl, rfl, ?_, Or.inr ?_⟩, rfl⟩
  · rw [hheld]
    intro r hr p hp
    rw [ids_append]
    rcases List.mem_append.1 hr with hr | hr
    · exact List.mem_append_left _ (h.anchored r hr p hp)
    · exact List.mem_append_left _ (hdraft r hr p hp)
  · rw [hheld, ids_append]
    exact List.mem_append_right _ List.mem_cons_self

/-- A coded element has the effect of its content on its own record. -/
theorem element_of_coded {name code : String} {pairs : List AttributePair} {within : List Event}
    {inner : Content} (hcode : code? pairs = some code)
    (hinner : Simulates sourceFile revision within inner) :
    Element sourceFile revision name pairs within (.element name pairs inner .nil) := by
  intro b before current after hb
  obtain ⟨hopened, hopenStack⟩ := hb.openElement name hcode
  obtain ⟨b', hafter, hb', hstack, _⟩ := hinner _ _ _ _ hopened
  let slot := slotOf (held before current after) (draft b.currentParent name code pairs)
  have hframes : b'.stack = .entity slot b.currentParent
      (Text.trim ((value? pairs Entity.nameKey).getD "")) (childName? inner) :: b.stack := by
    rw [hstack, hopenStack]
    simp [touched, slot]
  have hid : (b.openElement name (Keyed.ofPairs pairs)).currentParent = Entity.idOf name code := by
    rw [openElement_of_coded hcode]
  rw [hid] at hb'
  -- The name is set while the record is still the innermost one; then its frame goes.
  let named : IndexBuilder := { b' with
    index := updateSlot b'.index slot fun r => { r with name := nameOf pairs inner } }
  have hclosed : b'.closeElement = { named with
      stack := b.stack, currentParent := b.currentParent } := by
    rw [closeElement_of_entity hframes]
    rfl
  have hupdate : named.index = match innermostSlot? b'.stack with
      | none => b'.index
      | some slot => updateSlot b'.index slot fun r => { r with name := nameOf pairs inner } := by
    rw [hframes]
    rfl
  have hnamed := hb'.update (Retouch.setName (nameOf pairs inner)) hupdate rfl rfl
  rw [Option.map_some, Option.map_some, record_eq] at hnamed
  have hrecords : records b.currentParent (.element name pairs inner .nil) =
      record b.currentParent name code pairs inner :: records (Entity.idOf name code) inner := by
    simp [records, hcode]
  have hsayings : sayings (.element name pairs inner .nil) = [] := by
    simp [sayings, hcode]
  have hcurrent : current.map (receive (sayings (.element name pairs inner .nil))) = current := by
    rw [hsayings]
    cases current <;> rfl
  refine ⟨b', hafter, ?_, ?_, ?_⟩
  · rw [hrecords, hcurrent, hclosed]
    exact hb.leave hnamed rfl rfl rfl
  · rw [hclosed, touched_eq_self (by simp [childName?, hcode]) rfl]
  · rw [hclosed]

/-- Closing an uncoded element without a saying only takes its frame away. -/
theorem closeElement_of_silent {b : IndexBuilder} {name text : String} {direct : Bool}
    {outer : List Frame} (hstack : b.stack = .plain name direct text :: outer)
    (hsilent : (Text.trim text).isEmpty) : b.closeElement = { b with stack := outer } := by
  unfold closeElement
  rw [hstack]
  dsimp only
  rw [if_pos hsilent]

/-- Closing an uncoded element with a saying gives it to the innermost open entity, and as a name to
the coded element directly around it. -/
theorem closeElement_of_saying {b : IndexBuilder} {name text : String} {direct : Bool}
    {outer : List Frame} (hstack : b.stack = .plain name direct text :: outer)
    (hsaying : ¬(Text.trim text).isEmpty) :
    b.closeElement = { b with
      index := match innermostSlot? outer with
        | none => b.index
        | some slot => updateSlot b.index slot (·.addText name (Text.trim text))
      stack := if direct && nameTags.contains name then offerName (Text.trim text) outer
        else outer } := by
  unfold closeElement
  rw [hstack]
  dsimp only
  rw [if_neg hsaying, innermostSlot?_ite_offerName]
  cases innermostSlot? outer <;> rfl

/-- An uncoded element offers what it says as a name if it is called `n` or `name`. -/
theorem childName?_of_uncoded {name : String} {pairs : List AttributePair} {inner : Content}
    (hcode : code? pairs = none) :
    childName? (.element name pairs inner .nil) =
      if name = "n" ∨ name = "name" then saying? inner else none := by
  simp [childName?, hcode]

/-- The name that an uncoded element offers is the one that its content gives. -/
theorem offerName_eq_touched {name value : String} {pairs : List AttributePair} {inner : Content}
    (hcode : code? pairs = none) (hsaying : saying? inner = some value) (frames : List Frame) :
    (if insideEntity frames && nameTags.contains name then offerName value frames else frames) =
      touched (.element name pairs inner .nil) frames := by
  cases frames with
  | nil => rfl
  | cons frame outer =>
      cases frame with
      | plain tag direct text => simp [insideEntity, touched, ownText]
      | entity slot parentId attrName childName =>
          rw [touched, childName?_of_uncoded hcode, hsaying]
          by_cases hname : name = "n" ∨ name = "name"
          · cases childName <;> simp [insideEntity, nameTags, offerName, hname]
          · simp [insideEntity, nameTags, hname]

/-- An uncoded element has the effect of its content on the entity around it. -/
theorem element_of_uncoded {name : String} {pairs : List AttributePair} {within : List Event}
    {inner : Content} (hcode : code? pairs = none)
    (hinner : Simulates sourceFile revision within inner) :
    Element sourceFile revision name pairs within (.element name pairs inner .nil) := by
  intro b before current after hb
  have hopened : Holds sourceFile revision (b.openElement name (Keyed.ofPairs pairs))
      before current after := by
    rw [openElement_of_uncoded hcode]
    exact ⟨hb.index, hb.slot, hb.anchored, hb.parent⟩
  obtain ⟨b', hafter, hb', hstack, hparent⟩ := hinner _ _ _ _ hopened
  have hframes : b'.stack = .plain name (insideEntity b.stack) (ownText inner) :: b.stack := by
    rw [hstack, openElement_of_uncoded hcode]
    simp [touched]
  rw [openElement_of_uncoded hcode] at hb' hparent
  have hrecords : records b.currentParent (.element name pairs inner .nil) =
      records b.currentParent inner := by
    simp [records, hcode]
  have hsayings : sayings (.element name pairs inner .nil) =
      sayings inner ++ ((saying? inner).map (name, ·)).toList := by
    simp [sayings, hcode]
  refine ⟨b', hafter, ?_⟩
  rw [hrecords, hsayings]
  by_cases hsaying : (Text.trim (ownText inner)).isEmpty
  · have hnone : saying? inner = none := if_pos hsaying
    have hself : touched (.element name pairs inner .nil) b.stack = b.stack :=
      touched_eq_self (by simp [childName?_of_uncoded hcode, hnone]) rfl b.stack
    rw [closeElement_of_silent hframes hsaying, hnone, hself]
    refine ⟨⟨?_, ?_, ?_, ?_⟩, rfl, hparent⟩
    · simpa using hb'.index
    · simpa [hframes, innermostSlot?] using hb'.slot
    · simpa using hb'.anchored
    · simpa using hb'.parent
  · have hsome : saying? inner = some (Text.trim (ownText inner)) := if_neg hsaying
    rw [closeElement_of_saying hframes hsaying, hsome]
    have hslot : innermostSlot? b'.stack = innermostSlot? b.stack := by
      rw [hframes]
      rfl
    have hreceive : current.map
        (receive (sayings inner ++ [(name, Text.trim (ownText inner))])) =
          (current.map (receive (sayings inner))).map
            (·.addText name (Text.trim (ownText inner))) := by
      rw [Option.map_map]
      congr 1
      funext e
      exact receive_append ..
    refine ⟨?_, offerName_eq_touched hcode hsome b.stack, hparent⟩
    rw [Option.map_some, Option.toList_some, hreceive]
    refine hb'.update (Retouch.addText name (Text.trim (ownText inner))) ?_ ?_ rfl
    · rw [hslot]
    · dsimp only
      rw [hslot, offerName_eq_touched hcode hsome, innermostSlot?_touched]

/-- An element, coded or not, has the effect that its content has. -/
theorem element_of_simulates {name : String} {pairs : List AttributePair} {within : List Event}
    {inner : Content} (hinner : Simulates sourceFile revision within inner) :
    Element sourceFile revision name pairs within (.element name pairs inner .nil) := by
  cases hcode : code? pairs with
  | none => exact element_of_uncoded hcode hinner
  | some code => exact element_of_coded hcode hinner

/-! ## A whole content -/

/-- What an element says comes before what stands behind it. -/
theorem sayings_element (name : String) (pairs : List AttributePair) (inner rest : Content) :
    sayings (.element name pairs inner rest) =
      sayings (.element name pairs inner .nil) ++ sayings rest := by
  cases hcode : code? pairs <;> simp [sayings, hcode]

/-- The records of an element come before those behind it. -/
theorem records_element (parentId name : String) (pairs : List AttributePair)
    (inner rest : Content) :
    records parentId (.element name pairs inner rest) =
      records parentId (.element name pairs inner .nil) ++ records parentId rest := by
  cases hcode : code? pairs <;> simp [records, hcode]

/-- The frame is touched by an element first and then by what stands behind it. -/
theorem touched_element (name : String) (pairs : List AttributePair) (inner rest : Content)
    (frames : List Frame) :
    touched (.element name pairs inner rest) frames =
      touched rest (touched (.element name pairs inner .nil) frames) := by
  have hname : childName? (.element name pairs inner rest) =
      (childName? (.element name pairs inner .nil)).or (childName? rest) := by
    rw [childName?, childName?]
    split <;> simp [childName?]
  cases frames with
  | nil => rfl
  | cons frame outer =>
      cases frame with
      | entity slot parentId attrName childName => simp [touched, hname, Option.or_assoc]
      | plain tag direct text => simp [touched, ownText]

/-- An element's effect and that of the content behind it make the effect of both. -/
theorem Element.followed {name : String} {pairs : List AttributePair} {within events : List Event}
    {inner rest : Content} {b : IndexBuilder} {before after : List Entity}
    {current : Option Entity}
    (helement : Element sourceFile revision name pairs within (.element name pairs inner .nil))
    (hrest : Simulates sourceFile revision events rest)
    (hb : Holds sourceFile revision b before current after) :
    ∃ b₁ b₂, (b.openElement name (Keyed.ofPairs pairs)).after? within = some b₁ ∧
      b₁.closeElement.after? events = some b₂ ∧
      Holds sourceFile revision b₂ before
        (current.map (receive (sayings (.element name pairs inner rest))))
        (after ++ records b.currentParent (.element name pairs inner rest)) ∧
      b₂.stack = touched (.element name pairs inner rest) b.stack ∧
      b₂.currentParent = b.currentParent := by
  obtain ⟨b₁, hafter₁, hb₁, hstack₁, hparent₁⟩ := helement b before current after hb
  obtain ⟨b₂, hafter₂, hb₂, hstack₂, hparent₂⟩ := hrest _ _ _ _ hb₁
  refine ⟨b₁, b₂, hafter₁, hafter₂, ?_, ?_, ?_⟩
  · rw [hparent₁, List.append_assoc, ← records_element, Option.map_map] at hb₂
    have hreceive : receive (sayings rest) ∘ receive (sayings (.element name pairs inner .nil)) =
        receive (sayings (.element name pairs inner rest)) := by
      funext e
      rw [Function.comp_apply, ← receive_append, ← sayings_element]
    rw [hreceive] at hb₂
    exact hb₂
  · rw [hstack₂, hstack₁, ← touched_element]
  · rw [hparent₂, hparent₁]

/-- Text changes no record. -/
theorem Holds.addText {b : IndexBuilder} {before after : List Entity} {current : Option Entity}
    (h : Holds sourceFile revision b before current after) (chunk : String) :
    Holds sourceFile revision (b.addText chunk) before current after := by
  unfold IndexBuilder.addText
  split
  · next hstack =>
      refine ⟨h.index, ?_, h.anchored, h.parent⟩
      rw [← h.slot, hstack]
      rfl
  · exact h

/-- Text touches the innermost frame as a text node does. -/
theorem stack_addText (b : IndexBuilder) (chunk : String) :
    (b.addText chunk).stack = touched (.text chunk .nil) b.stack := by
  unfold addText
  split
  · next hstack => simp [hstack, touched, ownText]
  · next hstack =>
      cases hframes : b.stack with
      | nil => rfl
      | cons frame outer =>
          cases frame with
          | entity slot parentId attrName childName => simp [touched, childName?]
          | plain tag direct text => exact absurd hframes (hstack tag direct text outer)

/-- The frame is touched by a text first and then by what stands behind it. -/
theorem touched_text (chunk : String) (rest : Content) (frames : List Frame) :
    touched (.text chunk rest) frames = touched rest (touched (.text chunk .nil) frames) := by
  cases frames with
  | nil => rfl
  | cons frame outer =>
      cases frame with
      | entity slot parentId attrName childName => simp [touched, childName?]
      | plain tag direct text => simp [touched, ownText, String.append_assoc]

/-- Characters in front of a content. -/
theorem Simulates.text {chunk : String} {event : Event} {events : List Event} {rest : Content}
    (hstep : ∀ b : IndexBuilder, b.step event = .ok (b.addText chunk))
    (hrest : Simulates sourceFile revision events rest) :
    Simulates sourceFile revision (event :: events) (.text chunk rest) := by
  intro b before current after hb
  have hparent : (b.addText chunk).currentParent = b.currentParent := by
    unfold addText
    split <;> rfl
  obtain ⟨b', hafter, hb', hstack, hparent'⟩ := hrest _ _ _ _ (hb.addText chunk)
  refine ⟨b', ?_, ?_, ?_, ?_⟩
  · rw [after?_cons_of_step (hstep b), hafter]
  · rw [hparent] at hb'
    exact hb'
  · rw [hstack, stack_addText, ← touched_text]
  · rw [hparent', hparent]

/-- Taking no events has the effect of an empty content. -/
theorem simulates_nil : Simulates sourceFile revision [] .nil := by
  intro b before current after hb
  have hcurrent : current.map (receive (sayings .nil)) = current := by
    cases current <;> rfl
  refine ⟨b, rfl, ?_, (touched_eq_self rfl rfl b.stack).symm, rfl⟩
  rw [hcurrent, records, List.append_nil]
  exact hb

/-- **The builder walks the tree.**  Events that describe a content have its effect. -/
theorem simulates_of_reads {events : List Event} {content : Content}
    (h : content.Reads events) : Simulates sourceFile revision events content := by
  induction h with
  | nil => exact simulates_nil
  | text decoded _ ih =>
      exact Simulates.text (fun b => step_eq_ok_iff.2 (.text decoded)) ih
  | cdata _ ih => exact Simulates.text (fun b => step_eq_ok_iff.2 .cdata) ih
  | @empty tag pairs events rest shown _ ih =>
      intro b before current after hb
      obtain ⟨b₁, b₂, hafter₁, hafter₂, hb₂⟩ :=
        (element_of_simulates simulates_nil).followed ih hb
      have hstep : b.step (.empty tag) = .ok b₁.closeElement := by
        cases hafter₁
        exact step_eq_ok_iff.2 (.empty (decodeAttributes_eq_ok_iff.2 ⟨pairs, shown, rfl⟩))
      exact ⟨b₂, (after?_cons_of_step hstep events).trans hafter₂, hb₂⟩
  | @element tag pairs within events inner rest shown _ _ ihBody ihTail =>
      intro b before current after hb
      obtain ⟨b₁, b₂, hafter₁, hafter₂, hb₂⟩ :=
        (element_of_simulates ihBody).followed ihTail hb
      have hopen : b.step (.start tag) =
          .ok (b.openElement (Xml.localName tag.name) (Keyed.ofPairs pairs)) :=
        step_eq_ok_iff.2 (.start (decodeAttributes_eq_ok_iff.2 ⟨pairs, shown, rfl⟩))
      have hclose : b₁.step .close = .ok b₁.closeElement := step_eq_ok_iff.2 .close
      refine ⟨b₂, ?_, hb₂⟩
      rw [after?_cons_of_step hopen, after?_append, hafter₁, Option.bind_some,
        after?_cons_of_step hclose, hafter₂]

/-! ## A whole document -/

/-- The index of no records is the empty one. -/
theorem ofRecords_nil (sourceFile revision : String) :
    EntityIndex.ofRecords [] sourceFile revision = .empty sourceFile revision := by
  rfl

/-- Before the first event the builder holds no records. -/
theorem holds_start (sourceFile revision : String) :
    Holds sourceFile revision (start sourceFile revision) [] none [] := by
  refine ⟨(ofRecords_nil sourceFile revision).symm, rfl, ?_, Or.inl rfl⟩
  intro r hr
  cases hr

/-- The index of a document with a content. -/
theorem build_of_hasContent {octets : Octets} {content : Content}
    (h : Xml.HasContent octets content) (sourceFile revision : String) :
    EntityIndex.build octets sourceFile revision = .ok (Walk.index content sourceFile revision) := by
  obtain ⟨b, hafter, hb, hstack, _⟩ :=
    simulates_of_reads h.reads _ _ _ _ (holds_start sourceFile revision)
  exact build_eq_ok_iff_after?.2 ⟨h.complete, b, hafter, hstack, hb.index⟩

/-- Every document with an index has a content. -/
theorem exists_hasContent_of_build {octets : Octets} {sourceFile revision : String}
    {index : EntityIndex} (h : EntityIndex.build octets sourceFile revision = .ok index) :
    ∃ content, Xml.HasContent octets content ∧ index = Walk.index content sourceFile revision := by
  obtain ⟨content, hcontent⟩ :=
    Xml.exists_hasContent_iff.2 ((exists_build_iff sourceFile revision).1 ⟨index, h⟩)
  refine ⟨content, hcontent, ?_⟩
  rw [build_of_hasContent hcontent] at h
  exact (Except.ok.inj h).symm

/-- **A document's index is the one its element tree defines.**  There is an index just in case there
is an element tree, and then there is only one tree. -/
theorem build_eq_ok_iff_walk (octets : Octets) (sourceFile revision : String)
    (index : EntityIndex) :
    EntityIndex.build octets sourceFile revision = .ok index ↔
      ∃ content, Xml.HasContent octets content ∧
        (∀ other, Xml.HasContent octets other → other = content) ∧
          index = Walk.index content sourceFile revision := by
  constructor
  · intro h
    obtain ⟨content, hcontent, hindex⟩ := exists_hasContent_of_build h
    exact ⟨content, hcontent, fun other hother => hother.unique hcontent, hindex⟩
  · intro h
    obtain ⟨content, hcontent, _, rfl⟩ := h
    exact build_of_hasContent hcontent sourceFile revision

/-- A child gives the name, other texts are attributes, and the second element with the id is a
duplicate. -/
example :
    (EntityIndex.build (Utf8.encode "<a code='1'><n> x </n><t>y</t><t>z</t><a code='1'/></a>") "f"
      "v").toOption.map (fun index => (index.all.map fun e => (e.name, e.attributes.toList),
        index.duplicates.map (·.parentId))) =
      some ([("x", [("code", "1"), ("n", "x"), ("t", "y, z")])], ["a:1"]) := by
  cbv

end RegistryGraph.IndexBuilder
