import RegistryGraph.Proofs.Index.Simulation

/-!
# The frames of a builder

While a document is read, an open entity is known by its id, which the cursor or the frame of the next entity
inside it keeps, and by its slot, which its own frame keeps.  An element whose id was taken shares its id with
another entity, so the slot cannot be found by the id, and the frames have to agree with the index and with
each other.

`Framed` says that they do, with one case for each kind of frame.  Every operation keeps it, because none
changes the id of what a slot holds.  The builder is also prepared for frames that do not agree: for a close
without an open element, for a slot that holds nothing, and for a name that no coded element is there to take.
`IndexBuilder.close?` closes an element without these ways out.

* `IndexBuilder.IsFramed.after?`: the frames agree after any events.
* `IndexBuilder.IsFramed.close?_eq`: where they agree, an element closes without a way out.
* `IndexBuilder.coherent_run`: both, for every beginning of the events of a document.
-/

namespace RegistryGraph.IndexBuilder

open Xml (Event Occurrence)
open Records (Retouch)

/-! ## Frames that belong together -/

/-- The slot holds an entity, which has the given id. -/
inductive Stores (index : EntityIndex) (id : String) : Slot → Prop
  | primary {e : Entity} (found : index.get? id = some e) (named : e.id = id) :
      Stores index id (.primary id)
  | duplicate {number : Nat} {e : Entity} (found : index.duplicates[number]? = some e)
      (named : e.id = id) : Stores index id (.duplicate number)

/-- The frames belong to the index and to each other, and `cursor` is the id of the innermost entity. -/
inductive Framed (index : EntityIndex) : List Frame → String → Prop
  | nil : Framed index [] ""
  | entity {slot : Slot} {id parentId attrName : String} {childName : Option String}
      {outer : List Frame} (stored : Stores index id slot) (around : Framed index outer parentId) :
      Framed index (.entity slot parentId attrName childName :: outer) id
  | plain {tag text cursor : String} {outer : List Frame} (around : Framed index outer cursor) :
      Framed index (.plain tag (insideEntity outer) text :: outer) cursor

variable {index index' : EntityIndex} {b b' : IndexBuilder} {frames outer : List Frame}
  {slot : Slot} {id cursor : String}

/-- A slot that stores an id leads to an entity with this id. -/
theorem Stores.exists_slotEntity? (h : Stores index id slot) :
    ∃ e, slotEntity? index slot = some e ∧ e.id = id := by
  cases h with
  | primary found named => exact ⟨_, found, named⟩
  | duplicate found named => exact ⟨_, found, named⟩

/-- The id of the innermost entity among the frames; empty if there is none. -/
inductive IsInnermost (index : EntityIndex) : List Frame → String → Prop
  | nil : IsInnermost index [] ""
  | entity {slot : Slot} {id parentId attrName : String} {childName : Option String}
      {outer : List Frame} (stored : Stores index id slot) :
      IsInnermost index (.entity slot parentId attrName childName :: outer) id
  | plain {tag text id : String} {direct : Bool} {outer : List Frame}
      (around : IsInnermost index outer id) : IsInnermost index (.plain tag direct text :: outer) id

/-- The slot of the innermost open entity stores its id. -/
theorem IsInnermost.stores (h : IsInnermost index frames id) (hslot : innermostSlot? frames = some slot) :
    Stores index id slot := by
  induction h with
  | nil => cases hslot
  | entity stored =>
      cases hslot
      exact stored
  | plain _ ih => exact ih hslot

/-- Where the frames belong together, the cursor is the id of the innermost entity. -/
theorem Framed.isInnermost (h : Framed index frames cursor) : IsInnermost index frames cursor := by
  induction h with
  | nil => exact .nil
  | entity stored _ _ => exact .entity stored
  | plain _ ih => exact .plain ih

/-- The frames around a frame belong together as well. -/
theorem Framed.around (h : Framed index frames cursor) {inner : List Frame}
    (hsplit : frames = inner ++ outer) : ∃ cursor, Framed index outer cursor := by
  induction inner generalizing frames cursor with
  | nil =>
      subst hsplit
      exact ⟨cursor, h⟩
  | cons frame inner ih =>
      subst hsplit
      cases h with
      | entity _ around => exact ih around rfl
      | plain around => exact ih around rfl

/-- The frames stay valid as long as no slot comes to hold an entity of another id. -/
theorem Framed.mono (h : Framed index frames cursor)
    (hkeeps : ∀ id slot, Stores index id slot → Stores index' id slot) :
    Framed index' frames cursor := by
  induction h with
  | nil => exact .nil
  | entity stored _ ih => exact .entity (hkeeps _ _ stored) ih
  | plain _ ih => exact .plain ih

/-! ## What an operation does to the slots -/

/-- Updating a slot keeps all ids. -/
theorem Stores.update (h : Stores index id slot) {f : Entity → Entity} (hf : ∀ e, (f e).id = e.id)
    (target : Slot) : Stores (updateSlot index target f) id slot := by
  cases h with
  | @primary e found named =>
      have hfound : index.entities[id]? = some e := found
      cases target with
      | duplicate number => exact .primary found named
      | primary key =>
          refine .primary (e := if key = id then f e else e) ?_ ?_
          · rw [updateSlot, EntityIndex.get?, Std.ExtTreeMap.getElem?_modify]
            by_cases hkey : key = id <;> simp [hkey, hfound]
          · split <;> simp only [hf, named]
  | @duplicate number e found named =>
      cases target with
      | primary key => exact .duplicate found named
      | duplicate target =>
          refine .duplicate (e := if target = number then f e else e) ?_ ?_
          · rw [updateSlot, List.getElem?_modify, found]
            by_cases htarget : target = number <;> simp [htarget]
          · split <;> simp only [hf, named]

/-- Other tables do not matter. -/
theorem Stores.congr (h : Stores index id slot) (hentities : index'.entities = index.entities)
    (hduplicates : index'.duplicates = index.duplicates) : Stores index' id slot := by
  cases h with
  | primary found named => exact .primary (by rw [EntityIndex.get?, hentities]; exact found) named
  | duplicate found named => exact .duplicate (by rw [hduplicates]; exact found) named

/-- An index in which the parent of a new entity has it among its children. -/
def linkParent (index : EntityIndex) (e : Entity) : EntityIndex :=
  if e.parentId.isEmpty then index
  else
    { index with
      byParent := index.byParent.append e.parentId e.id
      entities := index.entities.modify e.parentId fun p =>
        { p with children := p.children ++ [e.id] } }

/-- Listing a child changes no id. -/
theorem Stores.linkParent (h : Stores index id slot) (e : Entity) :
    Stores (linkParent index e) id slot := by
  unfold IndexBuilder.linkParent
  split
  next => exact h
  next =>
    have hlinked := h.update (f := fun p => { p with children := p.children ++ [e.id] })
      (fun _ => rfl) (.primary e.parentId)
    exact hlinked.congr rfl rfl

/-- Listing a child neither adds an entity nor takes one away. -/
theorem mem_linkParent {e : Entity} {key : String} :
    key ∈ (linkParent index e).entities ↔ key ∈ index.entities := by
  unfold linkParent
  split
  next => rfl
  next => exact Std.ExtTreeMap.mem_modify

/-- An entity with a free id displaces nothing. -/
theorem Stores.insert (h : Stores index id slot) {e : Entity} (hfree : e.id ∉ index.entities)
    (hentities : index'.entities = index.entities.insert e.id e)
    (hduplicates : index'.duplicates = index.duplicates) : Stores index' id slot := by
  cases h with
  | @primary held found named =>
      have hne : e.id ≠ id := by
        rintro rfl
        exact hfree (Std.ExtTreeMap.mem_iff_isSome_getElem?.2 (Option.isSome_of_eq_some found))
      refine .primary (e := held) ?_ named
      rw [EntityIndex.get?, hentities, Std.ExtTreeMap.getElem?_insert,
        if_neg (by simpa using hne)]
      exact found
  | duplicate found named => exact .duplicate (by rw [hduplicates]; exact found) named

/-- Registering keeps all ids. -/
theorem Stores.register (h : Stores index id slot) (e : Entity) :
    Stores (register index e).1 id slot := by
  unfold IndexBuilder.register
  split
  next =>
    cases h with
    | primary found named => exact .primary found named
    | @duplicate number held found named =>
        have hlt : number < index.duplicates.length := (List.getElem?_eq_some_iff.1 found).1
        refine .duplicate (e := held) ?_ named
        rw [List.getElem?_append_left hlt, found]
  next hfree =>
    have hnew : e.id ∉ (IndexBuilder.linkParent index e).entities := by
      rwa [mem_linkParent, Std.ExtTreeMap.mem_iff_contains]
    exact (h.linkParent e).insert hnew rfl rfl

/-- The slot that a registered entity gets holds it. -/
theorem stores_register (index : EntityIndex) (e : Entity) :
    Stores (register index e).1 e.id (register index e).2 := by
  unfold register
  split
  next => exact .duplicate (e := e) List.getElem?_concat_length rfl
  next => exact .primary (e := e) Std.ExtTreeMap.getElem?_insert_self rfl

/-! ## What an operation does to the frames -/

/-- A builder whose frames belong together, and whose cursor is the id of the innermost open entity. -/
def IsFramed (b : IndexBuilder) : Prop := Framed b.index b.stack b.currentParent

/-- Before the first event no frame is open. -/
theorem isFramed_start (sourceFile revision : String) : (start sourceFile revision).IsFramed :=
  .nil

/-- An element that opens puts a frame on frames that belong together. -/
theorem IsFramed.openElement (h : b.IsFramed) (tag : String) (attributes : Keyed String) :
    (b.openElement tag attributes).IsFramed := by
  unfold IndexBuilder.openElement
  split
  next => exact .plain h
  next code _ =>
    exact .entity (stores_register b.index _) (h.mono fun _ _ hstored => hstored.register _)

/-- Text keeps the frames together. -/
theorem IsFramed.addText (h : b.IsFramed) (chunk : String) : (b.addText chunk).IsFramed := by
  unfold IndexBuilder.addText
  split
  next tag direct text outer hstack =>
    unfold IsFramed at h
    rw [hstack] at h
    cases h with
    | plain around => exact .plain around
  next => exact h

/-- A name from a child keeps the frames together. -/
theorem Framed.offerName (h : Framed index frames cursor) (value : String) :
    Framed index (offerName value frames) cursor := by
  unfold IndexBuilder.offerName
  split
  next =>
    cases h with
    | entity stored around => exact .entity stored around
  next => exact h

-- What is left are the frames around the innermost one, whose case says already that they agree and what
-- the cursor is among them; only the index changes.
/-- An element that closes leaves the frames around it together. -/
theorem IsFramed.closeElement (h : b.IsFramed) : b.closeElement.IsFramed := by
  unfold IsFramed at h
  cases hstack : b.stack with
  | nil =>
      have hself : b.closeElement = b := by
        unfold IndexBuilder.closeElement
        rw [hstack]
      rw [hself]
      exact h
  | cons frame outer =>
      rw [hstack] at h
      cases h with
      | @entity slot _ parentId attrName childName _ stored around =>
          rw [closeElement_of_entity hstack]
          exact around.mono fun _ _ hstored => hstored.update (Retouch.setName _).id slot
      | @plain tag text _ _ around =>
          by_cases hsilent : (Text.trim text).isEmpty
          · rw [closeElement_of_silent hstack hsilent]
            exact around
          · rw [closeElement_of_saying hstack hsilent]
            have houter : Framed b.index (if insideEntity outer && nameTags.contains tag then
                IndexBuilder.offerName (Text.trim text) outer else outer) b.currentParent := by
              split
              next => exact around.offerName _
              next => exact around
            refine houter.mono fun _ _ hstored => ?_
            dsimp only
            split
            next => exact hstored
            next slot _ => exact hstored.update (Retouch.addText _ _).id slot

/-- **An event keeps the frames together.** -/
theorem IsFramed.step (h : b.IsFramed) {event : Event} (hstep : b.step event = .ok b') :
    b'.IsFramed := by
  cases step_eq_ok_iff.1 hstep with
  | start => exact h.openElement _ _
  | empty => exact (h.openElement _ _).closeElement
  | close => exact h.closeElement
  | text | cdata => exact h.addText _

/-- **The frames belong together after any events.** -/
theorem IsFramed.after? (h : b.IsFramed) {events : List Event} (hafter : b.after? events = some b') :
    b'.IsFramed := by
  induction events generalizing b with
  | nil =>
      cases hafter
      exact h
  | cons event rest ih =>
      obtain ⟨next, hstep, hrest⟩ := after?_cons_eq_some_iff.1 hafter
      exact ih (h.step hstep) hrest

/-! ## Closing without a way out -/

/-- Changes the entity in a slot, which must hold one. -/
def update? (index : EntityIndex) (slot : Slot) (f : Entity → Entity) : Option EntityIndex :=
  (slotEntity? index slot).map fun _ => updateSlot index slot f

/-- Gives the innermost open element a name from a child; it must be coded. -/
def giveName? (value : String) : List Frame → Option (List Frame)
  | .entity slot parentId attrName childName :: outer =>
    some (.entity slot parentId attrName (childName.or (some value)) :: outer)
  | _ => none

/-- Closes the innermost open element.  Where something is missing there is no result: an open element, an
entity in a slot, or the coded element that a name is for. -/
def close? (b : IndexBuilder) : Option IndexBuilder :=
  match b.stack with
  | [] => none
  | .entity slot parentId attrName childName :: outer =>
    let name := if attrName.isEmpty then childName.getD "" else attrName
    (update? b.index slot fun e => { e with name }).map fun index => ⟨index, outer, parentId⟩
  | .plain tag direct text :: outer =>
    let value := Text.trim text
    if value.isEmpty then some { b with stack := outer }
    else
      (if direct && nameTags.contains tag then giveName? value outer else some outer).bind fun outer =>
        match innermostSlot? outer with
        | none => some { b with stack := outer }
        | some slot =>
          (update? b.index slot (·.addText tag value)).map fun index =>
            { b with index, stack := outer }

/-- Where a slot stores an entity, changing it needs no way out. -/
theorem Stores.update?_eq (h : Stores index id slot) (f : Entity → Entity) :
    update? index slot f = some (updateSlot index slot f) := by
  obtain ⟨e, found, _⟩ := h.exists_slotEntity?
  rw [IndexBuilder.update?, found, Option.map_some]

/-- Within a coded element a name is taken without a way out. -/
theorem giveName?_eq (value : String) (hcoded : insideEntity frames = true) :
    giveName? value frames = some (offerName value frames) := by
  cases frames with
  | nil => cases hcoded
  | cons frame outer =>
      cases frame with
      | plain tag direct text => cases hcoded
      | entity slot parentId attrName childName => cases childName <;> rfl

/-- **Where the frames belong together, an element closes without a way out.** -/
theorem IsFramed.close?_eq (h : b.IsFramed) (hopen : b.stack ≠ []) :
    b.close? = some b.closeElement := by
  unfold IsFramed at h
  cases hstack : b.stack with
  | nil => exact absurd hstack hopen
  | cons frame outer =>
      rw [hstack] at h
      unfold IndexBuilder.close?
      rw [hstack]
      dsimp only
      cases h with
      | entity stored around =>
          rw [closeElement_of_entity hstack]
          dsimp only
          rw [stored.update?_eq, Option.map_some]
      | @plain tag text _ _ around =>
          by_cases hsilent : (Text.trim text).isEmpty
          · rw [closeElement_of_silent hstack hsilent]
            dsimp only
            rw [if_pos hsilent]
          · rw [closeElement_of_saying hstack hsilent]
            dsimp only
            rw [if_neg hsilent]
            have hnamed : (if insideEntity outer && nameTags.contains tag then
                giveName? (Text.trim text) outer else some outer) =
                some (if insideEntity outer && nameTags.contains tag then
                  offerName (Text.trim text) outer else outer) := by
              split
              next hname => exact giveName?_eq _ (Bool.and_elim_left hname)
              next => rfl
            rw [hnamed, Option.bind_some, innermostSlot?_ite_offerName]
            cases hslot : innermostSlot? outer with
            | none => rfl
            | some slot =>
                dsimp only
                rw [(around.isInnermost.stores hslot).update?_eq, Option.map_some]

/-! ## The beginnings of a document -/

/-- The slot is one of the index. -/
def IsSlotOf (index : EntityIndex) : Slot → Prop
  | .primary id => id ∈ index.entities
  | .duplicate number => number < index.duplicates.length

/-- The cursor, the frames and the index of a builder say the same. -/
structure Coherent (b : IndexBuilder) : Prop where
  /-- The cursor is the id of the innermost open entity. -/
  cursor : IsInnermost b.index b.stack b.currentParent
  /-- The frame of an entity keeps the id of the next entity around it. -/
  parents : ∀ inner slot parentId attrName childName outer,
    b.stack = inner ++ .entity slot parentId attrName childName :: outer →
      IsInnermost b.index outer parentId
  /-- Every slot on the stack is one of the index. -/
  slots : ∀ slot parentId attrName childName,
    Frame.entity slot parentId attrName childName ∈ b.stack → IsSlotOf b.index slot
  /-- A frame is marked as direct just in case the next frame around it is that of an entity. -/
  direct : ∀ inner tag direct text outer, b.stack = inner ++ .plain tag direct text :: outer →
    (direct = true ↔ ∃ slot parentId attrName childName rest,
      outer = .entity slot parentId attrName childName :: rest)

/-- Directly inside an entity means that its frame is the innermost. -/
theorem insideEntity_iff :
    insideEntity frames = true ↔ ∃ slot parentId attrName childName rest,
      frames = .entity slot parentId attrName childName :: rest := by
  cases frames with
  | nil => simp [insideEntity]
  | cons frame outer => cases frame <;> simp [insideEntity]

/-- A slot that stores an entity is one of the index. -/
theorem Stores.isSlotOf (h : Stores index id slot) : IsSlotOf index slot := by
  cases h with
  | primary found _ =>
      exact Std.ExtTreeMap.mem_iff_isSome_getElem?.2 (Option.isSome_of_eq_some found)
  | duplicate found _ => exact (List.getElem?_eq_some_iff.1 found).1

/-- Frames that belong together are coherent. -/
theorem IsFramed.coherent (h : b.IsFramed) : b.Coherent where
  cursor := h.isInnermost
  parents := by
    intro inner slot parentId attrName childName outer hsplit
    obtain ⟨_, hframes⟩ := h.around hsplit
    cases hframes with
    | entity _ around => exact around.isInnermost
  slots := by
    intro slot parentId attrName childName hmem
    obtain ⟨inner, outer, hsplit⟩ := List.mem_iff_append.1 hmem
    obtain ⟨_, hframes⟩ := h.around hsplit
    cases hframes with
    | entity stored _ => exact stored.isSlotOf
  direct := by
    intro inner tag direct text outer hsplit
    obtain ⟨_, hframes⟩ := h.around hsplit
    cases hframes with
    | plain _ => exact insideEntity_iff

/-- An entity that stays open is reported by its id. -/
theorem IsFramed.frameName_eq (h : b.IsFramed) {parentId attrName : String} {childName : Option String}
    (hstack : b.stack = .entity slot parentId attrName childName :: outer) :
    frameName b.index (.entity slot parentId attrName childName) = b.currentParent := by
  unfold IsFramed at h
  rw [hstack] at h
  cases h with
  | entity stored _ =>
      obtain ⟨e, found, named⟩ := stored.exists_slotEntity?
      rw [frameName, found]
      exact named

/-- The builder whose innermost element an event closes: the builder as it is, or as it is once the event
has opened an element. -/
inductive ClosesIn (b : IndexBuilder) : Event → IndexBuilder → Prop
  | close : ClosesIn b .close b
  | empty {tag : Xml.Tag} {attributes : Keyed String}
      (decoded : decodeAttributes tag = .ok attributes) :
      ClosesIn b (.empty tag) (b.openElement (Xml.localName tag.name) attributes)

/-- The event's step is the closing of the builder that it closes in. -/
theorem ClosesIn.step_eq {event : Event} (h : b.ClosesIn event b') :
    b.step event = .ok b'.closeElement := by
  cases h with
  | close => exact step_eq_ok_iff.2 .close
  | empty decoded => exact step_eq_ok_iff.2 (.empty decoded)

/-- A builder in which an event closes an element has its frames together. -/
theorem ClosesIn.isFramed {event : Event} (h : b.ClosesIn event b') (hb : b.IsFramed) :
    b'.IsFramed := by
  cases h with
  | close => exact hb
  | empty => exact hb.openElement _ _

/-- An event that a document can have there closes an element that is open. -/
theorem ClosesIn.stack_ne_nil {event : Event} {depth : Nat} (h : b.ClosesIn event b')
    (hdepth : event.depthAfter? b.stack.length = some depth) : b'.stack ≠ [] := by
  cases h with
  | close =>
      intro hnil
      rw [hnil] at hdepth
      cases hdepth
  | empty => exact List.ne_nil_of_length_pos (by rw [stack_length_openElement]; omega)

variable {octets : Octets} {sourceFile revision : String}

/-- The frames belong together behind every beginning of a run. -/
theorem isFramed_run {seen : List Occurrence} (hrun : (start sourceFile revision).run seen = .ok b) :
    b.IsFramed :=
  (isFramed_start sourceFile revision).after? (run_eq_ok_iff.1 hrun)

/-- The next event of a document does not close more than the builder has open. -/
theorem exists_depthAfter?_next {seen rest : List Occurrence} {o : Occurrence}
    (hevents : (Xml.Reading.ofOctets octets).events = seen ++ o :: rest)
    (hrun : (start sourceFile revision).run seen = .ok b) :
    ∃ depth, o.event.depthAfter? b.stack.length = some depth := by
  obtain ⟨_, hdepth⟩ := exists_depthAfter?_of_append (hevents.trans (List.append_cons seen o rest))
  rw [List.map_append, Xml.depthAfter?_append] at hdepth
  obtain ⟨depth, hseen, hnext⟩ := Option.bind_eq_some_iff.1 hdepth
  rw [stack_length_after? (run_eq_ok_iff.1 hrun) hseen]
  obtain ⟨next, hnext, _⟩ := Option.bind_eq_some_iff.1 hnext
  exact ⟨next, hnext⟩

/-- **The frames of a builder are coherent.**  This is so behind every beginning of the events of a document
that the builder takes, and where it closes an element with the next event.  So an element closes without a
way out, and an entity that stays open is reported by its id. -/
theorem coherent_run {seen more : List Occurrence}
    (hevents : (Xml.Reading.ofOctets octets).events = seen ++ more)
    (hrun : (start sourceFile revision).run seen = .ok b) :
    b.Coherent ∧
    (∀ slot parentId attrName childName outer,
      b.stack = .entity slot parentId attrName childName :: outer →
        frameName b.index (.entity slot parentId attrName childName) = b.currentParent) ∧
    ∀ o rest c, more = o :: rest → b.ClosesIn o.event c →
      c.Coherent ∧ c.close? = some c.closeElement ∧ b.step o.event = .ok c.closeElement := by
  have hframed := isFramed_run hrun
  refine ⟨hframed.coherent, fun _ _ _ _ _ hstack => hframed.frameName_eq hstack, ?_⟩
  rintro o rest c rfl hcloses
  obtain ⟨_, hdepth⟩ := exists_depthAfter?_next hevents hrun
  have hclosing := hcloses.isFramed hframed
  exact ⟨hclosing.coherent, hclosing.close?_eq (hcloses.stack_ne_nil hdepth), hcloses.step_eq⟩

/-- An element inside another with the same id, with a child that gives the inner one its name. -/
def nestedTwins : Octets := Utf8.encode "<a code='1'><a code='1'><n>x</n></a></a>"

/-- Before the name is taken: the frame of the inner element has a slot of its own, and the id of the outer
one is both the cursor and what the inner frame keeps. -/
theorem coherent_run_nested_twins :
    ∃ seen rest b, (Xml.Reading.ofOctets nestedTwins).events = seen ++ ⟨.close, 32⟩ :: rest ∧
      (start "f" "v").run seen = .ok b ∧ b.currentParent = "a:1" ∧
      b.stack = [.plain "n" true "x", .entity (.duplicate 0) "a:1" "" none,
        .entity (.primary "a:1") "" "" none] ∧
      b.Coherent ∧ b.close? = some b.closeElement := by
  have hrest : (Xml.Reading.ofOctets nestedTwins).events.drop 4 =
      [⟨.close, 32⟩, ⟨.close, 36⟩, ⟨.close, 40⟩] := by
    decide +kernel
  have hshown : ((start "f" "v").run ((Xml.Reading.ofOctets nestedTwins).events.take 4)).toOption.map
      (fun b => (b.currentParent, b.stack)) =
        some ("a:1", [.plain "n" true "x", .entity (.duplicate 0) "a:1" "" none,
          .entity (.primary "a:1") "" "" none]) := by
    decide +kernel
  have hevents := (List.take_append_drop 4 (Xml.Reading.ofOctets nestedTwins).events).symm
  rw [hrest] at hevents
  cases hrun : (start "f" "v").run ((Xml.Reading.ofOctets nestedTwins).events.take 4) with
  | error fault =>
      rw [hrun] at hshown
      cases hshown
  | ok b =>
      rw [hrun] at hshown
      obtain ⟨hcursor, hstack⟩ := Prod.mk.inj (Option.some.inj hshown)
      obtain ⟨hcoherent, _, hnext⟩ := coherent_run hevents hrun
      obtain ⟨_, hclose, _⟩ := hnext _ _ b rfl .close
      exact ⟨_, _, b, hevents, hrun, hcursor, hstack, hcoherent, hclose⟩

end RegistryGraph.IndexBuilder
