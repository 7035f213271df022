import RegistryGraph.Index.Basic
import RegistryGraph.Text.Blank
import RegistryGraph.Xml.Event

/-!
# Building an index

The builder reads the events of a document once, from left to right.  Its stack has one frame per open
element: the frame of a coded element remembers where its entity is stored and which parent to go back
to, the frame of any other element gathers the element's own text.  When such an element closes, its
text goes to the innermost open entity.

`EntityIndex.build` is the whole way from octets to an index.  A document that is not well formed has
no index.
-/

namespace RegistryGraph

/-- Why a document has no index. -/
inductive IndexFault where
  | document (fault : Xml.Fault)
  /-- The input ends inside an element, given by its id or its tag. -/
  | unclosed (name : String)
deriving DecidableEq, Repr

/-- The wording of an index fault. -/
def IndexFault.message : IndexFault → String
  | .document fault => fault.message
  | .unclosed name => s!"unexpected end of document: <{name}> is not closed"

/-- An index fault and its offset. -/
structure IndexError where
  fault : IndexFault
  position : Nat
deriving DecidableEq, Repr

/-- Where the entity of an open element is stored. -/
inductive Slot where
  | primary (id : String)
  | duplicate (number : Nat)
deriving DecidableEq, Repr

/-- An open element. -/
inductive Frame where
  /-- A coded element: its entity's slot, the id of the entity around it, the name its attribute
  gives, and the name that a child has given. -/
  | entity (slot : Slot) (parentId attrName : String) (childName : Option String)
  /-- Any other element: its tag, whether it stands directly in a coded element, and its own text. -/
  | plain (tag : String) (direct : Bool) (text : String)
deriving DecidableEq, Repr

/-- The state of a builder. -/
structure IndexBuilder where
  index : EntityIndex
  /-- The open elements, innermost first. -/
  stack : List Frame
  /-- The id of the innermost open entity; empty if there is none. -/
  currentParent : String

namespace IndexBuilder

/-- The tags of the children that name an entity. -/
def nameTags : List String := ["n", "name"]

/-- The builder before the first event. -/
def start (sourceFile revision : String) : IndexBuilder :=
  ⟨.empty sourceFile revision, [], ""⟩

/-- Stores an entity: under its id if that is free, among the duplicates otherwise. -/
def register (index : EntityIndex) (e : Entity) : EntityIndex × Slot :=
  if index.entities.contains e.id then
    ({ index with duplicates := index.duplicates ++ [e] }, .duplicate index.duplicates.length)
  else
    let linked :=
      if e.parentId.isEmpty then index
      else
        { index with
          byParent := index.byParent.append e.parentId e.id
          entities := index.entities.modify e.parentId fun p =>
            { p with children := p.children ++ [e.id] } }
    ({ linked with
        byType := linked.byType.append e.type e.id
        entities := linked.entities.insert e.id e },
      .primary e.id)

/-- The entity in a slot. -/
def slotEntity? (index : EntityIndex) : Slot → Option Entity
  | .primary id => index.get? id
  | .duplicate number => index.duplicates[number]?

/-- Changes the entity in a slot. -/
def updateSlot (index : EntityIndex) (slot : Slot) (f : Entity → Entity) : EntityIndex :=
  match slot with
  | .primary id => { index with entities := index.entities.modify id f }
  | .duplicate number => { index with duplicates := index.duplicates.modify number f }

/-- Whether the innermost open element is coded. -/
def insideEntity : List Frame → Bool
  | .entity .. :: _ => true
  | _ => false

/-- Opens an element. -/
def openElement (b : IndexBuilder) (tag : String) (attributes : Keyed String) : IndexBuilder :=
  match attributes[Entity.codeKey]? with
  | none => { b with stack := .plain tag (insideEntity b.stack) "" :: b.stack }
  | some code =>
    let id := Entity.idOf tag code
    let attrName := Text.trim ((attributes[Entity.nameKey]?).getD "")
    let (index, slot) := register b.index ⟨id, tag, "", b.currentParent, attributes, []⟩
    ⟨index, .entity slot b.currentParent attrName none :: b.stack, id⟩

/-- Adds characters to the innermost open element, unless that is coded. -/
def addText (b : IndexBuilder) (chunk : String) : IndexBuilder :=
  match b.stack with
  | .plain tag direct text :: outer => { b with stack := .plain tag direct (text ++ chunk) :: outer }
  | _ => b

/-- The slot of the innermost open entity. -/
def innermostSlot? : List Frame → Option Slot
  | [] => none
  | .entity slot .. :: _ => some slot
  | .plain .. :: outer => innermostSlot? outer

/-- Gives the innermost open element, if it is coded, a name from a child; the first one stays. -/
def offerName (value : String) : List Frame → List Frame
  | .entity slot parentId attrName none :: outer =>
    .entity slot parentId attrName (some value) :: outer
  | frames => frames

/-- Closes the innermost open element. -/
def closeElement (b : IndexBuilder) : IndexBuilder :=
  match b.stack with
  | [] => b
  | .entity slot parentId attrName childName :: outer =>
    let name := if attrName.isEmpty then childName.getD "" else attrName
    ⟨updateSlot b.index slot fun e => { e with name }, outer, parentId⟩
  | .plain tag direct text :: outer =>
    let value := Text.trim text
    if value.isEmpty then { b with stack := outer }
    else
      let outer := if direct && nameTags.contains tag then offerName value outer else outer
      match innermostSlot? outer with
      | none => { b with stack := outer }
      | some slot =>
        { b with index := updateSlot b.index slot (·.addText tag value), stack := outer }

/-- The decoded attributes of a tag under their local names; of two with one name the later counts.
Namespace declarations are left out. -/
def decodeAttributes (t : Xml.Tag) : Except Xml.Fault (Keyed String) :=
  let raw := t.attributes
  match (raw.list.filter (!·.isNamespace)).mapM fun a =>
      (Xml.Reference.decode a.value).map (Xml.localName a.key, ·) with
  | .error fault => .error fault
  | .ok pairs =>
    match raw.fault with
    | some fault => .error (.attribute fault)
    | none => .ok (Keyed.ofPairs pairs)

/-- Takes one event. -/
def step (b : IndexBuilder) : Xml.Event → Except Xml.Fault IndexBuilder
  | .start tag =>
    (decodeAttributes tag).map fun attributes => b.openElement (Xml.localName tag.name) attributes
  | .empty tag =>
    (decodeAttributes tag).map fun attributes =>
      (b.openElement (Xml.localName tag.name) attributes).closeElement
  | .close => .ok b.closeElement
  | .text raw => (Xml.Reference.decode raw).map b.addText
  | .cdata raw => .ok (b.addText (Utf8.decodeLossy raw))

/-- Takes the events of a document up to the first fault. -/
def run (b : IndexBuilder) : List Xml.Occurrence → Except IndexError IndexBuilder
  | [] => .ok b
  | o :: rest =>
    match b.step o.event with
    | .ok b => run b rest
    | .error fault => .error ⟨.document fault, o.position⟩

/-- The id or the tag of an open element. -/
def frameName (index : EntityIndex) : Frame → String
  | .entity slot .. => ((slotEntity? index slot).map (·.id)).getD ""
  | .plain tag .. => tag

end IndexBuilder

/-- The index of a document. -/
def EntityIndex.build (octets : Octets) (sourceFile revision : String) :
    Except IndexError EntityIndex :=
  let reading := Xml.Reading.ofOctets octets
  match (IndexBuilder.start sourceFile revision).run reading.events with
  | .error e => .error e
  | .ok b =>
    match reading.ending with
    | .broken fault position => .error ⟨.document fault, position⟩
    | .complete position =>
      match b.stack with
      | [] => .ok b.index
      | frame :: _ => .error ⟨.unclosed (IndexBuilder.frameName b.index frame), position⟩

end RegistryGraph
