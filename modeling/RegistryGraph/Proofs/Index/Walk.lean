import RegistryGraph.Proofs.Index.Records
import RegistryGraph.Proofs.Xml.Content

/-!
# The index of an element tree

`Walk.index` reads the index of a document off its element tree.  Every coded element gives one record;
the records stand in document order, and `EntityIndex.ofRecords` makes an index of them.  Nothing here
depends on the order in which a builder learns things: a record is given by its element alone and by
the id of the coded element around it.

The values of a record's attributes are given in one piece by `Walk.attributeTable`.  Adding the texts
of the descendants one by one gives the same table (`attributes_receive`).
-/

namespace RegistryGraph.Walk

open Xml (AttributePair Content)

/-- The value of an attribute: of several with one name the last one counts. -/
def value? (pairs : List AttributePair) (name : String) : Option String :=
  (pairs.reverse.find? (·.1 = name)).map (·.2)

/-- The code of an element with these attributes, if it is coded. -/
def code? (pairs : List AttributePair) : Option String := value? pairs Entity.codeKey

/-- The character data that stands directly in a content, in one piece. -/
def ownText : Content → String
  | .nil => ""
  | .text chunk rest => chunk ++ ownText rest
  | .element _ _ _ rest => ownText rest

/-- What an element with this content says: its own text without the blanks around it, unless nothing
is left. -/
def saying? (inner : Content) : Option String :=
  if (Text.trim (ownText inner)).isEmpty then none else some (Text.trim (ownText inner))

/-- The names and sayings of the uncoded elements that are inside no coded one, in the order in which
these elements end. -/
def sayings : Content → List (String × String)
  | .nil => []
  | .text _ rest => sayings rest
  | .element name attributes inner rest =>
    match code? attributes with
    | some _ => sayings rest
    | none => sayings inner ++ ((saying? inner).map (name, ·)).toList ++ sayings rest

/-- The first saying of a direct uncoded element with one of the tags that give names. -/
def childName? : Content → Option String
  | .nil => none
  | .text _ rest => childName? rest
  | .element name attributes inner rest =>
    if code? attributes = none ∧ (name = "n" ∨ name = "name") then
      (saying? inner).or (childName? rest)
    else childName? rest

/-- An attribute's own value and the texts added to it, with a comma between each two.  An empty value
does not count beside texts. -/
def joined? (own : Option String) (texts : List String) : Option String :=
  if own = none ∧ texts = [] then none
  else some (", ".intercalate (own.toList.filter (· ≠ "") ++ texts))

/-- The texts under a key, in their order. -/
def textsUnder (texts : List (String × String)) (key : String) : List String :=
  (texts.filter (·.1 = key)).map (·.2)

/-- The attributes of a record: those of its element, joined with the texts. -/
def attributeTable (pairs : List AttributePair) (texts : List (String × String)) : Keyed String :=
  Keyed.tabulate (pairs.map (·.1) ++ texts.map (·.1)) fun key =>
    joined? (value? pairs key) (textsUnder texts key)

/-- The name of a record: the attribute for it, or else what a child gives. -/
def nameOf (pairs : List AttributePair) (inner : Content) : String :=
  let given := Text.trim ((value? pairs Entity.nameKey).getD "")
  if given.isEmpty then (childName? inner).getD "" else given

/-- The record of a coded element. -/
def record (parentId name code : String) (pairs : List AttributePair) (inner : Content) :
    Entity where
  id := Entity.idOf name code
  type := name
  name := nameOf pairs inner
  parentId
  attributes := attributeTable pairs (sayings inner)
  children := []

/-- The records of the coded elements in document order, inside the entity `parentId`. -/
def records (parentId : String) : Content → List Entity
  | .nil => []
  | .text _ rest => records parentId rest
  | .element name attributes inner rest =>
    match code? attributes with
    | none => records parentId inner ++ records parentId rest
    | some code =>
      record parentId name code attributes inner ::
        (records (Entity.idOf name code) inner ++ records parentId rest)

/-- The index of a document. -/
def index (document : Content) (sourceFile revision : String) : EntityIndex :=
  .ofRecords (records "" document) sourceFile revision

/-! ## Texts that arrive one by one -/

/-- An entity after some texts have been added to its attributes. -/
def receive (texts : List (String × String)) (e : Entity) : Entity :=
  texts.foldl (fun e t => e.addText t.1 t.2) e

/-- An entity receives texts one list behind the other. -/
theorem receive_append (texts more : List (String × String)) (e : Entity) :
    receive (texts ++ more) e = receive more (receive texts e) :=
  List.foldl_append

/-- Receiving texts changes the attributes only. -/
theorem receive_eq (texts : List (String × String)) (e : Entity) :
    receive texts e = { e with attributes := (receive texts e).attributes } := by
  induction texts generalizing e with
  | nil => rfl
  | cons t rest ih =>
      have hstep : receive (t :: rest) e = receive rest (e.addText t.1 t.2) := rfl
      rw [hstep, ih]
      rfl

/-- Without texts an attribute keeps its own value. -/
theorem joined?_nil (own : Option String) : joined? own [] = own := by
  cases own with
  | none => rfl
  | some v => by_cases hv : v = "" <;> simp [joined?, hv]

/-- The first text may as well have been part of the attribute's own value. -/
theorem joined?_cons (own : Option String) {v : String} (hv : v ≠ "") (texts : List String) :
    joined? own (v :: texts) =
      joined? (some (if (own.getD "").isEmpty then v else own.getD "" ++ ", " ++ v)) texts := by
  cases own with
  | none => simp [joined?, hv]
  | some w =>
      by_cases hw : w = ""
      · simp [joined?, hv, hw]
      · simp [joined?, hw, String.intercalate_cons_append, String.append_assoc]

/-- A text is added behind the attribute of its name and touches no other. -/
theorem attribute?_addText (e : Entity) (name value key : String) :
    (e.addText name value).attributes[key]? =
      if name = key then
        some (if (e.attributes[key]?.getD "").isEmpty then value
          else e.attributes[key]?.getD "" ++ ", " ++ value)
      else e.attributes[key]? := by
  rw [Entity.addText, Std.ExtTreeMap.getElem?_insert]
  by_cases h : name = key
  · subst h
    simp [Entity.attributeD, Entity.attribute?]
  · simp [h]

/-- Texts that arrive one by one are joined in the end. -/
theorem attribute?_receive {texts : List (String × String)} (htexts : ∀ t ∈ texts, t.2 ≠ "")
    (e : Entity) (key : String) :
    (receive texts e).attributes[key]? = joined? e.attributes[key]? (textsUnder texts key) := by
  induction texts generalizing e with
  | nil => exact (joined?_nil _).symm
  | cons t rest ih =>
      have hstep : receive (t :: rest) e = receive rest (e.addText t.1 t.2) := rfl
      have hrest : ∀ t ∈ rest, t.2 ≠ "" := fun t ht => htexts t (List.mem_cons_of_mem _ ht)
      rw [hstep, ih hrest, attribute?_addText]
      by_cases h : t.1 = key
      · have hunder : textsUnder (t :: rest) key = t.2 :: textsUnder rest key := by
          simp [textsUnder, h]
        rw [hunder, joined?_cons _ (htexts t List.mem_cons_self), if_pos h]
      · simp [textsUnder, h]

/-- **One by one or in one piece.**  An element's own attributes and the texts it receives make the
table of its record. -/
theorem attributes_receive {texts : List (String × String)} (htexts : ∀ t ∈ texts, t.2 ≠ "")
    {pairs : List AttributePair} {e : Entity} (he : e.attributes = Keyed.ofPairs pairs) :
    (receive texts e).attributes = attributeTable pairs texts := by
  apply Std.ExtTreeMap.ext_getElem?
  intro key
  rw [attribute?_receive htexts, he, Keyed.getElem?_ofPairs, attributeTable,
    Keyed.getElem?_tabulate]
  split
  · rfl
  · next h =>
      simp only [List.mem_append, List.mem_map, not_or, not_exists, not_and] at h
      have hown : pairs.reverse.find? (·.1 = key) = none := by
        simpa using fun k v hp => h.1 (k, v) hp
      have hunder : textsUnder texts key = [] := by
        simpa [textsUnder] using fun k v ht => h.2 (k, v) ht
      rw [hown, hunder]
      rfl

/-- No saying is empty. -/
theorem sayings_ne_empty (content : Content) : ∀ t ∈ sayings content, t.2 ≠ "" := by
  induction content with
  | nil => simp [sayings]
  | text chunk rest ih => exact ih
  | element name attributes inner rest ihInner ihRest =>
      rw [sayings]
      cases code? attributes with
      | some code => exact ihRest
      | none =>
          intro t ht
          simp only [List.mem_append, Option.mem_toList, Option.map_eq_some_iff] at ht
          rcases ht with (ht | ⟨value, hvalue, rfl⟩) | ht
          · exact ihInner t ht
          · intro hempty
            simp only at hempty
            subst hempty
            simp [saying?] at hvalue
          · exact ihRest t ht

end RegistryGraph.Walk
