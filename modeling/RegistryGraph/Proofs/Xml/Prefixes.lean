import Mathlib.Data.List.Forall2
import RegistryGraph.Proofs.Xml.Documents

/-!
# Prefixes

A reader sees the local parts of names.  `Document.Requalifies` relates two documents that are spelled alike
up to what such a reader does not see: the prefixes of elements, the same in a start tag and its end tag, those
of attributes, the attributes that declare namespaces, and the blanks and the kind of the quotes within tags.
By `Document.exists_events` the second one is read to its end if the first one is, and tells the same events up
to the prefixes.
-/

namespace RegistryGraph.Xml

/-! ## Tags -/

/-- The attributes that declare no namespace, as a reader sees them: with their local names. -/
def Tag.localAttributes (t : Tag) : List (Octets × Octets) :=
  (t.attributes.list.filter (!·.isNamespace)).map fun a => (localPart a.key, a.value)

/-- The tags have the same local name, and the same attributes up to prefixes and declarations. -/
structure Tag.Requalifies (t t' : Tag) : Prop where
  name : localPart t.name = localPart t'.name
  attributes : t.localAttributes = t'.localAttributes

instance (t t' : Tag) : Decidable (t.Requalifies t') :=
  decidable_of_iff (localPart t.name = localPart t'.name ∧ t.localAttributes = t'.localAttributes)
    ⟨fun h => ⟨h.1, h.2⟩, fun h => ⟨h.name, h.attributes⟩⟩

/-- The events are the same, or their tags are up to prefixes and declarations. -/
inductive Event.Requalifies : Event → Event → Prop
  | refl (e : Event) : Event.Requalifies e e
  | start {t t' : TagSpelling} (h : t.tag.Requalifies t'.tag) :
      Event.Requalifies (.start t.tag) (.start t'.tag)
  | empty {t t' : TagSpelling} (h : t.tag.Requalifies t'.tag) :
      Event.Requalifies (.empty t.tag) (.empty t'.tag)

/-! ## Documents -/

/-- Markup with other prefixes behind some open elements, each given by its two names, and the open elements
behind it. -/
inductive Markup.Requalifies :
    List (Octets × Octets) → Markup → Markup → List (Octets × Octets) → Prop
  | start {names : List (Octets × Octets)} {t t' : TagSpelling} {plain plain'}
      (h : t.tag.Requalifies t'.tag) :
      Markup.Requalifies names (.start t plain) (.start t' plain') ((t.name, t'.name) :: names)
  | empty {names : List (Octets × Octets)} {t t' : TagSpelling} {plain plain'}
      (h : t.tag.Requalifies t'.tag) :
      Markup.Requalifies names (.empty t plain) (.empty t' plain') names
  | close {names : List (Octets × Octets)} {name name' blanks blanks' : Octets}
      {isName isName' blank blank'} :
      Markup.Requalifies ((name, name') :: names) (.close name blanks isName blank)
        (.close name' blanks' isName' blank') names
  | aside {names : List (Octets × Octets)} (octets : Octets) (lexeme : Lexeme) (completes isAside) :
      Markup.Requalifies names (.aside octets lexeme completes isAside)
        (.aside octets lexeme completes isAside) names

/-- Pieces with the same character data whose markup has other prefixes. -/
inductive Piece.Requalifies : List (Octets × Octets) → List Piece → List Piece → Prop
  | nil {names : List (Octets × Octets)} : Piece.Requalifies names [] []
  | cons {names names' : List (Octets × Octets)} {p p' : Piece} {rest rest' : List Piece}
      (run : p.run = p'.run) (markup : p.markup.Requalifies names p'.markup names')
      (tail : Piece.Requalifies names' rest rest') :
      Piece.Requalifies names (p :: rest) (p' :: rest')

/-- The documents differ at most in prefixes, in declarations of namespaces, and in the blanks and the kind of
the quotes within tags. -/
structure Document.Requalifies (d d' : Document) : Prop where
  marked : d.marked = d'.marked
  pieces : Piece.Requalifies [] d.pieces d'.pieces
  tail : d.tail = d'.tail

/-! ## What documents with other prefixes tell -/

namespace Reading

/-- A plain start tag is told as it is and its name is left open. -/
theorem step_start {t : TagSpelling} (plain : t.tag.IsPlain) (names : List Octets) :
    step names (.tag t.content) = .ok (t.name :: names, some (.start t.tag)) := by
  have hevent : tagEvent t.content = .start t.tag := if_neg (TagSpelling.getLast?_content plain)
  rw [step, hevent]
  dsimp only
  rw [t.name_tag]

/-- A plain empty tag is told as it is and leaves no name open. -/
theorem step_empty (t : TagSpelling) (names : List Octets) :
    step names (.tag (t.content ++ [0x2F])) = .ok (names, some (.empty t.tag)) := by
  have hevent : tagEvent (t.content ++ [0x2F]) = .empty t.tag := by
    rw [tagEvent, if_pos List.getLast?_concat, List.dropLast_concat]
    rfl
  rw [step, hevent]

/-- An end tag closes the innermost open name if it is the same octet by octet. -/
theorem step_close {name blanks : Octets} (isName : IsElementName name) (blank : AllBlank blanks)
    (expected : Octets) (names : List Octets) :
    step (expected :: names) (.close (name ++ blanks)) =
      if name = expected then .ok (names, some .close)
      else .error (.mismatchedEnd (nameText expected) (nameText name)) := by
  simp only [step, Markup.endName_append isName blank]

/-- **One piece of markup** with other prefixes tells the same event up to prefixes. -/
theorem exists_step_of_requalifies {names names' : List (Octets × Octets)} {m m' : Markup}
    (h : m.Requalifies names m' names') {opened : List Octets} {event : Option Event}
    (hstep : step (names.map Prod.fst) m.lexeme = .ok (opened, event)) :
    opened = names'.map Prod.fst ∧ ∃ event',
      step (names.map Prod.snd) m'.lexeme = .ok (names'.map Prod.snd, event') ∧
        List.Forall₂ Event.Requalifies event.toList event'.toList := by
  cases h with
  | @start _ t t' plain plain' h =>
      rw [Markup.lexeme, step_start plain] at hstep
      cases hstep
      exact ⟨rfl, _, step_start plain' _, .cons (.start h) .nil⟩
  | @empty _ t t' plain plain' h =>
      rw [Markup.lexeme, step_empty] at hstep
      cases hstep
      exact ⟨rfl, _, step_empty t' _, .cons (.empty h) .nil⟩
  | @close _ name name' blanks blanks' isName isName' blank blank' =>
      rw [Markup.lexeme, List.map_cons, step_close isName blank, if_pos rfl] at hstep
      cases hstep
      refine ⟨rfl, some .close, ?_, .cons (.refl _) .nil⟩
      rw [Markup.lexeme, List.map_cons, step_close isName' blank', if_pos rfl]
  | aside octets lexeme completes isAside =>
      rw [Markup.lexeme] at hstep ⊢
      cases lexeme with
      | text | tag | close => cases isAside
      | cdata raw =>
          cases hstep
          exact ⟨rfl, _, rfl, .cons (.refl _) .nil⟩
      | ignored =>
          cases hstep
          exact ⟨rfl, _, rfl, .nil⟩

/-- Events requalify themselves: no prefix needs to change. -/
theorem forall₂_requalifies_refl (events : List Event) :
    List.Forall₂ Event.Requalifies events events := by
  induction events with
  | nil => exact .nil
  | cons e _ ih => exact .cons (.refl e) ih

/-- **Pieces with other prefixes** tell the same events up to prefixes. -/
theorem exists_events_of_requalifies {names : List (Octets × Octets)} {pieces pieces' : List Piece}
    (h : Piece.Requalifies names pieces pieces') (tail : Octets) {events : List Event}
    (hevents : eventsFrom? (names.map Prod.fst)
      ((pieces.map Piece.chunk).flatMap Chunk.lexemes ++ Lexer.textLexemes tail) = some events) :
    ∃ events', eventsFrom? (names.map Prod.snd)
      ((pieces'.map Piece.chunk).flatMap Chunk.lexemes ++ Lexer.textLexemes tail) = some events' ∧
        List.Forall₂ Event.Requalifies events events' := by
  induction h generalizing events with
  | @nil names =>
      refine ⟨events, ?_, forall₂_requalifies_refl events⟩
      rw [← hevents]
      exact (eventsFrom?_tail _ tail).trans (eventsFrom?_tail _ tail).symm
  | @cons names names' p p' rest rest' hrun hmarkup _ ih =>
      rw [List.map_cons, List.flatMap_cons, List.append_assoc, eventsFrom?_chunk_eq_some_iff] at hevents
      obtain ⟨opened, event, later, hstep, hlater, rfl⟩ := hevents
      obtain ⟨rfl, event', hstep', hevent⟩ := exists_step_of_requalifies hmarkup hstep
      obtain ⟨later', hlater', hrest⟩ := ih hlater
      refine ⟨textEvents p'.run ++ (event'.toList ++ later'), ?_, ?_⟩
      · rw [List.map_cons, List.flatMap_cons, List.append_assoc, eventsFrom?_chunk_eq_some_iff]
        exact ⟨_, event', later', hstep', hlater', rfl⟩
      · have hrun' : p.chunk.run = p'.run := hrun
        rw [hrun']
        exact List.rel_append (forall₂_requalifies_refl _) (List.rel_append hevent hrest)

end Reading

namespace Document

/-- **What a document with other prefixes tells**, if the document is read to its end. -/
theorem exists_events {d d' : Document} (h : d.Requalifies d')
    (hcomplete : (Reading.ofOctets d.octets).IsComplete) :
    (Reading.ofOctets d'.octets).IsComplete ∧
      List.Forall₂ Event.Requalifies (Reading.ofOctets d.octets).bareEvents
        (Reading.ofOctets d'.octets).bareEvents := by
  have hevents := d.isComplete_iff.1 ⟨hcomplete, rfl⟩
  obtain ⟨events', hevents', hrelated⟩ :=
    Reading.exists_events_of_requalifies h.pieces d.tail hevents
  rw [h.tail] at hevents'
  obtain ⟨hcomplete', rfl⟩ := d'.isComplete_iff.2 hevents'
  exact ⟨hcomplete', hrelated⟩

end Document

end RegistryGraph.Xml
