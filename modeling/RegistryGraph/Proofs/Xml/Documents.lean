import RegistryGraph.Proofs.Xml.Content
import RegistryGraph.Proofs.Xml.Pieces

/-!
# Documents as they are spelled

A document is a row of pieces, each a run of character data and the markup behind it, and a run of character
data at the end; a mark of the octet order may stand in front.  `Document.isComplete_iff` says what is read of
it.  By `exists_document` every document that is read to its end, with tags in order whose names can stand in
tags, is spelled in this way.
-/

namespace RegistryGraph.Xml

open Lexer (Completes Mode lexemesFrom? next? textLexemes)

/-! ## Chunks -/

/-- A run of character data, and markup that is only known to complete a lexeme. -/
structure Chunk where
  run : Octets
  isText : 0x3C ∉ run
  inner : Octets
  lexeme : Lexeme
  completes : Completes .opened inner lexeme

namespace Chunk

/-- The octets of a chunk. -/
def octets (c : Chunk) : Octets := c.run ++ 0x3C :: c.inner

/-- The lexemes of a chunk. -/
def lexemes (c : Chunk) : List Lexeme := textLexemes c.run ++ [c.lexeme]

end Chunk

namespace Lexer

/-- Text runs up to the next opening bracket. -/
theorem lexemesFrom?_text {front : Octets} (h : 0x3C ∉ front) (run rest : Octets) :
    lexemesFrom? (.text run) (front ++ 0x3C :: rest) =
      (lexemesFrom? .opened rest).map (textLexemes (run.reverse ++ front) ++ ·) := by
  induction front generalizing run with
  | nil =>
      rw [List.nil_append, lexemesFrom?, next?_text, if_pos rfl, List.append_nil, textLexemes,
        List.isEmpty_reverse]
      cases run.isEmpty <;> rfl
  | cons b front ih =>
      rw [List.mem_cons, not_or] at h
      rw [List.cons_append, lexemesFrom?, next?_text, if_neg (Ne.symm h.1), Option.bind_some,
        ih h.2, List.reverse_cons, List.append_assoc]
      simp [Function.comp_def]

/-- Text that no bracket follows runs to the end. -/
theorem lexemesFrom?_tail {tail : Octets} (h : 0x3C ∉ tail) (run : Octets) :
    lexemesFrom? (.text run) tail = some (textLexemes (run.reverse ++ tail)) := by
  induction tail generalizing run with
  | nil => rw [List.append_nil]; rfl
  | cons b tail ih =>
      rw [List.mem_cons, not_or] at h
      rw [lexemesFrom?, next?_text, if_neg (Ne.symm h.1), Option.bind_some, ih h.2, List.reverse_cons,
        List.append_assoc]
      rfl

/-- **Chunks are read one by one.** -/
theorem lexemesFrom?_chunks (chunks : List Chunk) {tail : Octets} (h : 0x3C ∉ tail) :
    lexemesFrom? (.text []) (chunks.flatMap Chunk.octets ++ tail) =
      some (chunks.flatMap Chunk.lexemes ++ textLexemes tail) := by
  induction chunks with
  | nil => exact lexemesFrom?_tail h []
  | cons c rest ih =>
      rw [List.flatMap_cons, Chunk.octets, List.append_assoc, List.append_assoc, List.cons_append,
        lexemesFrom?_text c.isText, c.completes.lexemesFrom?, ih]
      simp [Chunk.lexemes]

/-- **What is read is made of chunks.**  The second half speaks of octets that begin within markup. -/
theorem exists_chunks (octets : Octets) :
    (∀ run, lexemesFrom? (.text run) octets ≠ none → ∃ (chunks : List Chunk) (tail : Octets),
      0x3C ∉ tail ∧ octets = chunks.flatMap Chunk.octets ++ tail) ∧
    ∀ mode, mode.isText = false → lexemesFrom? mode octets ≠ none →
      ∃ (inner : Octets) (lexeme : Lexeme) (chunks : List Chunk) (tail : Octets),
        Completes mode inner lexeme ∧ 0x3C ∉ tail ∧
          octets = inner ++ (chunks.flatMap Chunk.octets ++ tail) := by
  induction octets with
  | nil =>
      refine ⟨fun run _ => ⟨[], [], List.not_mem_nil, rfl⟩, fun mode hmode h => ?_⟩
      cases mode with
      | text run => cases hmode
      | opened | tag | close | instruction | bang | comment | cdata | doctype => exact absurd rfl h
  | cons b rest ih =>
      obtain ⟨ihText, ihMarkup⟩ := ih
      constructor
      · intro run h
        rw [lexemesFrom?, next?_text] at h
        split at h
        · next hopen =>
            subst hopen
            have hrest : lexemesFrom? .opened rest ≠ none := fun hnone => h (by simp [hnone])
            obtain ⟨inner, lexeme, chunks, tail, hcompletes, htail, rfl⟩ := ihMarkup .opened rfl hrest
            exact ⟨⟨[], List.not_mem_nil, inner, lexeme, hcompletes⟩ :: chunks, tail, htail,
              by simp [Chunk.octets]⟩
        · next hother =>
            have hrest : lexemesFrom? (.text (b :: run)) rest ≠ none :=
              fun hnone => h (by simp [hnone])
            obtain ⟨chunks, tail, htail, rfl⟩ := ihText (b :: run) hrest
            cases chunks with
            | nil => exact ⟨[], b :: tail, by simp [Ne.symm hother, htail], rfl⟩
            | cons c chunks =>
                exact ⟨⟨b :: c.run, by simp [Ne.symm hother, c.isText], c.inner, c.lexeme, c.completes⟩ ::
                  chunks, tail, htail, by simp [Chunk.octets]⟩
      · intro mode hmode h
        rw [lexemesFrom?] at h
        cases hnext : next? mode b with
        | none => exact absurd (by rw [hnext]; rfl) h
        | some r =>
            obtain ⟨mode', found⟩ := r
            rw [hnext, Option.bind_some] at h
            have hrest : lexemesFrom? mode' rest ≠ none := fun hnone => h (by simp [hnone])
            rcases next?_markup hmode hnext with ⟨rfl, hmode'⟩ | ⟨hsome, rfl⟩
            · obtain ⟨inner, lexeme, chunks, tail, hcompletes, htail, rfl⟩ :=
                ihMarkup mode' hmode' hrest
              exact ⟨b :: inner, lexeme, chunks, tail, .step hnext hcompletes, htail, rfl⟩
            · obtain ⟨lexeme, rfl⟩ := Option.isSome_iff_exists.1 hsome
              obtain ⟨chunks, tail, htail, rfl⟩ := ihText [] hrest
              exact ⟨[b], lexeme, chunks, tail, .last hnext, htail, rfl⟩

end Lexer

/-! ## Events of a chunk -/

namespace Reading

/-- Character data as an event. -/
def textEvents (raw : Octets) : List Event := if raw.isEmpty then [] else [.text raw]

/-- A text between tags tells its events and leaves the open names alone. -/
theorem eventsFrom?_text (names : List Octets) (raw : Octets) (lexemes : List Lexeme) :
    eventsFrom? names (textLexemes raw ++ lexemes) =
      (eventsFrom? names lexemes).map (textEvents raw ++ ·) := by
  unfold textLexemes textEvents
  split
  · simp
  · rw [List.singleton_append, eventsFrom?]
    rfl

/-- A text at the end tells its events and nothing more. -/
theorem eventsFrom?_tail (names : List Octets) (raw : Octets) :
    eventsFrom? names (textLexemes raw) = some (textEvents raw) := by
  have htext := eventsFrom?_text names raw []
  rwa [List.append_nil, eventsFrom?, Option.map_some, List.append_nil] at htext

/-- **Chunks tell their events one by one.** -/
theorem eventsFrom?_chunk_eq_some_iff {names : List Octets} {c : Chunk} {lexemes : List Lexeme}
    {events : List Event} :
    eventsFrom? names (c.lexemes ++ lexemes) = some events ↔
      ∃ names' event later, step names c.lexeme = .ok (names', event) ∧
        eventsFrom? names' lexemes = some later ∧
          events = textEvents c.run ++ (event.toList ++ later) := by
  rw [Chunk.lexemes, List.append_assoc, eventsFrom?_text, List.singleton_append, eventsFrom?]
  cases step names c.lexeme with
  | error fault => simp [Except.toOption]
  | ok r =>
      obtain ⟨names', event⟩ := r
      simp only [Except.toOption, Option.bind_some, Option.map_eq_some_iff, Except.ok.injEq,
        Prod.mk.injEq]
      constructor
      · rintro ⟨_, ⟨later, hlater, rfl⟩, rfl⟩
        exact ⟨names', event, later, ⟨rfl, rfl⟩, hlater, rfl⟩
      · rintro ⟨_, _, later, ⟨rfl, rfl⟩, hlater, rfl⟩
        exact ⟨_, ⟨later, hlater, rfl⟩, rfl⟩

end Reading

/-! ## Pieces -/

/-- A run of character data and a piece of markup. -/
structure Piece where
  run : Octets
  isText : 0x3C ∉ run
  markup : Markup

/-- The piece as a chunk. -/
def Piece.chunk (p : Piece) : Chunk :=
  ⟨p.run, p.isText, p.markup.octets, p.markup.lexeme, p.markup.completes⟩

/-- The run of character data that stands in front. -/
def frontRun (tail : Octets) : List Piece → Octets
  | [] => tail
  | p :: _ => p.run

/-- The octets of pieces and of the character data behind them. -/
def octetsOf (tail : Octets) (pieces : List Piece) : Octets :=
  (pieces.map Piece.chunk).flatMap Chunk.octets ++ tail

/-- Pieces begin with their first run of character data, and then they are at their end or go on with a
`<`. -/
theorem octetsOf_eq (tail : Octets) (pieces : List Piece) :
    ∃ rest, octetsOf tail pieces = frontRun tail pieces ++ rest ∧ ∀ b ∈ rest.head?, b = 0x3C := by
  cases pieces with
  | nil => exact ⟨[], by simp [octetsOf, frontRun], by simp⟩
  | cons p rest =>
      exact ⟨0x3C :: (p.markup.octets ++ octetsOf tail rest),
        by simp [octetsOf, frontRun, Piece.chunk, Chunk.octets], by simp⟩

/-- A document as it is spelled. -/
structure Document where
  /-- Whether a mark of the octet order stands in front. -/
  marked : Bool
  pieces : List Piece
  tail : Octets
  isText : 0x3C ∉ tail
  unmarked : marked = false → ¬Lexed.byteOrderMark <+: frontRun tail pieces

namespace Document

variable (d : Document)

/-- The octets behind the mark. -/
def body : Octets := octetsOf d.tail d.pieces

/-- The octets of the document. -/
def octets : Octets := if d.marked then Lexed.byteOrderMark ++ d.body else d.body

/-- The lexemes of the document. -/
def lexemes : List Lexeme := (d.pieces.map Piece.chunk).flatMap Chunk.lexemes ++ textLexemes d.tail

/-- Without a mark a document does not begin like one: no octet of the mark is a `<`. -/
theorem not_byteOrderMark_prefix (h : d.marked = false) : ¬Lexed.byteOrderMark <+: d.body := by
  intro hprefix
  obtain ⟨rest, hbody, hhead⟩ := octetsOf_eq d.tail d.pieces
  rw [body, hbody] at hprefix
  rcases List.prefix_or_prefix_of_prefix hprefix (List.prefix_append _ rest) with hrun | ⟨more, hmore⟩
  · exact d.unmarked h hrun
  · rw [← hmore, List.prefix_append_right_inj] at hprefix
    cases more with
    | nil => exact d.unmarked h (by simp [← hmore])
    | cons b more =>
        obtain ⟨behind, hrest⟩ := hprefix
        have hb : b = 0x3C := hhead b (by rw [← hrest]; rfl)
        have hmem : (0x3C : UInt8) ∈ Lexed.byteOrderMark := by
          rw [← hmore, ← hb]
          exact List.mem_append_right _ List.mem_cons_self
        revert hmem
        decide

/-- Behind its byte order mark, if it has one, a document is its body. -/
theorem body_octets : Lexed.body d.octets = d.body := by
  unfold Lexed.body octets
  cases hmarked : d.marked with
  | true =>
      rw [if_pos rfl, if_pos (List.isPrefixOf_iff_prefix.2 (List.prefix_append _ _))]
      rfl
  | false =>
      rw [if_neg Bool.false_ne_true, if_neg]
      exact fun h => d.not_byteOrderMark_prefix hmarked (List.isPrefixOf_iff_prefix.1 h)

/-- **What is read of a document** as it is spelled. -/
theorem isComplete_iff {events : List Event} :
    ((Reading.ofOctets d.octets).IsComplete ∧ (Reading.ofOctets d.octets).bareEvents = events) ↔
      Reading.eventsFrom? [] d.lexemes = some events := by
  rw [Reading.reads_iff, body_octets, body, octetsOf, Lexer.lexemesFrom?_chunks _ d.isText]
  simp [lexemes]

end Document

/-! ## Every document is spelled -/

/-- The names in an event can stand in tags. -/
def Event.IsPlain : Event → Prop
  | .start tag | .empty tag => tag.IsPlain
  | .close | .text _ | .cdata _ => True

instance : DecidablePred Event.IsPlain
  | .start tag | .empty tag => inferInstanceAs (Decidable tag.IsPlain)
  | .close | .text _ | .cdata _ => inferInstanceAs (Decidable True)

namespace Markup

variable {inner : Octets} {lexeme : Lexeme} {content : Octets} {names names' : List Octets}

/-- A tag in order is spelled as markup. -/
theorem exists_of_tag (hdecodes : (Reading.tagEvent content).Decodes)
    (hplain : (Reading.tagEvent content).IsPlain) :
    ∃ m : Markup, m.octets = content ++ [0x3E] ∧ m.lexeme = .tag content := by
  unfold Reading.tagEvent at hdecodes hplain
  split at hdecodes
  · next hslash =>
      rw [if_pos hslash] at hplain
      obtain ⟨_, hshows⟩ := hdecodes
      obtain ⟨t, ht⟩ := Tag.exists_spelling hshows.faultless
      have hcontent : t.content ++ [0x2F] = content := by
        have hdrop : t.content = content.dropLast := congrArg Tag.content ht
        obtain ⟨front, hfront⟩ := List.getLast?_eq_some_iff.1 hslash
        rw [hdrop, hfront, List.dropLast_concat]
      have hnames : t.tag.IsPlain := ht ▸ hplain
      exact ⟨.empty t hnames, by rw [octets, hcontent], by rw [Markup.lexeme, hcontent]⟩
  · next hslash =>
      rw [if_neg hslash] at hplain
      obtain ⟨_, hshows⟩ := hdecodes
      obtain ⟨t, ht⟩ := Tag.exists_spelling hshows.faultless
      have hcontent : t.content = content := congrArg Tag.content ht
      have hnames : t.tag.IsPlain := ht ▸ hplain
      exact ⟨.start t hnames, by rw [octets, hcontent], by rw [Markup.lexeme, hcontent]⟩

/-- The name in an end tag is what stands in front of the blanks. -/
theorem endName_append {name blanks : Octets} (hname : IsElementName name) (hblanks : AllBlank blanks) :
    Reading.endName (name ++ blanks) = name := by
  have hsolid : ∀ b ∈ name.reverse.head?, isBlank b = false := fun b hb =>
    hname.solid b (List.mem_reverse.1 (List.mem_of_mem_head? hb))
  have hdrop : ((name ++ blanks).reverse.dropWhile isBlank).reverse = name := by
    rw [List.reverse_append, dropWhile_front (fun b hb => hblanks b (List.mem_reverse.1 hb)) hsolid,
      List.reverse_reverse]
  rw [Reading.endName, hdrop]
  exact if_neg (by simpa using hname.nonempty)

/-- An end tag that repeats a name is spelled as markup. -/
theorem exists_of_close (h : IsElementName (Reading.endName content)) :
    ∃ m : Markup, m.octets = 0x2F :: (content ++ [0x3E]) ∧ m.lexeme = .close content := by
  have hcontent : content = (content.reverse.dropWhile isBlank).reverse ++
      (content.reverse.takeWhile isBlank).reverse := by
    rw [← List.reverse_append, List.takeWhile_append_dropWhile, List.reverse_reverse]
  have hblanks : AllBlank (content.reverse.takeWhile isBlank).reverse := fun b hb =>
    allBlank_takeWhile _ b (List.mem_reverse.1 hb)
  unfold Reading.endName at h
  dsimp only at h
  split at h
  · next hempty =>
      -- A name that is all blank is none.
      rw [List.isEmpty_iff.1 hempty, List.nil_append] at hcontent
      obtain ⟨b, rest, hcons⟩ := List.exists_cons_of_ne_nil h.nonempty
      have hmem : b ∈ content := hcons ▸ List.mem_cons_self
      have hblank := hblanks b (hcontent ▸ hmem)
      rw [h.solid b hmem] at hblank
      cases hblank
  · refine ⟨.close _ _ h hblanks, ?_, ?_⟩
    · rw [octets, ← hcontent]
    · rw [Markup.lexeme, ← hcontent]

/-- **Markup with plain names is spelled.**  The names of the open elements can stand in tags, and so can that
of an element which is opened. -/
theorem exists_of_completes (h : Completes .opened inner lexeme) {event : Option Event}
    (hnames : ∀ name ∈ names, IsElementName name)
    (hstep : Reading.step names lexeme = .ok (names', event))
    (hplain : ∀ e ∈ event, e.Decodes ∧ e.IsPlain) :
    (∃ m : Markup, m.octets = inner ∧ m.lexeme = lexeme) ∧ ∀ name ∈ names', IsElementName name := by
  rcases Lexer.cases_of_completes_opened h with ⟨content, rfl, rfl⟩ | ⟨content, rfl, rfl⟩ | haside
  · have htag : (Reading.tagEvent content).Decodes ∧ (Reading.tagEvent content).IsPlain := by
      rw [Reading.step] at hstep
      split at hstep <;>
      · cases hstep
        exact hplain _ rfl
    refine ⟨exists_of_tag htag.1 htag.2, ?_⟩
    rw [Reading.step] at hstep
    split at hstep
    · next tag hevent =>
        cases hstep
        rw [hevent] at htag
        exact List.forall_mem_cons.2 ⟨htag.2.name, hnames⟩
    · cases hstep
      exact hnames
  · cases names with
    | nil => cases hstep
    | cons expected outer =>
        obtain ⟨hexpected, houter⟩ := List.forall_mem_cons.1 hnames
        simp only [Reading.step] at hstep
        split at hstep
        · next hname =>
            cases hstep
            exact ⟨exists_of_close (hname ▸ hexpected), houter⟩
        · cases hstep
  · refine ⟨⟨.aside inner lexeme h haside, rfl, rfl⟩, ?_⟩
    cases lexeme with
    | text | tag | close => cases haside
    | cdata | ignored =>
        cases hstep
        exact hnames

end Markup

/-- **Chunks with plain names are pieces.** -/
theorem exists_pieces {chunks : List Chunk} {more : List Lexeme} {names : List Octets}
    {events : List Event} (hnames : ∀ name ∈ names, IsElementName name)
    (h : Reading.eventsFrom? names (chunks.flatMap Chunk.lexemes ++ more) = some events)
    (hplain : ∀ e ∈ events, e.Decodes ∧ e.IsPlain) : ∃ pieces : List Piece, pieces.map Piece.chunk = chunks := by
  induction chunks generalizing names events with
  | nil => exact ⟨[], rfl⟩
  | cons c rest ih =>
      rw [List.flatMap_cons, List.append_assoc, Reading.eventsFrom?_chunk_eq_some_iff] at h
      obtain ⟨names', event, later, hstep, hlater, rfl⟩ := h
      simp only [List.forall_mem_append] at hplain
      obtain ⟨_, hevent, hrest⟩ := hplain
      obtain ⟨⟨m, hoctets, hlexeme⟩, hnames'⟩ :=
        Markup.exists_of_completes c.completes hnames hstep (by simpa using hevent)
      obtain ⟨pieces, rfl⟩ := ih hnames' hlater hrest
      refine ⟨⟨c.run, c.isText, m⟩ :: pieces, ?_⟩
      obtain ⟨run, isText, inner, lexeme, completes⟩ := c
      subst hoctets hlexeme
      rfl

/-- **Every document with plain names is spelled**, if it is read to its end and decodes. -/
theorem exists_document {octets : Octets} (hcomplete : (Reading.ofOctets octets).IsComplete)
    (hplain : ∀ e ∈ (Reading.ofOctets octets).bareEvents, e.Decodes ∧ e.IsPlain) :
    ∃ d : Document, d.octets = octets := by
  obtain ⟨lexemes, hlexemes, hevents⟩ := Reading.reads_iff.1 ⟨hcomplete, rfl⟩
  obtain ⟨chunks, tail, htail, hbody⟩ :=
    (Lexer.exists_chunks (Lexed.body octets)).1 [] (by rw [hlexemes]; simp)
  rw [hbody, Lexer.lexemesFrom?_chunks chunks htail] at hlexemes
  cases hlexemes
  obtain ⟨pieces, rfl⟩ := exists_pieces (by simp) hevents hplain
  unfold Lexed.body at hbody
  split at hbody
  · next hmark =>
      refine ⟨⟨true, pieces, tail, htail, by simp⟩, ?_⟩
      obtain ⟨rest, rfl⟩ := List.isPrefixOf_iff_prefix.1 hmark
      exact congrArg (Lexed.byteOrderMark ++ ·) hbody.symm
  · next hmark =>
      refine ⟨⟨false, pieces, tail, htail, fun _ hprefix => hmark ?_⟩, hbody.symm⟩
      obtain ⟨rest, hfront, _⟩ := octetsOf_eq tail pieces
      rw [List.isPrefixOf_iff_prefix, hbody]
      exact hprefix.trans ⟨rest, hfront.symm⟩

end RegistryGraph.Xml
