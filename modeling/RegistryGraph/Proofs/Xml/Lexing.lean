import Mathlib.Tactic.SplitIfs
import RegistryGraph.Proofs.Xml.Nesting

/-!
# Lexing without offsets

Offsets only tell where something is.  `lexemesFrom?` is the lexer without them: the lexemes of some octets,
or nothing if there is a fault.  `eventsFrom?` is the second reading in the same manner.  Together they say
which events a document has if it is read to its end (`reads_iff`).

A piece of markup is what `Completes` a lexeme: the octets behind a `<` of which the last one, and no earlier
one, delivers it.
-/

namespace RegistryGraph.Xml

namespace Lexer

variable {mode mode' : Mode} {b : UInt8} {lexeme : Lexeme} {octets : Octets}

/-- What an octet does to the mode, and the lexeme that it completes. -/
def next? (mode : Mode) (b : UInt8) : Option (Mode × Option Lexeme) :=
  (step 0 b ⟨mode, 0⟩).toOption.map fun r => (r.1.mode, r.2)

/-- Offsets make no difference to the mode. -/
theorem step_eq (offset : Nat) (b : UInt8) (s : State) :
    (step offset b s).toOption.map (fun r => (r.1.mode, r.2)) = next? s.mode b := by
  obtain ⟨mode, start⟩ := s
  cases mode with
  | tag quoting run => rfl
  | text | opened | close | instruction | bang | comment =>
      simp only [next?, step]
      split_ifs <;> rfl
  | cdata run =>
      simp only [next?, step]
      split_ifs
      · cases cdataContent? run <;> rfl
      · rfl
  | doctype nested run =>
      simp only [next?, step]
      by_cases h : (decide (b = 0x3E) && decide (nested = 0)) = true
      · rw [if_pos h, if_pos h]
        cases doctypeFault? run with
        | none => rfl
        | some fault => cases fault <;> rfl
      · rw [if_neg h, if_neg h]
        rfl

/-- Character data as a lexeme: an empty run is none. -/
def textLexemes (raw : Octets) : List Lexeme := if raw.isEmpty then [] else [.text raw]

/-- The lexemes that the end of the input leaves, unless it comes too early. -/
def last? : Mode → Option (List Lexeme)
  | .text run => some (textLexemes run.reverse)
  | _ => none

/-- The lexemes of some octets, unless there is a fault. -/
def lexemesFrom? (mode : Mode) : Octets → Option (List Lexeme)
  | [] => last? mode
  | b :: rest => (next? mode b).bind fun r => (lexemesFrom? r.1 rest).map (r.2.toList ++ ·)

/-- The last of the octets completes the lexeme, and none before it completes any. -/
inductive Completes : Mode → Octets → Lexeme → Prop
  | last {mode : Mode} {b : UInt8} {lexeme : Lexeme}
      (h : next? mode b = some (.text [], some lexeme)) : Completes mode [b] lexeme
  | step {mode mode' : Mode} {b : UInt8} {octets : Octets} {lexeme : Lexeme}
      (h : next? mode b = some (mode', none)) (tail : Completes mode' octets lexeme) :
      Completes mode (b :: octets) lexeme

/-- What completes a lexeme is read as this lexeme, whatever follows. -/
theorem Completes.lexemesFrom? (h : Completes mode octets lexeme) (rest : Octets) :
    lexemesFrom? mode (octets ++ rest) = (Lexer.lexemesFrom? (.text []) rest).map (lexeme :: ·) := by
  induction h with
  | last h => simp [Lexer.lexemesFrom?, h]
  | step h _ ih => simp [Lexer.lexemesFrom?, h, ih, Function.comp_def]

/-- What is left when the input ends depends on the mode alone. -/
theorem last?_eq (s : State) : (finish s).toOption.map Option.toList = last? s.mode := by
  obtain ⟨mode, start⟩ := s
  cases mode with
  | text run =>
      simp only [finish, last?, textLexemes, List.isEmpty_reverse]
      split <;> rfl
  | opened | tag | close | instruction | bang | comment | cdata | doctype => rfl

end Lexer

namespace Lexed

/-- The lexemes of a document that is read without a fault. -/
def items? (l : Lexed) : Option (List Lexeme) :=
  if l.fault.isNone then some (l.lexemes.map (·.item)) else none

/-- A document without the mark of the octet order. -/
def body (octets : Octets) : Octets :=
  if byteOrderMark.isPrefixOf octets then octets.drop 3 else octets

/-- **Lexing without offsets** finds the same lexemes. -/
theorem items?_readFrom (offset : Nat) (s : Lexer.State) (done : List (Located Lexeme))
    (octets : Octets) :
    (readFrom offset s done octets).items? =
      (Lexer.lexemesFrom? s.mode octets).map (done.reverse.map (·.item) ++ ·) := by
  induction octets generalizing offset s done with
  | nil =>
      rw [readFrom, Lexer.lexemesFrom?, ← Lexer.last?_eq]
      cases hfinish : Lexer.finish s with
      | error fault => rfl
      | ok lexeme =>
          cases lexeme with
          | none => simp [items?, Except.toOption]
          | some lexeme => simp [items?, Except.toOption]
  | cons b rest ih =>
      rw [readFrom, Lexer.lexemesFrom?, ← Lexer.step_eq offset]
      cases hstep : Lexer.step offset b s with
      | error fault => rfl
      | ok r =>
          obtain ⟨s', lexeme⟩ := r
          cases lexeme with
          | none => simp [ih, Except.toOption]
          | some lexeme => simp [ih, Except.toOption, Function.comp_def]

/-- The items of a document are lexed from its body, beginning in text. -/
theorem items?_ofOctets (octets : Octets) :
    (ofOctets octets).items? = Lexer.lexemesFrom? (.text []) (body octets) := by
  refine (items?_readFrom 0 ⟨.text [], 0⟩ [] (body octets)).trans ?_
  simp

end Lexed

namespace Reading

/-- The events of some lexemes behind open elements, unless there is a fault. -/
def eventsFrom? (names : List Octets) : List Lexeme → Option (List Event)
  | [] => some []
  | lexeme :: rest =>
    (step names lexeme).toOption.bind fun r => (eventsFrom? r.1 rest).map (r.2.toList ++ ·)

/-- Lexemes with events are read to their end. -/
theorem readFrom_of_eventsFrom? {names : List Octets} (ending : Ending)
    {lexemes : List (Located Lexeme)} {events : List Event}
    (h : eventsFrom? names (lexemes.map (·.item)) = some events) :
    (readFrom names [] ending lexemes).bareEvents = events ∧
      (readFrom names [] ending lexemes).ending = ending := by
  induction lexemes generalizing names events with
  | nil =>
      cases h
      exact ⟨rfl, rfl⟩
  | cons lexeme rest ih =>
      rw [List.map_cons, eventsFrom?] at h
      rw [readFrom]
      cases hstep : step names lexeme.item with
      | error fault => simp [hstep, Except.toOption] at h
      | ok r =>
          obtain ⟨names', event⟩ := r
          simp only [hstep, Except.toOption, Option.bind_some, Option.map_eq_some_iff] at h
          obtain ⟨more, hmore, rfl⟩ := h
          obtain ⟨hevents, hending⟩ := ih hmore
          cases event with
          | none => exact ⟨hevents, hending⟩
          | some event =>
              dsimp only
              rw [readFrom_eq]
              exact ⟨by simpa [bareEvents] using hevents, hending⟩

/-- Lexemes without events are not read to their end. -/
theorem not_isComplete_of_eventsFrom? {names : List Octets} {ending : Ending}
    {lexemes : List (Located Lexeme)} (h : eventsFrom? names (lexemes.map (·.item)) = none) :
    ¬(readFrom names [] ending lexemes).IsComplete := by
  induction lexemes generalizing names with
  | nil => cases h
  | cons lexeme rest ih =>
      rw [List.map_cons, eventsFrom?] at h
      rw [readFrom]
      cases hstep : step names lexeme.item with
      | error fault =>
          rintro ⟨position, hending⟩
          cases hending
      | ok r =>
          obtain ⟨names', event⟩ := r
          simp only [hstep, Except.toOption, Option.bind_some, Option.map_eq_none_iff] at h
          cases event with
          | none => exact ih h
          | some event =>
              dsimp only
              rw [readFrom_eq]
              exact ih h

/-- **Which documents are read to their end**, and what they tell. -/
theorem reads_iff {octets : Octets} {events : List Event} :
    ((ofOctets octets).IsComplete ∧ (ofOctets octets).bareEvents = events) ↔
      ∃ lexemes, Lexer.lexemesFrom? (.text []) (Lexed.body octets) = some lexemes ∧
        eventsFrom? [] lexemes = some events := by
  rw [← Lexed.items?_ofOctets, Lexed.items?, ofOctets]
  cases hfault : (Lexed.ofOctets octets).fault with
  | some fault =>
      dsimp only
      constructor
      · rintro ⟨⟨position, hending⟩, _⟩
        cases hevents : eventsFrom? [] ((Lexed.ofOctets octets).lexemes.map (·.item)) with
        | none => exact absurd ⟨position, hending⟩ (not_isComplete_of_eventsFrom? hevents)
        | some es =>
            rw [(readFrom_of_eventsFrom? _ hevents).2] at hending
            cases hending
      · rintro ⟨_, hlexemes, _⟩
        cases hlexemes
  | none =>
      dsimp only
      simp only [Option.isNone_none, if_true, Option.some.injEq, exists_eq_left']
      cases hevents : eventsFrom? [] ((Lexed.ofOctets octets).lexemes.map (·.item)) with
      | none =>
          constructor
          · exact fun h => absurd h.1 (not_isComplete_of_eventsFrom? hevents)
          · exact fun h => by cases h
      | some es =>
          obtain ⟨hbare, hending⟩ := readFrom_of_eventsFrom? (.complete (Lexed.ofOctets octets).size) hevents
          rw [hbare, Option.some.injEq]
          exact and_iff_right ⟨_, hending⟩

end Reading

end RegistryGraph.Xml
