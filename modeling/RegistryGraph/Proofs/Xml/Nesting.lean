import RegistryGraph.Xml.Event

/-!
# How tags nest

The depth of a sequence of events is the number of elements that it leaves open.  It is undefined as
soon as an element is closed that was not opened.  A reading never gets there: it keeps the names of
the open elements itself, and an end tag that repeats none of them is a fault.

The main statement is `depthAfter?_readFrom`: behind `n` open elements the events of a reading have a
depth.
-/

namespace RegistryGraph.Xml

/-- The number of open elements after an event, if `depth` are open before it. -/
def Event.depthAfter? (depth : Nat) : Event → Option Nat
  | .start _ => some (depth + 1)
  | .close => if depth = 0 then none else some (depth - 1)
  | .empty _ | .text _ | .cdata _ => some depth

/-- The number of open elements after some events, if `depth` are open before them. -/
def depthAfter? (depth : Nat) : List Event → Option Nat
  | [] => some depth
  | e :: rest => (e.depthAfter? depth).bind (depthAfter? · rest)

/-- Depths are counted event by event. -/
theorem depthAfter?_append (depth : Nat) (events more : List Event) :
    depthAfter? depth (events ++ more) =
      (depthAfter? depth events).bind (depthAfter? · more) := by
  induction events generalizing depth with
  | nil => rfl
  | cons e rest ih =>
      rw [List.cons_append, depthAfter?, depthAfter?]
      cases e.depthAfter? depth with
      | none => rfl
      | some next => exact ih next

namespace Reading

/-- A reading that gets to the end of the input. -/
def IsComplete (r : Reading) : Prop := ∃ position, r.ending = .complete position

/-- The events of a reading, without their offsets. -/
def bareEvents (r : Reading) : List Event := r.events.map (·.event)

/-- What has been read before only precedes what is read next. -/
theorem readFrom_eq (names : List Octets) (done : List Occurrence) (ending : Ending)
    (lexemes : List (Located Lexeme)) :
    readFrom names done ending lexemes =
      ⟨done.reverse ++ (readFrom names [] ending lexemes).events,
        (readFrom names [] ending lexemes).ending⟩ := by
  induction lexemes generalizing names done with
  | nil => simp [readFrom]
  | cons lexeme rest ih =>
      rw [readFrom, readFrom]
      cases hs : step names lexeme.item with
      | error fault => simp
      | ok answer =>
          rcases answer with ⟨names', _ | event⟩
          · exact ih names' done
          · dsimp only
            rw [ih names' (_ :: done), ih names' [_]]
            simp

/-- A lexeme that delivers no event opens and closes nothing. -/
theorem step_none_names {names names' : List Octets} {lexeme : Lexeme}
    (h : step names lexeme = .ok (names', none)) : names' = names := by
  cases lexeme with
  | tag content => simp only [step] at h; split at h <;> cases h
  | close content =>
      cases names with
      | nil => cases h
      | cons expected outer => simp only [step] at h; split at h <;> cases h
  | text raw | cdata raw => cases h
  | ignored => cases h; rfl

/-- The names that a reading keeps are those of the open elements. -/
theorem step_some_depth {names names' : List Octets} {lexeme : Lexeme} {event : Event}
    (h : step names lexeme = .ok (names', some event)) :
    event.depthAfter? names.length = some names'.length := by
  cases lexeme with
  | text raw | cdata raw => cases h; rfl
  | ignored => cases h
  | tag content =>
      by_cases hslash : content.getLast? = some 0x2F
      · simp only [step, tagEvent, if_pos hslash] at h
        cases h
        rfl
      · simp only [step, tagEvent, if_neg hslash] at h
        cases h
        rfl
  | close content =>
      cases names with
      | nil => cases h
      | cons expected outer =>
          simp only [step] at h
          split at h <;> cases h
          rfl

/-- **Readings nest.**  No event of a reading closes an element that is not open. -/
theorem depthAfter?_readFrom (names : List Octets) (ending : Ending)
    (lexemes : List (Located Lexeme)) :
    ∃ depth, depthAfter? names.length (readFrom names [] ending lexemes).bareEvents =
      some depth := by
  induction lexemes generalizing names with
  | nil => exact ⟨_, rfl⟩
  | cons lexeme rest ih =>
      rw [readFrom]
      cases hs : step names lexeme.item with
      | error fault => exact ⟨_, rfl⟩
      | ok answer =>
          rcases answer with ⟨names', _ | event⟩
          · rw [← step_none_names hs]
            exact ih names'
          · obtain ⟨depth, hd⟩ := ih names'
            refine ⟨depth, ?_⟩
            dsimp only
            rw [readFrom_eq]
            simp only [bareEvents, List.reverse_cons, List.reverse_nil, List.nil_append,
              List.cons_append, List.map_cons, depthAfter?, step_some_depth hs, Option.bind_some]
            exact hd

/-- In every document the bare events nest: no end comes without its start. -/
theorem depthAfter?_ofOctets (octets : Octets) :
    ∃ depth, depthAfter? 0 (ofOctets octets).bareEvents = some depth :=
  depthAfter?_readFrom [] _ _

end Reading

end RegistryGraph.Xml
