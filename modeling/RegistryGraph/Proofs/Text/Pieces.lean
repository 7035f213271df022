import Mathlib.Data.List.Basic
import RegistryGraph.Text.Pieces

/-!
# Texts as lists

A text that is cut at a separator is a list of stretches without it, and the only one that gives the text
when the separators are put back.

* `Text.pieces_append_separator`, `Text.pieces_of_not_mem`: where a text is cut.
* `Text.of_mem_pieces`: what is in a piece.
* `Text.exists_mem_pieces_iff`: the pieces are the items of the list that the text writes.
-/

namespace RegistryGraph.Text

/-- What is cut at a separator is cut before it and behind it. -/
theorem pieces_append_separator (separator : Char) (cs ds : List Char) :
    pieces separator (cs ++ separator :: ds) = pieces separator cs ++ pieces separator ds := by
  induction cs with
  | nil => simp [pieces]
  | cons c rest ih =>
      rw [List.cons_append, pieces, pieces, ih]
      split
      · rfl
      · cases hpieces : pieces separator rest with
        | nil => exact absurd hpieces (pieces_ne_nil separator rest)
        | cons piece others => rfl

/-- A text without the separator is its only piece. -/
theorem pieces_of_not_mem {separator : Char} {cs : List Char} (h : separator ∉ cs) :
    pieces separator cs = [cs] := by
  induction cs with
  | nil => rfl
  | cons c rest ih =>
      obtain ⟨hc, hrest⟩ := not_or.1 (mt List.mem_cons.2 h)
      rw [pieces, if_neg fun heq => hc heq.symm, ih hrest]

/-- No separator is left in a piece, and nothing is new in it. -/
theorem of_mem_pieces {separator : Char} {cs piece : List Char} (h : piece ∈ pieces separator cs) :
    separator ∉ piece ∧ piece ⊆ cs := by
  induction cs generalizing piece with
  | nil =>
      cases List.mem_singleton.1 h
      exact ⟨List.not_mem_nil, List.Subset.refl _⟩
  | cons c rest ih =>
      rw [pieces] at h
      split at h
      next =>
        rcases List.mem_cons.1 h with rfl | h
        · exact ⟨List.not_mem_nil, List.nil_subset _⟩
        · exact ⟨(ih h).1, List.subset_cons_of_subset _ (ih h).2⟩
      next hother =>
        cases hpieces : pieces separator rest with
        | nil => exact absurd hpieces (pieces_ne_nil _ _)
        | cons first others =>
            rw [hpieces] at h ih
            rcases List.mem_cons.1 h with rfl | h
            · obtain ⟨hclean, hsub⟩ := ih List.mem_cons_self
              refine ⟨?_, List.cons_subset_cons _ hsub⟩
              rw [List.mem_cons, not_or]
              exact ⟨Ne.symm hother, hclean⟩
            · obtain ⟨hclean, hsub⟩ := ih (List.mem_cons_of_mem _ h)
              exact ⟨hclean, List.subset_cons_of_subset _ hsub⟩

/-- The separators between the pieces make the text again. -/
theorem intercalate_pieces (separator : Char) (cs : List Char) :
    [separator].intercalate (pieces separator cs) = cs := by
  induction cs with
  | nil => rfl
  | cons c rest ih =>
      rw [pieces]
      split
      next heq =>
        subst heq
        rw [List.intercalate_cons_of_ne_nil (pieces_ne_nil _ _), ih]
        rfl
      next =>
        cases hpieces : pieces separator rest with
        | nil => exact absurd hpieces (pieces_ne_nil _ _)
        | cons piece others =>
            rw [hpieces] at ih
            -- A character in front of the first item is one in front of the whole text.
            cases others with
            | nil => simpa using ih
            | cons next others => simpa [List.intercalate_cons_cons] using ih

/-- A text that is made of items without the separator is cut into these items. -/
theorem pieces_intercalate {separator : Char} {items : List (List Char)} (hne : items ≠ [])
    (h : ∀ item ∈ items, separator ∉ item) : pieces separator ([separator].intercalate items) = items := by
  induction items with
  | nil => exact absurd rfl hne
  | cons item others ih =>
      have hitem : separator ∉ item := h item List.mem_cons_self
      cases others with
      | nil => rw [List.intercalate_singleton, pieces_of_not_mem hitem]
      | cons next others =>
          have hothers := ih (List.cons_ne_nil _ _) fun other hother =>
            h other (List.mem_cons_of_mem _ hother)
          rw [List.intercalate_cons_cons, List.append_assoc, List.singleton_append,
            pieces_append_separator, pieces_of_not_mem hitem, hothers]
          rfl

/-- **The pieces are the items of the list** that the text writes. -/
theorem exists_mem_pieces_iff {separator : Char} {cs : List Char} {p : List Char → Prop} :
    (∃ item ∈ pieces separator cs, p item) ↔
      ∃ items : List (List Char), cs = [separator].intercalate items ∧
        (∀ item ∈ items, separator ∉ item) ∧ ∃ item ∈ items, p item := by
  constructor
  · intro h
    exact ⟨pieces separator cs, (intercalate_pieces separator cs).symm,
      fun item hitem => (of_mem_pieces hitem).1, h⟩
  · rintro ⟨items, rfl, hclean, item, hitem, hp⟩
    rw [pieces_intercalate (List.ne_nil_of_mem hitem) hclean]
    exact ⟨item, hitem, hp⟩

/-- The first piece stands before the first separator. -/
theorem exists_pieces_eq (separator : Char) (cs : List Char) :
    ∃ others, pieces separator cs = before separator cs :: others := by
  induction cs with
  | nil => exact ⟨[], rfl⟩
  | cons c rest ih =>
      obtain ⟨others, hrest⟩ := ih
      rw [pieces, before]
      by_cases hc : c = separator
      · rw [if_pos hc, List.takeWhile_cons_of_neg (by simpa using hc)]
        exact ⟨_, rfl⟩
      · rw [if_neg hc, hrest, List.takeWhile_cons_of_pos (by simpa using hc)]
        exact ⟨others, rfl⟩

/-- Nothing stands behind the first piece, or a separator comes next. -/
theorem exists_eq_before_append (separator : Char) (cs : List Char) :
    ∃ tail, cs = before separator cs ++ tail ∧ (tail = [] ∨ ∃ rest, tail = separator :: rest) := by
  induction cs with
  | nil => exact ⟨[], rfl, .inl rfl⟩
  | cons c rest ih =>
      by_cases hc : c = separator
      · refine ⟨c :: rest, ?_, .inr ⟨rest, by rw [hc]⟩⟩
        rw [before, List.takeWhile_cons_of_neg (by simpa using hc)]
        rfl
      · obtain ⟨tail, hrest, htail⟩ := ih
        refine ⟨tail, ?_, htail⟩
        rw [before, List.takeWhile_cons_of_pos (by simpa using hc)]
        exact congrArg (c :: ·) hrest

/-- The text before the first separator, where the front has none. -/
theorem before_append {separator : Char} {cs tail : List Char} (h : separator ∉ cs)
    (htail : tail = [] ∨ ∃ rest, tail = separator :: rest) :
    before separator (cs ++ tail) = cs := by
  have hcs : ∀ c ∈ cs, decide (c ≠ separator) = true := by
    intro c hc
    exact decide_eq_true fun heq => h (heq ▸ hc)
  rw [before, List.takeWhile_append_of_pos hcs]
  rcases htail with rfl | ⟨rest, rfl⟩
  · exact List.append_nil cs
  · rw [List.takeWhile_cons_of_neg (by simp), List.append_nil]

end RegistryGraph.Text
