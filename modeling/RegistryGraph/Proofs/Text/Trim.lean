import Mathlib.Data.List.DropRight
import RegistryGraph.Text.Blank

/-!
# Trimmed texts

What is left of a text when it is trimmed begins and ends with a character that is no blank, or is
empty.  So trimming it once more changes nothing.

* `Text.trim_trim`: trimming twice is trimming once.
* `Text.trim_eq_empty_iff`: nothing is left of blanks, and of blanks only.
* `Text.exists_eq_trimChars`, `Text.trimChars_append_blanks`: what is trimmed is blanks around the rest.
-/

namespace RegistryGraph.Text

/-- Trimming drops the blanks at both ends. -/
theorem trimChars_eq (cs : List Char) : trimChars cs = (cs.dropWhile isBlank).rdropWhile isBlank :=
  rfl

/-- What is kept behind leading blanks keeps its first character. -/
theorem dropWhile_rdropWhile {p : Char → Bool} {cs : List Char} (h : cs.dropWhile p = cs) :
    (cs.rdropWhile p).dropWhile p = cs.rdropWhile p := by
  rw [List.dropWhile_eq_self_iff] at h ⊢
  intro hpos
  have hle : (cs.rdropWhile p).length ≤ cs.length := (List.rdropWhile_prefix p cs).length_le
  rw [(List.rdropWhile_prefix p cs).getElem hpos]
  exact h (Nat.lt_of_lt_of_le hpos hle)

/-- A trimmed text has nothing more to trim. -/
theorem trimChars_trimChars (cs : List Char) : trimChars (trimChars cs) = trimChars cs := by
  rw [trimChars_eq, trimChars_eq, dropWhile_rdropWhile (List.dropWhile_idempotent _ _),
    List.rdropWhile_idempotent]

/-- **Trimming twice is trimming once.** -/
theorem trim_trim (s : String) : trim (trim s) = trim s := by
  rw [trim, trim, String.toList_ofList, trimChars_trimChars]

/-- Nothing is left of a text exactly if all of it is blank. -/
theorem trimChars_eq_nil_iff (cs : List Char) : trimChars cs = [] ↔ ∀ c ∈ cs, isBlank c = true := by
  rw [trimChars_eq, List.rdropWhile_eq_nil_iff, ← List.dropWhile_eq_nil_iff,
    List.dropWhile_idempotent, List.dropWhile_eq_nil_iff]

/-- What is taken off is blank. -/
theorem exists_eq_trimChars (cs : List Char) :
    ∃ front back, cs = front ++ trimChars cs ++ back ∧ (∀ c ∈ front, isBlank c = true) ∧
      ∀ c ∈ back, isBlank c = true := by
  refine ⟨cs.takeWhile isBlank, (cs.dropWhile isBlank).rtakeWhile isBlank, ?_,
    fun _ => List.mem_takeWhile_imp, fun _ => List.mem_rtakeWhile_imp⟩
  rw [trimChars_eq, List.append_assoc, List.rdropWhile_append_rtakeWhile,
    List.takeWhile_append_dropWhile]

/-- Blanks at the ends make no difference. -/
theorem trimChars_append_blanks {front cs back : List Char} (hfront : ∀ c ∈ front, isBlank c = true)
    (hback : ∀ c ∈ back, isBlank c = true) : trimChars (front ++ cs ++ back) = trimChars cs := by
  by_cases hcs : ∀ c ∈ cs, isBlank c = true
  · have hall : ∀ c ∈ front ++ cs ++ back, isBlank c = true := by
      intro c hc
      rcases List.mem_append.1 hc with hc | hc
      · exact (List.mem_append.1 hc).elim (hfront c) (hcs c)
      · exact hback c hc
    rw [(trimChars_eq_nil_iff _).2 hall, (trimChars_eq_nil_iff _).2 hcs]
  · have hsome : (cs.dropWhile isBlank).isEmpty = false := by
      rw [Bool.eq_false_iff, ne_eq, List.isEmpty_iff, List.dropWhile_eq_nil_iff]
      exact hcs
    have hdrop : (front ++ cs ++ back).dropWhile isBlank = cs.dropWhile isBlank ++ back := by
      rw [List.append_assoc, List.dropWhile_append_of_pos hfront, List.dropWhile_append, hsome]
      rfl
    rw [trimChars, hdrop, List.reverse_append,
      List.dropWhile_append_of_pos fun c hc => hback c (List.mem_reverse.1 hc)]
    rfl

/-- A letter is no blank, be it capital or small. -/
theorem isBlank_toLower (c : Char) : isBlank c.toLower = isBlank c := by
  unfold Char.toLower
  split
  next h =>
    have hle : 65 ≤ c.toNat ∧ c.toNat ≤ 90 := h
    have hlower : (c.val + ('a'.val - 'A'.val)).toNat = c.toNat + 32 := by
      change (c.toNat + 32) % 2 ^ 32 = c.toNat + 32
      omega
    have hcapital : isBlank c = false := by
      simp only [isBlank, Bool.or_eq_false_iff, Bool.and_eq_false_iff, decide_eq_false_iff_not]
      omega
    rw [hcapital]
    simp only [isBlank, Char.toNat, hlower, Bool.or_eq_false_iff, Bool.and_eq_false_iff,
      decide_eq_false_iff_not]
    change 65 ≤ c.val.toNat ∧ c.val.toNat ≤ 90 at hle
    omega
  next => rfl

/-- Trimming does not look at the case of letters. -/
theorem trimChars_map_toLower (cs : List Char) :
    trimChars (cs.map Char.toLower) = (trimChars cs).map Char.toLower := by
  have hblank : isBlank ∘ Char.toLower = isBlank := funext isBlank_toLower
  rw [trimChars, List.dropWhile_map, hblank, ← List.map_reverse, List.dropWhile_map, hblank,
    ← List.map_reverse]
  rfl

/-- **Nothing is left of blanks**, and of blanks only. -/
theorem trim_eq_empty_iff (s : String) : trim s = "" ↔ allBlank s = true := by
  rw [trim, allBlank, List.all_eq_true, ← trimChars_eq_nil_iff, String.ofList_eq_empty_iff]

end RegistryGraph.Text
