import Mathlib.Data.List.Infix
import RegistryGraph.Text.LowerCase

/-!
# Lower case inside a text

Lower case goes character by character, and only a capital sigma looks at its neighbours.  So the lower
case of a part of a text is found again in the lower case of the whole, unless some capital sigma ends a
word in one of them and not in the other.

* `Text.toList_lowerCase`, `Text.lowerIn_append`: lower case in pieces.
* `Text.lowerIn_eq_iff`: when a part has the same lower case as on its own.
* `Text.occursIn_iff`: what it means to occur.
* `Text.firm_iff_always_found`: the texts whose lower case is found in that of every text around them.
-/

namespace RegistryGraph.Text

variable {before after cs rest u v : List Char} {c : Char}

/-! ## What occurs -/

/-- **A pattern occurs** where it is a contiguous part. -/
theorem occursIn_iff {pattern : List Char} : occursIn pattern cs = true ↔ pattern <:+: cs := by
  induction cs with
  | nil => simp [occursIn]
  | cons c rest ih => rw [occursIn, Bool.or_eq_true, List.isPrefixOf_iff_prefix, ih, List.infix_cons_iff]

/-! ## Lower case in pieces -/

/-- The capital sigma at the end of a word. -/
def finalSigma : Char := '\u03C2'

/-- The capital sigma anywhere else. -/
def innerSigma : Char := '\u03C3'

/-- Whether a place between these characters, those before it nearest first, is the end of a word. -/
def endsWord (before after : List Char) : Bool := nextIsCased before && !nextIsCased after

/-- The lower case of characters behind others, nearest first, when `isEnd` tells where words end. -/
def lowerBy (isEnd : List Char → List Char → Bool) (before : List Char) : List Char → List Char
  | [] => []
  | c :: rest =>
    (if c = capitalSigma then [if isEnd before rest then finalSigma else innerSigma]
      else lowerChar c) ++ lowerBy isEnd (c :: before) rest

variable {f g : List Char → List Char → Bool}

/-- The accumulator of the loop ends up in front of what is still to be lowered. -/
theorem lowerCharsFrom_eq (before done cs : List Char) :
    lowerCharsFrom before done cs = done.reverse ++ lowerBy endsWord before cs := by
  induction cs generalizing before done with
  | nil => simp [lowerCharsFrom, lowerBy]
  | cons c rest ih =>
      rw [lowerCharsFrom, ih, lowerBy, List.reverse_append, List.reverse_reverse, List.append_assoc]
      unfold endsWord
      congr 2
      split
      · split <;> rfl
      · rfl

/-- A lower-cased string is its letters lowered one by one, each sigma by what surrounds it. -/
theorem toList_lowerCase (s : String) : (lowerCase s).toList = lowerBy endsWord [] s.toList := by
  rw [lowerCase, lowerCharsFrom_eq, String.toList_ofList]
  rfl

/-- Lowering a text in two halves: each half sees the other as its surroundings. -/
theorem lowerBy_append (f : List Char → List Char → Bool) (before cs more : List Char) :
    lowerBy f before (cs ++ more) =
      lowerBy (fun u v => f u (v ++ more)) before cs ++ lowerBy f (cs.reverse ++ before) more := by
  induction cs generalizing before with
  | nil => rfl
  | cons c rest ih =>
      rw [List.cons_append, lowerBy, lowerBy, ih, List.reverse_cons, List.append_assoc,
        List.append_assoc rest.reverse]
      rfl

/-- Letters in front that are not lowered can be handed to the sigma test instead. -/
theorem lowerBy_behind (f : List Char → List Char → Bool) (front before cs : List Char) :
    lowerBy f (front ++ before) cs = lowerBy (fun u v => f (u ++ before) v) front cs := by
  induction cs generalizing front with
  | nil => rfl
  | cons c rest ih => rw [lowerBy, lowerBy, ← ih (c :: front), List.cons_append]

/-- **Lower case in pieces.** -/
theorem lowerBy_pieces (before cs after : List Char) :
    lowerBy endsWord [] (before ++ cs ++ after) =
      lowerBy (fun u v => endsWord u (v ++ (cs ++ after))) [] before ++
        lowerBy (fun u v => endsWord (u ++ before.reverse) (v ++ after)) [] cs ++
          lowerBy endsWord (cs.reverse ++ before.reverse) after := by
  rw [List.append_assoc, lowerBy_append, lowerBy_append, List.append_nil, List.append_assoc,
    ← lowerBy_behind (fun u v => endsWord u (v ++ after)) []]
  rfl

/-! ## The places of capital sigmas -/

/-- What holds of the place of every capital sigma in `cs`: of the characters before it, nearest first,
and of those behind it. -/
def AtSigmas (P : List Char → List Char → Prop) (before : List Char) : List Char → Prop
  | [] => True
  | c :: rest => (c = capitalSigma → P before rest) ∧ AtSigmas P (c :: before) rest

instance instDecidableAtSigmas (P : List Char → List Char → Prop) [∀ u v, Decidable (P u v)] :
    (before cs : List Char) → Decidable (AtSigmas P before cs)
  | _, [] => isTrue trivial
  | before, c :: rest =>
    have := instDecidableAtSigmas P (c :: before) rest
    inferInstanceAs (Decidable ((c = capitalSigma → P before rest) ∧ AtSigmas P (c :: before) rest))

variable {P Q : List Char → List Char → Prop}

/-- A property of the surroundings of every sigma may be weakened. -/
theorem AtSigmas.imp (h : AtSigmas P before cs) (hPQ : ∀ u v, P u v → Q u v) :
    AtSigmas Q before cs := by
  induction cs generalizing before with
  | nil => trivial
  | cons c rest ih => exact ⟨fun hc => hPQ _ _ (h.1 hc), ih h.2⟩

/-- Two properties that hold at every sigma hold together there. -/
theorem AtSigmas.and (h : AtSigmas P before cs) (h' : AtSigmas Q before cs) :
    AtSigmas (fun u v => P u v ∧ Q u v) before cs := by
  induction cs generalizing before with
  | nil => trivial
  | cons c rest ih => exact ⟨fun hc => ⟨h.1 hc, h'.1 hc⟩, ih h.2 h'.2⟩

/-- A text without a capital sigma satisfies any property at its sigmas. -/
theorem atSigmas_of_not_mem (h : capitalSigma ∉ cs) : AtSigmas P before cs := by
  induction cs generalizing before with
  | nil => trivial
  | cons c rest ih =>
      rw [List.mem_cons, not_or] at h
      exact ⟨fun hc => absurd hc.symm h.1, ih h.2⟩

/-- Between `before` and `after` every capital sigma of `cs` ends a word just in case it does so in `cs`
alone. -/
def KeepsSigmas (before cs after : List Char) : Prop :=
  AtSigmas (fun u v => endsWord (u ++ before) (v ++ after) = endsWord u v) [] cs

instance (before cs after : List Char) : Decidable (KeepsSigmas before cs after) :=
  inferInstanceAs (Decidable (AtSigmas _ _ _))

/-- **When two ways to tell the ends of words give the same lower case.** -/
theorem lowerBy_eq_iff :
    lowerBy f before cs = lowerBy g before cs ↔ AtSigmas (fun u v => f u v = g u v) before cs := by
  induction cs generalizing before with
  | nil => simp [lowerBy, AtSigmas]
  | cons c rest ih =>
      rw [lowerBy, lowerBy, AtSigmas, ← ih]
      by_cases hc : c = capitalSigma
      · have hsigma : finalSigma ≠ innerSigma := by decide
        cases f before rest <;> cases g before rest <;> simp [hc, hsigma, hsigma.symm]
      · simp [hc]

/-- **The lower case of a part** that keeps its sigmas is part of the lower case of the whole. -/
theorem KeepsSigmas.infix_lowerCase {pattern text : String}
    (h : KeepsSigmas before.reverse pattern.toList after)
    (htext : text.toList = before ++ pattern.toList ++ after) :
    (lowerCase pattern).toList <:+: (lowerCase text).toList := by
  rw [toList_lowerCase, toList_lowerCase, htext, lowerBy_pieces, lowerBy_eq_iff.2 h]
  exact List.infix_append _ _ _

/-! ## Firm texts -/

/-- Whether some character counts when one looks for a cased neighbour. -/
def isDecisive (cs : List Char) : Bool := cs.any fun c => !inRanges caseIgnorableRanges c.toNat

/-- What follows a text decides whether a letter comes next only if the text itself does not. -/
theorem nextIsCased_append (cs more : List Char) :
    nextIsCased (cs ++ more) = if isDecisive cs then nextIsCased cs else nextIsCased more := by
  induction cs with
  | nil => rfl
  | cons c rest ih =>
      rw [List.cons_append, nextIsCased, nextIsCased, isDecisive, List.any_cons, ← isDecisive]
      cases inRanges caseIgnorableRanges c.toNat with
      | false => rfl
      | true => simpa using ih

/-- Who finds a cased neighbour has found one that counts. -/
theorem isDecisive_of_nextIsCased (h : nextIsCased cs = true) : isDecisive cs = true := by
  have happend := nextIsCased_append cs []
  rw [List.append_nil, h] at happend
  by_contra hnot
  rw [if_neg hnot] at happend
  cases happend

/-- Whether a place between these characters is the end of a word is settled by them, whatever else
stands around: they count on both sides, or there is no cased one before or a cased one behind. -/
def IsSettled (before after : List Char) : Prop :=
  isDecisive before = true ∧ (nextIsCased before = false ∨ isDecisive after = true) ∨
    nextIsCased after = true

instance (before after : List Char) : Decidable (IsSettled before after) :=
  inferInstanceAs (Decidable (_ ∨ _))

/-- **What is settled stays so.** -/
theorem IsSettled.endsWord_eq (h : IsSettled u v) (before after : List Char) :
    endsWord (u ++ before) (v ++ after) = endsWord u v := by
  unfold endsWord
  rw [nextIsCased_append, nextIsCased_append]
  rcases h with ⟨hu, hcased | hv⟩ | hcased
  · rw [if_pos hu, hcased]
    rfl
  · rw [if_pos hu, if_pos hv]
  · rw [if_pos (isDecisive_of_nextIsCased hcased), hcased, Bool.not_true, Bool.and_false,
      Bool.and_false]

/-- More characters before a place do not undo the end of a word. -/
theorem endsWord_append_of_endsWord (h : endsWord u v = true) : endsWord (u ++ before) v = true := by
  unfold endsWord at h ⊢
  rw [Bool.and_eq_true] at h ⊢
  rw [nextIsCased_append, if_pos (isDecisive_of_nextIsCased h.1)]
  exact h

/-- More characters behind a place do not make it the end of a word. -/
theorem endsWord_of_endsWord_append (h : endsWord u (v ++ after) = true) : endsWord u v = true := by
  unfold endsWord at h ⊢
  rw [Bool.and_eq_true, Bool.not_eq_true'] at h ⊢
  refine ⟨h.1, ?_⟩
  by_contra hcased
  rw [Bool.not_eq_false] at hcased
  rw [nextIsCased_append, if_pos (isDecisive_of_nextIsCased hcased), hcased] at h
  exact Bool.noConfusion h.2

/-- A letter on either side that does not matter settles a place. -/
theorem isSettled_of_endsWord_eq (hbefore : endsWord (u ++ ['a']) v = endsWord u v)
    (hafter : endsWord u (v ++ ['a']) = endsWord u v) : IsSettled u v := by
  have ha : nextIsCased ['a'] = true := by decide +kernel
  unfold endsWord at hbefore hafter
  rw [nextIsCased_append, ha] at hbefore hafter
  unfold IsSettled
  have hu : nextIsCased u = true → isDecisive u = true := isDecisive_of_nextIsCased
  have hv : nextIsCased v = true → isDecisive v = true := isDecisive_of_nextIsCased
  cases hu' : isDecisive u <;> cases hv' : isDecisive v <;> cases hcu : nextIsCased u <;>
    cases hcv : nextIsCased v <;> simp_all

/-- Every capital sigma has characters on its sides that settle whether it ends a word. -/
def Firm (s : String) : Prop := AtSigmas IsSettled [] s.toList

instance (s : String) : Decidable (Firm s) := inferInstanceAs (Decidable (AtSigmas _ _ _))

/-- A firm text keeps its sigmas whatever it is put between. -/
theorem Firm.keepsSigmas {s : String} (h : Firm s) (before after : List Char) :
    KeepsSigmas before s.toList after :=
  AtSigmas.imp h fun _ _ hsettled => hsettled.endsWord_eq before after

/-- A text without capital sigmas is firm. -/
theorem firm_of_not_mem {s : String} (h : capitalSigma ∉ s.toList) : Firm s := atSigmas_of_not_mem h

/-! ## Only firm texts are always found -/

/-- Where words end matters for the two small sigmas only. -/
theorem count_lowerBy_of_ne {x : Char} (hfinal : x ≠ finalSigma) (hinner : x ≠ innerSigma)
    (f g : List Char → List Char → Bool) (before cs : List Char) :
    (lowerBy f before cs).count x = (lowerBy g before cs).count x := by
  induction cs generalizing before with
  | nil => rfl
  | cons c rest ih =>
      rw [lowerBy, lowerBy, List.count_append, List.count_append, ih]
      congr 1
      split
      · cases f before rest <;> cases g before rest <;> simp [hfinal.symm, hinner.symm]
      · rfl

/-- How a sigma is lowered does not change how many letters come out. -/
theorem length_lowerBy (f g : List Char → List Char → Bool) (before cs : List Char) :
    (lowerBy f before cs).length = (lowerBy g before cs).length := by
  induction cs generalizing before with
  | nil => rfl
  | cons c rest ih =>
      rw [lowerBy, lowerBy, List.length_append, List.length_append, ih]
      congr 1
      split <;> rfl

/-- More ends of words give more final sigmas, unless all ends at sigmas are the same. -/
theorem count_finalSigma_lowerBy (hfg : ∀ u v, f u v = true → g u v = true) (before cs : List Char) :
    (lowerBy f before cs).count finalSigma ≤ (lowerBy g before cs).count finalSigma ∧
      ((lowerBy f before cs).count finalSigma = (lowerBy g before cs).count finalSigma →
        AtSigmas (fun u v => f u v = g u v) before cs) := by
  induction cs generalizing before with
  | nil => exact ⟨le_rfl, fun _ => trivial⟩
  | cons c rest ih =>
      obtain ⟨hle, heq⟩ := ih (c :: before)
      rw [lowerBy, lowerBy, List.count_append, List.count_append, AtSigmas]
      by_cases hc : c = capitalSigma
      · have hsigma : innerSigma ≠ finalSigma := by decide
        have hmore := hfg before rest
        cases hf : f before rest <;> cases hg : g before rest <;> grind
      · simp only [hc, false_imp_iff, true_and]
        exact ⟨Nat.add_le_add_left hle _, fun h => heq (Nat.add_left_cancel h)⟩

/-- A text is found in a longer one, which has a letter more and some sigmas changed, only if none has
changed. -/
theorem count_finalSigma_of_part {whole : List Char} (hwhole : whole.Perm ('a' :: lowerBy g before cs))
    (h : lowerBy f before cs <:+: whole) :
    (lowerBy f before cs).count finalSigma = (lowerBy g before cs).count finalSigma := by
  obtain ⟨left, right, rfl⟩ := h
  have hlength := hwhole.length_eq
  have ha := hwhole.count_eq 'a'
  have hfinal := hwhole.count_eq finalSigma
  have hsame := count_lowerBy_of_ne (x := 'a') (by decide) (by decide) f g before cs
  have hsize := length_lowerBy f g before cs
  simp only [List.length_append, List.length_cons, List.count_append, List.count_cons_self] at hlength ha
  rw [List.count_cons_of_ne (by decide), List.count_append, List.count_append] at hfinal
  -- What is left and right of it is the letter.
  have hletter : (left ++ right).count 'a' = (left ++ right).length := by
    rw [List.count_append, List.length_append]
    omega
  have hnone : (left ++ right).count finalSigma = 0 := by
    rw [List.count_eq_zero]
    intro hmem
    exact absurd (List.count_eq_length.1 hletter _ hmem) (by decide)
  rw [List.count_append] at hnone
  omega

/-- **Only firm texts are always found**: a text whose lower case is found in that of every text around it
is firm, and two texts around it tell. -/
theorem firm_iff_always_found {s : String} :
    Firm s ↔ ∀ text : String, s.toList <:+: text.toList →
      (lowerCase s).toList <:+: (lowerCase text).toList := by
  constructor
  · rintro hfirm text ⟨before, after, htext⟩
    exact (hfirm.keepsSigmas before.reverse after).infix_lowerCase htext.symm
  · intro h
    have hbefore := h (.ofList (['a'] ++ s.toList ++ [])) (by
      rw [String.toList_ofList]
      exact List.infix_append _ _ _)
    have hafter := h (.ofList ([] ++ s.toList ++ ['a'])) (by
      rw [String.toList_ofList]
      exact List.infix_append _ _ _)
    rw [toList_lowerCase, toList_lowerCase, String.toList_ofList, lowerBy_pieces] at hbefore hafter
    -- A letter in front makes more ends of words, a letter behind makes fewer.
    have hmore : AtSigmas (fun u v => endsWord u v = endsWord (u ++ ['a']) v) [] s.toList := by
      refine (count_finalSigma_lowerBy (fun u v => endsWord_append_of_endsWord) _ _).2 ?_
      refine count_finalSigma_of_part (.of_eq ?_) hbefore
      simp only [List.reverse_singleton, List.append_nil]
      exact List.append_nil _
    have hfewer : AtSigmas (fun u v => endsWord u (v ++ ['a']) = endsWord u v) [] s.toList := by
      refine (count_finalSigma_lowerBy (fun u v => endsWord_of_endsWord_append) _ _).2 ?_
      refine (count_finalSigma_of_part ?_ hafter).symm
      simp only [List.reverse_nil, List.append_nil]
      exact List.perm_append_singleton _ _
    exact (hmore.and hfewer).imp fun u v h => isSettled_of_endsWord_eq h.1.symm h.2

end RegistryGraph.Text
