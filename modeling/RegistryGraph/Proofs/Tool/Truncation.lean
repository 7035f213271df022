import Mathlib.Data.String.Basic
import RegistryGraph.Proofs.Store.Revision
import RegistryGraph.Tool.Result

/-!
# Where texts are cut

A text that is too long is cut, and a notice says where.  The place is searched from the limit backwards,
octet by octet.  As no character has more than four octets, three steps back are enough, and what stands
before the place is the longest beginning of whole characters that fits.

The notice speaks of characters, but both the limit and the number in the notice are counts of octets.  So
a text is kept or cut as a count of characters would have it only if all that is kept of it are characters
of one octet, or if the text is short enough either way.

* `ToolResult.isLongestFront_fitting`: the longest beginning that fits, taken character by character.
* `ToolResult.isLongestFront_cut`: what stands before the place that the search finds is the same.
* `ToolResult.truncate_of_long`: how far the search goes back, and what it makes of a long text.
* `ToolResult.notice_inj`: what is kept and the number in the notice can be read off a cut text.
* `ToolResult.CutAtCharacters`: what a limit in characters promises.
* `ToolResult.text_tells`: where a text is cut, and when this keeps the promise.
-/

namespace RegistryGraph.ToolResult

open String (utf8Len)

/-! ## Octets and characters -/

/-- There are at least as many octets as characters. -/
theorem length_le_utf8Len (cs : List Char) : cs.length ≤ utf8Len cs := by
  induction cs with
  | nil => simp
  | cons c rest ih =>
      have hpos : 0 < c.utf8Size := c.utf8Size_pos
      simp only [List.length_cons, String.utf8Len_cons]
      omega

/-- There are as many octets as characters just in case every character has one. -/
theorem utf8Len_eq_length_iff (cs : List Char) :
    utf8Len cs = cs.length ↔ ∀ c ∈ cs, c.utf8Size = 1 := by
  induction cs with
  | nil => simp
  | cons c rest ih =>
      have hpos : 0 < c.utf8Size := c.utf8Size_pos
      have hle : rest.length ≤ utf8Len rest := length_le_utf8Len rest
      rw [List.forall_mem_cons, ← ih, String.utf8Len_cons, List.length_cons]
      omega

/-- A string has at least as many octets as characters. -/
theorem length_le_utf8ByteSize (s : String) : s.length ≤ s.utf8ByteSize := by
  rw [← String.utf8Len_toList, ← String.length_toList]
  exact length_le_utf8Len s.toList

/-! ## What fits -/

variable {budget limit : Nat} {cs front : List Char} {s kept : String}

/-- The longest beginning of a text that consists of whole characters and has no more octets than the
budget. -/
def fitting (budget : Nat) : List Char → List Char
  | [] => []
  | c :: rest => if c.utf8Size ≤ budget then c :: fitting (budget - c.utf8Size) rest else []

/-- What fits is a front of the text. -/
theorem isPrefix_fitting (budget : Nat) (cs : List Char) : fitting budget cs <+: cs := by
  induction cs generalizing budget with
  | nil => exact List.prefix_refl []
  | cons c rest ih =>
      rw [fitting]
      split
      next => exact (List.prefix_cons_inj c).2 (ih _)
      next => exact List.nil_prefix

/-- What fits keeps within the budget. -/
theorem utf8Len_fitting_le (budget : Nat) (cs : List Char) : utf8Len (fitting budget cs) ≤ budget := by
  induction cs generalizing budget with
  | nil => simp [fitting]
  | cons c rest ih =>
      rw [fitting]
      split
      next hfits =>
        have hrest := ih (budget - c.utf8Size)
        rw [String.utf8Len_cons]
        omega
      next => simp

/-- Whatever fits is part of what is kept. -/
theorem prefix_fitting (hfront : front <+: cs) (hfits : utf8Len front ≤ budget) :
    front <+: fitting budget cs := by
  induction cs generalizing budget front with
  | nil => exact hfront
  | cons c rest ih =>
      rcases List.prefix_cons_iff.1 hfront with rfl | ⟨more, rfl, hmore⟩
      · exact List.nil_prefix
      · rw [String.utf8Len_cons] at hfits
        rw [fitting, if_pos (by omega)]
        exact (List.prefix_cons_inj c).2 (ih hmore (by omega))

/-- The longest beginning of a text that consists of whole characters and has at most `limit` octets. -/
structure IsLongestFront (limit : Nat) (s kept : String) : Prop where
  front : kept.toList <+: s.toList
  fits : kept.utf8ByteSize ≤ limit
  longest : ∀ front : String, front.toList <+: s.toList → front.utf8ByteSize ≤ limit →
    front.toList <+: kept.toList

/-- **Characters that are taken while they fit make the longest beginning.** -/
theorem isLongestFront_fitting (limit : Nat) (s : String) :
    IsLongestFront limit s (.ofList (fitting limit s.toList)) where
  front := by
    rw [String.toList_ofList]
    exact isPrefix_fitting limit s.toList
  fits := by
    rw [String.utf8ByteSize_ofList]
    exact utf8Len_fitting_le limit s.toList
  longest := by
    intro front hfront hfits
    rw [String.toList_ofList]
    exact prefix_fitting hfront (by rwa [String.utf8Len_toList])

/-- There is only one longest beginning. -/
theorem IsLongestFront.unique {kept' : String} (h : IsLongestFront limit s kept)
    (h' : IsLongestFront limit s kept') : kept = kept' := by
  have hle : kept'.toList <+: kept.toList := h.longest kept' h'.front h'.fits
  have hge : kept.toList <+: kept'.toList := h'.longest kept h.front h.fits
  exact String.toList_inj.1 (hge.eq_of_length_le hle.length_le)

/-- Behind the longest beginning stands a character that does not fit, unless the whole text fits. -/
theorem IsLongestFront.lt_add_four (h : IsLongestFront limit s kept) (hlong : limit < s.utf8ByteSize) :
    limit < kept.utf8ByteSize + 4 := by
  obtain ⟨more, hmore⟩ := h.front
  cases more with
  | nil =>
      have hall : kept = s := String.toList_inj.1 (by rw [← hmore, List.append_nil])
      have hfits : s.utf8ByteSize ≤ limit := hall ▸ h.fits
      omega
  | cons c rest =>
      have hfour : c.utf8Size ≤ 4 := c.utf8Size_le_four
      have hnext : limit < (kept.push c).utf8ByteSize := by
        by_contra hfits
        have hfront : (kept.push c).toList <+: s.toList := by
          rw [String.toList_push, ← hmore, List.prefix_append_right_inj]
          exact ⟨rest, rfl⟩
        have hlength := (h.longest (kept.push c) hfront (by omega)).length_le
        rw [String.toList_push, List.length_append, List.length_singleton] at hlength
        omega
      rw [String.utf8ByteSize_push] at hnext
      omega

/-! ## Texts of one character -/

/-- A character, over and over. -/
def repeated (n : Nat) (c : Char) : String := .ofList (List.replicate n c)

/-- A character repeated gives as many characters. -/
theorem length_repeated (n : Nat) (c : Char) : (repeated n c).length = n := by
  rw [repeated, String.length_ofList, List.length_replicate]

/-- A character repeated takes its octets each time. -/
theorem utf8ByteSize_repeated (n : Nat) (c : Char) :
    (repeated n c).utf8ByteSize = n * c.utf8Size := by
  rw [repeated, String.utf8ByteSize_ofList]
  induction n with
  | zero => simp
  | succ n ih => rw [List.replicate_succ, String.utf8Len_cons, ih, Nat.succ_mul]

/-- Of a character that is repeated, as many are kept as the budget has room for. -/
theorem fitting_replicate (budget n : Nat) (c : Char) :
    fitting budget (List.replicate n c) = List.replicate (min n (budget / c.utf8Size)) c := by
  have hpos : 0 < c.utf8Size := c.utf8Size_pos
  induction n generalizing budget with
  | zero => simp [fitting]
  | succ n ih =>
      rw [List.replicate_succ, fitting]
      by_cases hfits : c.utf8Size ≤ budget
      · have hdiv : budget / c.utf8Size = (budget - c.utf8Size) / c.utf8Size + 1 :=
          Nat.div_eq_sub_div hpos hfits
        rw [if_pos hfits, ih, hdiv, Nat.add_min_add_right, List.replicate_succ]
      · rw [if_neg hfits, Nat.div_eq_of_lt (by omega), Nat.min_zero, List.replicate_zero]

/-- The longest front of a repeated character repeats it as often as there is room. -/
theorem isLongestFront_repeated (limit n : Nat) (c : Char) :
    IsLongestFront limit (repeated n c) (repeated (min n (limit / c.utf8Size)) c) := by
  have hfitting := isLongestFront_fitting limit (repeated n c)
  rwa [repeated, String.toList_ofList, fitting_replicate] at hfitting

/-! ## The search -/

/-- The search comes from one offset to another in a number of steps, over offsets that a character extends
across. -/
inductive Retreats (s : String) : Nat → Nat → Nat → Prop
  | stop {n : Nat} (free : String.Pos.Raw.IsValid s ⟨n⟩) : Retreats s n 0 n
  | back {n steps stop : Nat} (within : ¬String.Pos.Raw.IsValid s ⟨n + 1⟩)
      (rest : Retreats s n steps stop) : Retreats s (n + 1) (steps + 1) stop

/-- A retreat ends as many octets before its start as it has steps. -/
theorem Retreats.add_eq {n steps stop : Nat} (h : Retreats s n steps stop) : stop + steps = n := by
  induction h with
  | stop => rfl
  | back _ _ ih => omega

/-- The search stops. -/
theorem exists_retreats (s : String) (n : Nat) : ∃ steps, Retreats s n steps (cutOffset s n) := by
  induction n with
  | zero => exact ⟨0, .stop (isValid_cutOffset s 0)⟩
  | succ n ih =>
      obtain ⟨steps, hsteps⟩ := ih
      rw [cutOffset]
      split
      next hfree => exact ⟨0, .stop hfree⟩
      next hwithin => exact ⟨steps + 1, .back hwithin hsteps⟩

/-- The search passes no place between two characters. -/
theorem Retreats.le_of_isValid {n steps stop m : Nat} (h : Retreats s n steps stop)
    (hfree : String.Pos.Raw.IsValid s ⟨m⟩) (hle : m ≤ n) : m ≤ stop := by
  induction h with
  | stop => exact hle
  | @back n steps stop hwithin _ ih =>
      have hne : m ≠ n + 1 := by
        rintro rfl
        exact hwithin hfree
      exact ih (by omega)

/-- Behind every beginning of a text there is a place between two characters. -/
theorem isValid_of_front {front : String} (h : front.toList <+: s.toList) :
    String.Pos.Raw.IsValid s ⟨front.utf8ByteSize⟩ := by
  obtain ⟨more, hmore⟩ := h
  refine String.Pos.Raw.isValid_iff_exists_append.2 ⟨front, .ofList more, ?_, rfl⟩
  rw [← String.toList_inj, String.toList_append, String.toList_ofList, hmore]

/-- What stands before the place that the search finds. -/
def beforeCut (s : String) (limit : Nat) : String := (s.sliceTo (cut s limit)).copy

/-- The cut splits a text into what is before it and what is behind. -/
theorem splits_cut (s : String) (limit : Nat) :
    (cut s limit).Splits (beforeCut s limit) (s.sliceFrom (cut s limit)).copy :=
  (cut s limit).splits

/-- What is before the cut has as many octets as the offset says. -/
theorem utf8ByteSize_beforeCut (s : String) (limit : Nat) :
    (beforeCut s limit).utf8ByteSize = cutOffset s limit :=
  (congrArg String.Pos.Raw.byteIdx (splits_cut s limit).offset_eq_rawEndPos).symm

/-- **The search finds the end of the longest beginning that fits.** -/
theorem isLongestFront_cut (limit : Nat) (s : String) :
    IsLongestFront limit s (beforeCut s limit) := by
  obtain ⟨steps, hsteps⟩ := exists_retreats s limit
  have hfront : (beforeCut s limit).toList <+: s.toList := by
    refine ⟨(s.sliceFrom (cut s limit)).copy.toList, ?_⟩
    rw [← String.toList_append, ← (splits_cut s limit).eq_append]
  refine ⟨hfront, ?_, ?_⟩
  · have hend := hsteps.add_eq
    rw [utf8ByteSize_beforeCut]
    omega
  · intro front hprefix hfits
    have hle : front.utf8ByteSize ≤ (beforeCut s limit).utf8ByteSize := by
      rw [utf8ByteSize_beforeCut]
      exact hsteps.le_of_isValid (isValid_of_front hprefix) hfits
    -- Of two beginnings of a text one is a beginning of the other, and the octets tell which.
    rcases List.prefix_or_prefix_of_prefix hprefix hfront with hshorter | hlonger
    · exact hshorter
    · obtain ⟨more, hmore⟩ := hlonger
      have hsize := congrArg utf8Len hmore
      rw [String.utf8Len_append, String.utf8Len_toList, String.utf8Len_toList] at hsize
      have hnone : more = [] := by
        have hpos := length_le_utf8Len more
        exact List.eq_nil_of_length_eq_zero (by omega)
      rw [← hmore, hnone, List.append_nil]

/-- A text is cut behind the longest beginning that fits. -/
theorem truncate_eq (h : IsLongestFront textLimit s kept) (hlong : textLimit < s.utf8ByteSize) :
    truncate s = kept ++ notice kept.utf8ByteSize := by
  rw [← (isLongestFront_cut textLimit s).unique h, utf8ByteSize_beforeCut, truncate,
    if_neg (by omega)]
  rfl

/-- **How a long text is cut.**  From the limit the search goes back at most three steps, and stops between
two characters.  The octets before that place are the longest beginning of whole characters that fits, at
least 99997 and at most 100000.  They are kept, and the notice gives their number. -/
theorem truncate_of_long {s : String} (hlong : 100000 < s.utf8ByteSize) :
    ∃ steps kept, steps ≤ 3 ∧ Retreats s 100000 steps kept.utf8ByteSize ∧
      cutOffset s 100000 = kept.utf8ByteSize ∧ String.Pos.Raw.IsValid s ⟨kept.utf8ByteSize⟩ ∧
      kept.toByteArray = s.toByteArray.extract 0 kept.utf8ByteSize ∧
      IsLongestFront 100000 s kept ∧ 99997 ≤ kept.utf8ByteSize ∧ kept.utf8ByteSize ≤ 100000 ∧
      truncate s = kept ++ s!"\n\n[... truncated at {kept.utf8ByteSize} chars]" := by
  obtain ⟨steps, hsteps⟩ := exists_retreats s 100000
  have hlongest := isLongestFront_cut 100000 s
  have hnear := hlongest.lt_add_four hlong
  have hend := hsteps.add_eq
  rw [← utf8ByteSize_beforeCut] at hsteps hend
  refine ⟨steps, beforeCut s 100000, by omega, hsteps, (utf8ByteSize_beforeCut s 100000).symm,
    isValid_of_front hlongest.front, ?_, hlongest, by omega, hlongest.fits, truncate_eq hlongest hlong⟩
  rw [utf8ByteSize_beforeCut]
  exact (splits_cut s 100000).toByteArray_left_eq

/-- A text with a character across the limit of which three octets stand before the limit. -/
def straddling : String := "x" ++ repeated 25000 '😀'

/-- All of the straddling text is kept but its last character, which does not fit whole. -/
theorem isLongestFront_straddling : IsLongestFront 100000 straddling ("x" ++ repeated 24999 '😀') := by
  have hfitting := isLongestFront_fitting 100000 straddling
  have htoList : ∀ n, ("x" ++ repeated n '😀').toList = 'x' :: List.replicate n '😀' := by
    intro n
    rw [String.toList_append, repeated, String.toList_ofList, String.toList_ofList,
      List.singleton_append]
  have hroom : min 25000 ((100000 - 'x'.utf8Size) / '😀'.utf8Size) = 24999 := by decide
  rwa [straddling, htoList, fitting, if_pos (by decide), fitting_replicate, hroom, ← htoList,
    String.ofList_toList] at hfitting

/-- **Three steps back are needed** where a character of four octets begins three octets before the
limit. -/
theorem truncate_straddling :
    100000 < straddling.utf8ByteSize ∧ Retreats straddling 100000 3 99997 ∧
      truncate straddling =
        "x" ++ repeated 24999 '😀' ++ "\n\n[... truncated at 99997 chars]" := by
  have hsize : straddling.utf8ByteSize = 100001 := by
    rw [straddling, String.utf8ByteSize_append, utf8ByteSize_repeated]
    rfl
  have hlong : 100000 < straddling.utf8ByteSize := by omega
  have hkept : ("x" ++ repeated 24999 '😀').utf8ByteSize = 99997 := by
    rw [String.utf8ByteSize_append, utf8ByteSize_repeated]
    rfl
  obtain ⟨steps, kept, _, hsteps, _, _, _, hlongest, _, _, hout⟩ := truncate_of_long hlong
  obtain rfl := hlongest.unique isLongestFront_straddling
  have hend := hsteps.add_eq
  rw [hkept] at hsteps hend hout
  obtain rfl : steps = 3 := by omega
  exact ⟨hlong, hsteps, hout⟩

/-! ## Notices -/

/-- The notice, character by character. -/
theorem toList_notice (n : Nat) :
    (notice n).toList =
      "\n\n[... truncated at".toList ++ ' ' :: (Nat.toDigits 10 n ++ " chars]".toList) := by
  have hblank : "\n\n[... truncated at ".toList = "\n\n[... truncated at".toList ++ [' '] := by decide
  have hdigits : (toString n).toList = Nat.toDigits 10 n := by
    rw [Nat.toString_eq_repr, Nat.repr_eq_ofList_toDigits, String.toList_ofList]
  change ("\n\n[... truncated at " ++ toString n ++ " chars]").toList = _
  rw [String.toList_append, String.toList_append, hdigits, hblank, List.append_assoc,
    List.append_assoc, List.singleton_append]

/-- **A notice can be told from what stands before it**, for no digit is a blank. -/
theorem notice_inj {kept kept' : String} {n m : Nat} (h : kept ++ notice n = kept' ++ notice m) :
    kept = kept' ∧ n = m := by
  have hblank : ∀ n, ' ' ∉ (Nat.toDigits 10 n).reverse := by
    intro n hmem
    have hdigit := Nat.isDigit_of_mem_toDigits (by omega) (by omega) (List.mem_reverse.1 hmem)
    exact absurd hdigit (by decide)
  have hlist := congrArg String.toList h
  rw [String.toList_append, String.toList_append, toList_notice, toList_notice] at hlist
  simp only [← List.append_assoc, ← List.cons_append, List.append_cancel_right_eq] at hlist
  -- The digits stand behind the last blank, so the texts are read from the end.
  have hreverse := congrArg List.reverse hlist
  simp only [List.reverse_append, List.reverse_cons, List.append_assoc, List.singleton_append]
    at hreverse
  obtain ⟨hdigits, hrest⟩ := append_cons_inj_of_not_mem hreverse (hblank n) (hblank m)
  have hkept : kept.toList = kept'.toList :=
    List.reverse_injective (List.append_cancel_left hrest)
  have hnumber : Nat.repr n = Nat.repr m := by
    rw [Nat.repr_eq_ofList_toDigits, Nat.repr_eq_ofList_toDigits, List.reverse_injective hdigits]
  exact ⟨String.toList_inj.1 hkept, Nat.repr_inj.1 hnumber⟩

/-! ## The limit as it is announced -/

/-- What is promised of a text with a limit in characters: a short text is kept as it is, and of a long
one a beginning is kept, behind which the notice gives its characters. -/
structure CutAtCharacters (limit : Nat) (s out : String) : Prop where
  short : s.length ≤ limit → out = s
  long : limit < s.length →
    ∃ kept : String, kept.toList <+: s.toList ∧ out = kept ++ notice kept.length

/-- A text that fits is cut by neither count. -/
theorem cutAtCharacters_of_fits (hfits : s.utf8ByteSize ≤ limit) : CutAtCharacters limit s s where
  short _ := rfl
  long hlong := by
    have hle : s.length ≤ s.utf8ByteSize := length_le_utf8ByteSize s
    omega

/-- For a text that does not fit the promise is kept if the text has too many characters and those that are
kept have one octet each, or if the text looks as if it had been cut already. -/
theorem cutAtCharacters_iff (hfront : kept.toList <+: s.toList) :
    CutAtCharacters limit s (kept ++ notice kept.utf8ByteSize) ↔
      if s.length ≤ limit then s = kept ++ notice kept.utf8ByteSize
      else ∀ c ∈ kept.toList, c.utf8Size = 1 := by
  have hcount : kept.utf8ByteSize = kept.length ↔ ∀ c ∈ kept.toList, c.utf8Size = 1 := by
    rw [← utf8Len_eq_length_iff, String.utf8Len_toList, String.length_toList]
  by_cases hshort : s.length ≤ limit
  · rw [if_pos hshort]
    constructor
    · intro h
      exact (h.short hshort).symm
    · intro h
      exact ⟨fun _ => h.symm, fun hlong => absurd hshort (by omega)⟩
  · rw [if_neg hshort, ← hcount]
    constructor
    · intro h
      obtain ⟨kept', _, heq⟩ := h.long (by omega)
      obtain ⟨rfl, hnumber⟩ := notice_inj heq
      exact hnumber
    · intro h
      refine ⟨fun hle => absurd hle hshort, fun _ => ⟨kept, hfront, ?_⟩⟩
      rw [h]

/-- **Where a text is cut.**  A text with at most as many octets as the limit says is kept as it is.  Of any
other text the longest beginning of whole characters is kept that has no more octets, and the notice gives
the number of these octets.  This is what a limit in characters promises just in case the text fits, or has
too many characters and every one that is kept has one octet, or looks as if it had been cut already. -/
theorem text_tells (s : String) :
    ∃ kept out, IsLongestFront textLimit s kept ∧ text s = ⟨[⟨"text", out⟩], false⟩ ∧
      (out = if s.utf8ByteSize ≤ textLimit then s else kept ++ notice kept.utf8ByteSize) ∧
      (CutAtCharacters textLimit s out ↔
        if s.length ≤ textLimit then
          s.utf8ByteSize ≤ textLimit ∨ s = kept ++ notice kept.utf8ByteSize
        else ∀ c ∈ kept.toList, c.utf8Size = 1) := by
  have hkept := isLongestFront_fitting textLimit s
  refine ⟨_, truncate s, hkept, rfl, ?_⟩
  by_cases hfits : s.utf8ByteSize ≤ textLimit
  · have hlength : s.length ≤ s.utf8ByteSize := length_le_utf8ByteSize s
    have hout : truncate s = s := by rw [truncate, if_pos hfits]
    rw [hout, if_pos hfits, if_pos (by omega)]
    exact ⟨rfl, fun _ => .inl hfits, fun _ => cutAtCharacters_of_fits hfits⟩
  · have hout := truncate_eq hkept (by omega)
    rw [hout, if_neg hfits, cutAtCharacters_iff hkept.front]
    refine ⟨rfl, ?_⟩
    simp only [hfits, false_or]

/-- **A text of a third of the characters is cut**, and the notice gives three times as many characters as
are kept. -/
theorem text_of_repeated_euro :
    (repeated 33334 '€').length = 33334 ∧
      text (repeated 33334 '€') = ⟨[⟨"text", repeated 33333 '€' ++ notice 99999⟩], false⟩ ∧
      ¬CutAtCharacters textLimit (repeated 33334 '€') (truncate (repeated 33334 '€')) := by
  have hkept : IsLongestFront textLimit (repeated 33334 '€') (repeated 33333 '€') :=
    isLongestFront_repeated textLimit 33334 '€'
  have hlength : (repeated 33334 '€').length = 33334 := length_repeated 33334 '€'
  have hnumber : (repeated 33333 '€').utf8ByteSize = 99999 := utf8ByteSize_repeated 33333 '€'
  have hlong : textLimit < (repeated 33334 '€').utf8ByteSize := by
    rw [utf8ByteSize_repeated]
    decide
  have hout := truncate_eq hkept hlong
  rw [hnumber] at hout
  refine ⟨hlength, ?_, ?_⟩
  · rw [text, hout]
    rfl
  · rw [hout, ← hnumber, cutAtCharacters_iff hkept.front, hlength, if_pos (by decide), hnumber]
    intro hsame
    have hmore := congrArg String.length hsame
    have hnotice : (notice 99999).length = 32 := by decide
    rw [String.length_append, length_repeated, length_repeated] at hmore
    omega

end RegistryGraph.ToolResult
