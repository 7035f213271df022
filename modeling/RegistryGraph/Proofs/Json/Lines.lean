import RegistryGraph.Json.Printer

/-!
# The compact form of a value

Strings are escaped when they are written, and nothing else that is written on one line has a control
character.  So a value in compact form is one line, whatever texts it holds.

* `Json.plain_chars`: the compact form has no control characters.
* `Json.lineFeed_not_mem_compact`: in particular it has no line feed.
-/

namespace RegistryGraph.Json

/-- There is no control character below U+0020. -/
def Plain (cs : List Char) : Prop := ∀ c ∈ cs, 0x20 ≤ c.toNat

section
variable {c : Char} {cs ds : List Char}

/-- The empty text is plain. -/
@[simp] theorem plain_nil : Plain [] := fun c hc => by cases hc

/-- Plain text, character by character. -/
@[simp] theorem plain_cons : Plain (c :: cs) ↔ 0x20 ≤ c.toNat ∧ Plain cs := List.forall_mem_cons

/-- Plain text, part by part. -/
@[simp] theorem plain_append : Plain (cs ++ ds) ↔ Plain cs ∧ Plain ds := List.forall_mem_append

/-- Characters out of a plain text are plain. -/
theorem Plain.mono (h : Plain cs) (hsub : ds ⊆ cs) : Plain ds := fun c hc => h c (hsub hc)

/-- A plain character repeated is plain. -/
theorem plain_replicate (n : Nat) (h : 0x20 ≤ c.toNat) : Plain (List.replicate n c) :=
  fun _ hd => List.eq_of_mem_replicate hd ▸ h

end

/-! ## Strings -/

/-- A hexadecimal digit is no control character. -/
theorem plain_hexDigit {n : Nat} (h : n < 16) : 0x20 ≤ (Hex.digit n).toNat := by
  revert n
  decide

/-- A control character is escaped. -/
theorem plain_escapeChar (c : Char) : Plain (escapeChar c) := by
  unfold escapeChar
  -- One case per escape, then the numbered escapes and the characters that stand for themselves.
  split
  · simp
  split
  · simp
  split
  · simp
  split
  · simp
  split
  · simp
  split
  · simp
  split
  · simp
  split
  next hcontrol =>
    have hhigh := plain_hexDigit (show c.toNat / 16 < 16 by omega)
    have hlow := plain_hexDigit (show c.toNat % 16 < 16 by omega)
    simp [hhigh, hlow]
  next hplain =>
    simp only [plain_cons, plain_nil, and_true]
    omega

/-- A quoted string is plain: every control character is escaped. -/
theorem plain_quoted (s : String) : Plain (quoted s) := by
  have htext : Plain (s.toList.flatMap escapeChar) := by
    intro d hd
    obtain ⟨c, _, hd⟩ := List.mem_flatMap.1 hd
    exact plain_escapeChar c d hd
  simp [quoted, htext]

/-! ## Numbers -/

/-- Digits are plain. -/
theorem plain_digits (n : Nat) : Plain (digits n) := by
  intro c hc
  have hdigit : c.isDigit = true := Nat.isDigit_of_mem_toDigits (by decide) (by decide) hc
  simp only [Char.isDigit, Bool.and_eq_true, decide_eq_true_eq, ge_iff_le, UInt32.le_iff_toNat_le]
    at hdigit
  have hzero : (48 : UInt32).toNat ≤ c.toNat := hdigit.1
  exact Nat.le_trans (by decide) hzero

/-- A written integer is plain. -/
theorem plain_integerChars (n : Int) : Plain (integerChars n) := by
  unfold integerChars
  split
  · simp [plain_digits]
  · exact plain_digits _

/-- Digits with a point among them. -/
theorem plain_pointed {ds : List Char} (h : Plain ds) (n : Nat) :
    Plain (ds.take n ++ '.' :: ds.drop n) := by
  have hpoint : 0x20 ≤ '.'.toNat := by decide
  rw [plain_append, plain_cons]
  exact ⟨h.mono (List.take_subset n ds), hpoint, h.mono (List.drop_subset n ds)⟩

/-- Digits with a decimal point set among them are plain. -/
theorem plain_positional {ds : List Char} (h : Plain ds) (order : Int) :
    Plain (positional ds order) := by
  have hzeros (n : Nat) : Plain (List.replicate n '0') := plain_replicate n (by decide)
  unfold positional
  split
  · simp [hzeros, h]
  · dsimp only
    split
    · simp [hzeros, h]
    · exact plain_pointed h _

/-- Digits with an exponent behind them are plain. -/
theorem plain_scientific {ds : List Char} (h : Plain ds) (order : Int) :
    Plain (scientific ds order) := by
  have hmantissa : Plain (if ds.length ≤ 1 then ds else ds.take 1 ++ '.' :: ds.drop 1) := by
    split
    · exact h
    · exact plain_pointed h 1
  have hsign : Plain ['e', if order < 0 then '-' else '+'] := by
    split <;> simp
  unfold scientific
  rw [plain_append, plain_append]
  exact ⟨⟨hmantissa, hsign⟩, plain_digits _⟩

/-- A written double is plain, in either of its notations. -/
theorem plain_doubleChars (x : Binary64) : Plain (doubleChars x) := by
  have hsign : Plain (if x.negative then ['-'] else []) := by
    split <;> simp
  unfold doubleChars
  dsimp only
  split
  · simp [hsign]
  · rw [plain_append]
    refine ⟨hsign, ?_⟩
    split
    · exact plain_positional (plain_digits _) _
    · exact plain_scientific (plain_digits _) _

/-- A written number is plain. -/
theorem plain_numberChars (n : Number) : Plain (numberChars n) := by
  cases n with
  | integer n => exact plain_integerChars n
  | double x => exact plain_doubleChars x

/-! ## Values -/

mutual

/-- **The compact form has no control characters.** -/
theorem plain_chars : ∀ v : Json, Plain (chars v)
  | .null | .bool true | .bool false => by simp [chars]
  | .number n => by simpa [chars] using plain_numberChars n
  | .string s => by simpa [chars] using plain_quoted s
  | .array items => by simp [chars, plain_itemChars items]
  | .object members => by simp [chars, plain_memberChars members]

/-- The items of an array are written plainly if each is. -/
theorem plain_itemChars : ∀ items : List Json, Plain (itemChars items)
  | [] => by simp [itemChars]
  | v :: rest => by simp [itemChars, plain_chars v, plain_itemCharsAfter rest]

/-- The items behind the first are written plainly, each with its comma. -/
theorem plain_itemCharsAfter : ∀ items : List Json, Plain (itemCharsAfter items)
  | [] => by simp [itemCharsAfter]
  | v :: rest => by simp [itemCharsAfter, plain_chars v, plain_itemCharsAfter rest]

/-- The members of an object are written plainly if each value is. -/
theorem plain_memberChars : ∀ members : List (String × Json), Plain (memberChars members)
  | [] => by simp [memberChars]
  | (k, v) :: rest => by
      simp [memberChars, plain_quoted k, plain_chars v, plain_memberCharsAfter rest]

/-- The members behind the first are written plainly, each with its comma. -/
theorem plain_memberCharsAfter : ∀ members : List (String × Json), Plain (memberCharsAfter members)
  | [] => by simp [memberCharsAfter]
  | (k, v) :: rest => by
      simp [memberCharsAfter, plain_quoted k, plain_chars v, plain_memberCharsAfter rest]

end

/-- **The compact form is one line.** -/
theorem lineFeed_not_mem_compact (v : Json) : '\n' ∉ v.compact.toList := by
  rw [compact, String.toList_ofList]
  intro hmem
  exact absurd (plain_chars v '\n' hmem) (by decide)

end RegistryGraph.Json
