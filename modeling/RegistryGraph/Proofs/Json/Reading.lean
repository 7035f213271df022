import RegistryGraph.Json.Parser
import RegistryGraph.Json.Printer
import RegistryGraph.Proofs.Text.Utf8

/-!
# Reading strings and integers

The reader takes one octet at a time.  What it makes of a stretch of octets does not depend on what it has
read before, apart from its state; so the readings of two stretches can be put together.  This file has
the readings of what the writer makes of strings and of integers.

* `Json.State.Reads`: the octets between two states; `Json.State.Stops`: octets that are refused.
* `Json.State.reads_quotation`: a string reads back, whatever characters it has.
* `Json.State.reads_digits`: digits read back as the number that they stand for.
-/

namespace RegistryGraph.Json

/-- The octets of characters. -/
def octets (cs : List Char) : Octets := cs.flatMap String.utf8EncodeChar

/-- Characters are encoded part by part. -/
theorem octets_append (cs ds : List Char) : octets (cs ++ ds) = octets cs ++ octets ds :=
  List.flatMap_append

/-- A single character is encoded as itself. -/
theorem octets_singleton (c : Char) : octets [c] = String.utf8EncodeChar c := List.flatMap_singleton _ _

/-- The compact text of a value, as octets. -/
theorem encode_compact (v : Json) : Utf8.encode v.compact = octets (chars v) := by
  rw [Utf8.encode, compact, String.toList_ofList, octets]

namespace State

/-- **A reading**: the octets take the reader from one state to another. -/
inductive Reads : State → Octets → State → Prop
  | nil (s : State) : Reads s [] s
  | cons {s s₁ s' : State} {b : UInt8} {rest : Octets} (first : s.step b = .ok s₁)
      (others : Reads s₁ rest s') : Reads s (b :: rest) s'

variable {s s₁ s' : State} {b : UInt8} {xs ys : Octets} {stack : List Container}

/-- One step reads one octet. -/
theorem Reads.one (h : s.step b = .ok s') : Reads s [b] s' := .cons h (.nil s')

/-- Readings are put together. -/
theorem Reads.append (h : Reads s xs s₁) (h' : Reads s₁ ys s') : Reads s (xs ++ ys) s' := by
  induction h with
  | nil s => exact h'
  | cons first _ ih => exact .cons first (ih h')

/-- The reader refuses one of the octets. -/
inductive Stops (fault : Fault) : State → Octets → Prop
  | here {s : State} {b : UInt8} {rest : Octets} {back : Nat}
      (refused : s.step b = .error ⟨fault, back⟩) : Stops fault s (b :: rest)
  | later {s s₁ : State} {b : UInt8} {rest : Octets} (first : s.step b = .ok s₁)
      (others : Stops fault s₁ rest) : Stops fault s (b :: rest)

/-- A reader that has stopped does so whatever follows. -/
theorem Stops.append {fault : Fault} (h : Stops fault s xs) (ys : Octets) :
    Stops fault s (xs ++ ys) := by
  induction h with
  | here refused => exact .here refused
  | later first _ ih => exact .later first ih

/-- A reader that goes on and then stops has stopped on the whole. -/
theorem Reads.stops {fault : Fault} (h : Reads s xs s₁) (h' : Stops fault s₁ ys) :
    Stops fault s (xs ++ ys) := by
  induction h with
  | nil s => exact h'
  | cons first _ ih => exact .later first (ih h')

/-- A reading of the whole text decides what the text is. -/
theorem Reads.run (h : Reads s xs s') {v : Json} (hfinish : s'.finish = .ok v) (line column : Nat) :
    s.run line column xs = .ok v := by
  induction h generalizing line column with
  | nil s => rw [State.run, hfinish]
  | cons first _ ih =>
      rw [State.run, first]
      exact ih hfinish _ _

/-- A text of which one octet is refused is no value. -/
theorem Stops.run {fault : Fault} (h : Stops fault s xs) (line column : Nat) :
    ∃ e, s.run line column xs = .error e ∧ e.fault = fault := by
  induction h generalizing line column with
  | @here s b rest back refused =>
      rw [State.run, refused]
      cases back with
      | zero => exact ⟨_, rfl, rfl⟩
      | succ back => exact ⟨_, rfl, rfl⟩
  | later first _ ih =>
      rw [State.run, first]
      exact ih _ _

/-! ## Strings -/

variable {isKey : Bool} {done source : Octets}

/-- Within a string the reader moves as its string state does and keeps the source. -/
theorem step_string {part part' : StringPart} {done' : Octets}
    (h : StringState.advance b done part = .ok (some (done', part'))) :
    step b ⟨.string isKey ⟨done, part, source⟩, stack⟩ =
      .ok ⟨.string isKey ⟨done', part', b :: source⟩, stack⟩ := by
  have hstep : StringState.step b ⟨done, part, source⟩ = .ok (.more ⟨done', part', b :: source⟩) := by
    unfold StringState.step
    rw [h]
    rfl
  rw [step]
  dsimp only
  rw [hstep]

/-- The reader has got from some text of a string to a longer one. -/
def Gains (isKey : Bool) (stack : List Container) (done : Octets) (xs : Octets) (done' : Octets) : Prop :=
  ∀ source, ∃ source', Reads ⟨.string isKey ⟨done, .plain, source⟩, stack⟩ xs
    ⟨.string isKey ⟨done', .plain, source'⟩, stack⟩

/-- Nothing read, nothing gained. -/
theorem Gains.nil : Gains isKey stack done [] done := fun source => ⟨source, .nil _⟩

/-- What two parts gain adds up. -/
theorem Gains.append {done₁ done' : Octets} (h : Gains isKey stack done xs done₁)
    (h' : Gains isKey stack done₁ ys done') : Gains isKey stack done (xs ++ ys) done' := by
  intro source
  obtain ⟨source₁, hreads⟩ := h source
  obtain ⟨source', hreads'⟩ := h' source₁
  exact ⟨source', hreads.append hreads'⟩

/-- What stands for itself in a string. -/
def IsLiteral (b : UInt8) : Prop := b ≠ 0x22 ∧ b ≠ 0x5C ∧ ¬b < 0x20

/-- Octets that stand for themselves are gained as they are. -/
theorem gains_literal (h : ∀ b ∈ xs, IsLiteral b) :
    Gains isKey stack done xs (xs.reverse ++ done) := by
  induction xs generalizing done with
  | nil => exact .nil
  | cons b rest ih =>
      rw [List.forall_mem_cons] at h
      obtain ⟨⟨hquote, hbackslash, hcontrol⟩, hrest⟩ := h
      have hadvance : StringState.advance b done .plain = .ok (some (b :: done, .plain)) := by
        rw [StringState.advance, if_neg hquote, if_neg hbackslash, if_neg hcontrol]
      intro source
      obtain ⟨source', hreads⟩ := ih hrest (b :: source)
      rw [List.reverse_cons, List.append_assoc]
      exact ⟨source', .cons (step_string hadvance) hreads⟩

/-- A backslash and a letter. -/
theorem gains_escaped {c : UInt8} (h : StringState.escaped? b = some c) (hletter : b ≠ 0x75) :
    Gains isKey stack done [0x5C, b] (c :: done) := by
  intro source
  have hbackslash : StringState.advance 0x5C done .plain = .ok (some (done, .escape)) := rfl
  have hadvance : StringState.advance b done .escape = .ok (some (c :: done, .plain)) := by
    rw [StringState.advance, if_neg hletter, h]
  exact ⟨_, .cons (step_string hbackslash) (.one (step_string hadvance))⟩

/-- Two hexadecimal digits behind two zeros. -/
theorem hexValue_digits {n : Nat} (h : n < 0x20) :
    StringState.hexValue [UInt8.ofNat (Hex.digit (n % 16)).toNat,
      UInt8.ofNat (Hex.digit (n / 16)).toNat, 0x30, 0x30] = some n := by
  revert n
  decide

/-- A hexadecimal digit is a single octet. -/
theorem utf8EncodeChar_digit {n : Nat} (h : n < 16) :
    String.utf8EncodeChar (Hex.digit n) = [UInt8.ofNat (Hex.digit n).toNat] := by
  revert n
  decide

/-- A control character by its number. -/
theorem gains_numbered {c : Char} (h : c.toNat < 0x20) :
    Gains isKey stack done
      (octets ['\\', 'u', '0', '0', Hex.digit (c.toNat / 16), Hex.digit (c.toNat % 16)])
      ((String.utf8EncodeChar c).reverse ++ done) := by
  have hoctets :
      octets ['\\', 'u', '0', '0', Hex.digit (c.toNat / 16), Hex.digit (c.toNat % 16)] =
        [0x5C, 0x75, 0x30, 0x30, UInt8.ofNat (Hex.digit (c.toNat / 16)).toNat,
          UInt8.ofNat (Hex.digit (c.toNat % 16)).toNat] := by
    have hhigh := utf8EncodeChar_digit (show c.toNat / 16 < 16 by omega)
    have hlow := utf8EncodeChar_digit (show c.toNat % 16 < 16 by omega)
    simp only [octets, List.flatMap_cons, List.flatMap_nil, hhigh, hlow]
    rfl
  have hlast : StringState.advance (UInt8.ofNat (Hex.digit (c.toNat % 16)).toNat) done
      (.hex [UInt8.ofNat (Hex.digit (c.toNat / 16)).toNat, 0x30, 0x30] none) =
        .ok (some ((String.utf8EncodeChar c).reverse ++ done, .plain)) := by
    have hlow : StringState.isLow c.toNat = false := by
      rw [StringState.isLow, Bool.and_eq_false_iff, decide_eq_false_iff_not]
      omega
    have hhigh : StringState.isHigh c.toNat = false := by
      rw [StringState.isHigh, Bool.and_eq_false_iff, decide_eq_false_iff_not]
      omega
    rw [StringState.advance, if_neg (by simp), hexValue_digits h]
    simp [StringState.addUnit, hlow, hhigh, StringState.push, Except.map]
  rw [hoctets]
  intro source
  exact ⟨_, .cons (step_string rfl) (.cons (step_string rfl) (.cons (step_string rfl)
    (.cons (step_string rfl) (.cons (step_string rfl) (.one (step_string hlast))))))⟩

/-- A character that is neither a quote nor a backslash nor a control character stands for itself. -/
theorem isLiteral_of_mem {c : Char} (hquote : c ≠ '"') (hbackslash : c ≠ '\\') (hplain : ¬c.toNat < 0x20)
    (hb : b ∈ String.utf8EncodeChar c) : IsLiteral b := by
  have hascii : b.toNat < 0x80 → c.toNat = b.toNat :=
    (Utf8.spells_encodeChar c).eq_of_mem_ascii hb
  have hne : ∀ d : Char, c ≠ d → c.toNat ≠ d.toNat := fun d hd heq => hd (Char.toNat_inj.1 heq)
  refine ⟨?_, ?_, ?_⟩
  · rintro rfl
    exact hne '"' hquote (hascii (by decide))
  · rintro rfl
    exact hne '\\' hbackslash (hascii (by decide))
  · intro hcontrol
    have hlt : b.toNat < 0x20 := hcontrol
    exact hplain (by rw [hascii (by omega)]; exact hlt)

/-- **A character of a string reads back**, however it is written. -/
theorem gains_escapeChar (c : Char) :
    Gains isKey stack done (octets (escapeChar c)) ((String.utf8EncodeChar c).reverse ++ done) := by
  unfold escapeChar
  -- One case per escape, then the numbered escapes and the characters that stand for themselves.
  split
  next h =>
    subst h
    exact gains_escaped (b := 0x22) rfl (by decide)
  next hquote =>
    split
    next h =>
      subst h
      exact gains_escaped (b := 0x5C) rfl (by decide)
    next hbackslash =>
      split
      next h =>
        subst h
        exact gains_escaped (b := 0x6E) rfl (by decide)
      split
      next h =>
        subst h
        exact gains_escaped (b := 0x72) rfl (by decide)
      split
      next h =>
        subst h
        exact gains_escaped (b := 0x74) rfl (by decide)
      split
      next h =>
        subst h
        exact gains_escaped (b := 0x62) rfl (by decide)
      split
      next h =>
        subst h
        exact gains_escaped (b := 0x66) rfl (by decide)
      split
      next hcontrol => exact gains_numbered hcontrol
      next hplain =>
        rw [octets_singleton]
        exact gains_literal fun b hb => isLiteral_of_mem hquote hbackslash hplain hb

/-- An escaped text gains the text that was escaped. -/
theorem gains_text (cs : List Char) :
    Gains isKey stack done (octets (cs.flatMap escapeChar)) ((octets cs).reverse ++ done) := by
  induction cs generalizing done with
  | nil => exact .nil
  | cons c cs ih =>
      have hoctets : octets (c :: cs) = String.utf8EncodeChar c ++ octets cs := List.flatMap_cons
      rw [List.flatMap_cons, octets_append, hoctets, List.reverse_append, List.append_assoc]
      exact (gains_escapeChar c).append ih

/-- **A string reads back.**  What it leads to depends on whether it is a key. -/
theorem reads_quotation {text : String}
    (h : ∀ read : StringState, read.text = .ok text → closeString isKey read stack = .ok s') :
    Reads ⟨.string isKey .start, stack⟩ (octets (text.toList.flatMap escapeChar ++ ['"'])) s' := by
  have htext : Gains isKey stack [] (octets (text.toList.flatMap escapeChar))
      ((octets text.toList).reverse ++ []) := gains_text text.toList
  obtain ⟨source, hreads⟩ := htext []
  rw [octets_append]
  refine hreads.append (.one ?_)
  rw [List.append_nil]
  refine h _ ?_
  have hdecode : Utf8.decode (octets text.toList).reverse.reverse = .ok text := by
    rw [List.reverse_reverse]
    exact Utf8.decode_encode text
  rw [StringState.text]
  dsimp only
  rw [hdecode]

/-! ## Integers -/

/-- The numeral of a number without a sign. -/
def wholeOf (n : Nat) : Numeral := if n = 0 then .zero else .whole n

/-- A decimal digit is a single octet, and it reads as its value. -/
theorem digit?_digitChar {n : Nat} (h : n < 10) :
    String.utf8EncodeChar (Nat.digitChar n) = [UInt8.ofNat (Nat.digitChar n).toNat] ∧
      digit? (UInt8.ofNat (Nat.digitChar n).toNat) = some n := by
  revert n
  decide

/-- The first digit behind a sign begins the whole part. -/
theorem step_sign {d : Nat} (h : digit? b = some d) : Numeral.sign.step b = .ok (some (wholeOf d)) := by
  rw [Numeral.step, h]
  cases d with
  | zero => rfl
  | succ d => rfl

/-- A further digit within the limit extends the significand. -/
theorem step_whole {significand d : Nat} (h : digit? b = some d)
    (hle : significand * 10 + d ≤ Numeral.significandLimit) :
    Numeral.step b (.whole significand) = .ok (some (.whole (significand * 10 + d))) := by
  rw [Numeral.step, h]
  dsimp only
  rw [Numeral.addWhole, if_neg (Nat.not_lt.2 hle)]

/-- Within a number the reader moves as the numeral does. -/
theorem step_number {negative : Bool} {n n' : Numeral} (h : n.step b = .ok (some n')) :
    step b ⟨.number negative n, stack⟩ = .ok ⟨.number negative n', stack⟩ := by
  rw [step]
  dsimp only
  rw [h]

/-- **Digits read back**, as long as the number has its place in the significand. -/
theorem reads_digits (negative : Bool) {n : Nat} (h : n ≤ Numeral.significandLimit) :
    Reads ⟨.number negative .sign, stack⟩ (octets (digits n)) ⟨.number negative (wholeOf n), stack⟩ := by
  induction n using Nat.strongRecOn with
  | ind n ih =>
      by_cases hsmall : n < 10
      · obtain ⟨hencode, hdigit⟩ := digit?_digitChar hsmall
        rw [digits, Nat.toDigits_of_lt_base hsmall, octets_singleton, hencode]
        exact .one (step_number (step_sign hdigit))
      · have hlast : n % 10 < 10 := Nat.mod_lt n (by decide)
        obtain ⟨hencode, hdigit⟩ := digit?_digitChar hlast
        have hearlier := ih (n / 10) (by omega) (by omega)
        have hwhole : n / 10 * 10 + n % 10 = n := by omega
        have hstep := step_whole hdigit (hwhole.symm ▸ h)
        rw [hwhole] at hstep
        rw [digits, Nat.toDigits_of_base_le (by decide) (Nat.not_lt.1 hsmall), octets_append,
          octets_singleton, hencode]
        rw [wholeOf, if_neg (by omega)] at hearlier ⊢
        exact hearlier.append (.one (step_number hstep))

end State

end RegistryGraph.Json
