import RegistryGraph.Text.Utf8

/-!
# Hexadecimal notation

Digits are written in lower case and read in either case.  `Hex.valueOf` reads back what `Hex.padded`
writes.
-/

namespace RegistryGraph.Hex

/-- The digit for a number below 16. -/
def digit (n : Nat) : Char := if n < 10 then .ofNat (48 + n) else .ofNat (87 + n)

/-- The value of a digit of either case. -/
def value? (c : Char) : Option Nat :=
  if '0' ≤ c && c ≤ '9' then some (c.toNat - 48)
  else if 'a' ≤ c && c ≤ 'f' then some (c.toNat - 87)
  else if 'A' ≤ c && c ≤ 'F' then some (c.toNat - 55)
  else none

/-- The value of an octet that is a digit of either case. -/
def octetValue? (b : UInt8) : Option Nat := value? (.ofNat b.toNat)

/-- The two digits of an octet. -/
def octet (b : UInt8) : List Char := [digit (b.toNat / 16), digit (b.toNat % 16)]

/-- The digits of a number, without leading zeros. -/
def digits (n : Nat) : List Char :=
  if n < 16 then [digit n] else digits (n / 16) ++ [digit (n % 16)]

/-- The digits of a number, with leading zeros up to `width`. -/
def padded (width n : Nat) : List Char :=
  List.replicate (width - (digits n).length) '0' ++ digits n

/-- The number that some digits stand for. -/
def valueOf (cs : List Char) : Nat := cs.foldl (fun n c => 16 * n + (value? c).getD 0) 0

/-- A hexadecimal digit is worth the number it is written for. -/
theorem value_digit {n : Nat} (h : n < 16) : value? (digit n) = some n := by
  revert n; decide

/-- Digits are worth the number they are written for. -/
theorem valueOf_digits (n : Nat) : valueOf (digits n) = n := by
  induction n using digits.induct with
  | case1 n h => rw [digits, if_pos h]; simp [valueOf, value_digit h]
  | case2 n h ih =>
    rw [digits, if_neg h, valueOf, List.foldl_append, ← valueOf, ih]
    simp only [List.foldl_cons, List.foldl_nil, value_digit (Nat.mod_lt n (by decide)),
      Option.getD_some]
    omega

/-- Zeros in front of digits add nothing to their worth. -/
theorem valueOf_replicate_append (k : Nat) (cs : List Char) :
    valueOf (List.replicate k '0' ++ cs) = valueOf cs := by
  induction k with
  | zero => rfl
  | succ k ih => simpa [valueOf, List.replicate_succ, value?] using ih

/-- Padding changes the width of a number and not its worth. -/
theorem valueOf_padded (width n : Nat) : valueOf (padded width n) = n := by
  rw [padded, valueOf_replicate_append, valueOf_digits]

end RegistryGraph.Hex
