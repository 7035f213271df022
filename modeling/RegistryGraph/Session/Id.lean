import RegistryGraph.Text.Hex

/-!
# Session ids

The id of a session is drawn at random.  An `IdGenerator` holds everything that is ever drawn, in order; it
may draw an id again, but it does not draw from the taken ids for ever.  An `IdSupply` draws no id twice;
`IdSupply.hexadecimal` counts, with 32 hexadecimal digits, or more where they do not suffice.
-/

namespace RegistryGraph

/-- An endless row of drawn ids. -/
structure IdGenerator where
  draw : Nat → String
  /-- How many ids may be drawn from number `n` on before one comes that is not taken. -/
  patience : (taken : List String) → (n : Nat) → Nat
  escapes : ∀ taken n, ∃ k ≤ patience taken n, draw (n + k) ∉ taken

/-- An endless supply of ids. -/
structure IdSupply where
  id : Nat → String
  injective : ∀ m n, id m = id n → m = n

namespace IdSupply

/-- If the ids with the next `count` numbers are all taken, so many are taken. -/
theorem le_length_of_taken (s : IdSupply) {count : Nat} {taken : List String} {n : Nat}
    (h : ∀ k < count, s.id (n + k) ∈ taken) : count ≤ taken.length := by
  induction count generalizing taken n with
  | zero => exact Nat.zero_le _
  | succ count ih =>
      have hfirst : s.id n ∈ taken := h 0 (Nat.succ_pos count)
      -- Without the first of them the others are still taken.
      have hothers : ∀ k < count, s.id (n + 1 + k) ∈ taken.erase (s.id n) := by
        intro k hk
        have hne : s.id (n + 1 + k) ≠ s.id n := by
          intro heq
          have hnumber := s.injective _ _ heq
          omega
        have hnext : s.id (n + 1 + k) ∈ taken := by
          rw [Nat.add_assoc, Nat.add_comm 1 k]
          exact h (k + 1) (by omega)
        exact (List.mem_erase_of_ne hne).2 hnext
      have hrest := ih hothers
      have hpos := List.length_pos_of_mem hfirst
      rw [List.length_erase_of_mem hfirst] at hrest
      omega

/-- The supply as a generator: as many ids as are taken can be drawn in vain. -/
def generator (s : IdSupply) : IdGenerator where
  draw := s.id
  patience taken _ := taken.length
  escapes := by
    intro taken n
    apply Classical.byContradiction
    intro hnone
    have htaken : ∀ k < taken.length + 1, s.id (n + k) ∈ taken := by
      intro k hk
      apply Classical.byContradiction
      intro hfree
      exact hnone ⟨k, by omega, hfree⟩
    have hle := s.le_length_of_taken htaken
    omega

instance : Coe IdSupply IdGenerator := ⟨generator⟩

/-- Ids that count, with 32 hexadecimal digits or more. -/
def hexadecimal : IdSupply where
  id n := .ofList (Hex.padded 32 n)
  injective m n h := by
    rw [← Hex.valueOf_padded 32 m, ← Hex.valueOf_padded 32 n]
    exact congrArg Hex.valueOf (String.ofList_injective h)

end IdSupply

/-- The generator that counts. -/
def IdGenerator.hexadecimal : IdGenerator := IdSupply.hexadecimal

end RegistryGraph
