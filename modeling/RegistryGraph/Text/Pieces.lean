/-!
# Cutting at a separator

`Text.pieces` cuts a text at every occurrence of a separator.  There is always one piece more than there
are separators, so a text without any is one piece.
-/

namespace RegistryGraph.Text

/-- The stretches between the separators. -/
def pieces (separator : Char) : List Char → List (List Char)
  | [] => [[]]
  | c :: rest =>
    if c = separator then [] :: pieces separator rest
    else
      match pieces separator rest with
      | [] => [[c]]
      | piece :: others => (c :: piece) :: others

/-- What stands before the first separator. -/
def before (separator : Char) (cs : List Char) : List Char := cs.takeWhile (· ≠ separator)

/-- What stands behind the first separator; nothing if there is none. -/
def behind (separator : Char) (cs : List Char) : List Char := (cs.dropWhile (· ≠ separator)).drop 1

/-- Even the empty text has a piece, the empty one. -/
theorem pieces_ne_nil (separator : Char) (cs : List Char) : pieces separator cs ≠ [] := by
  cases cs with
  | nil => simp [pieces]
  | cons c rest =>
    simp only [pieces]
    split
    · simp
    · split <;> simp

end RegistryGraph.Text
