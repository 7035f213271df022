import Std.Data.ExtTreeMap

/-!
# Tables keyed by text

A table from text to values whose entries stand in ascending order of their keys.  Strings compare
by code point, which is also the order of their UTF-8 octets.  Two tables with the same entries are
equal, so a statement about a table never depends on how it was filled.
-/

namespace RegistryGraph

/-- A table keyed by text, in ascending key order. -/
abbrev Keyed (α : Type) : Type := Std.ExtTreeMap String α

namespace Keyed

variable {α : Type}

/-- Appends `a` to the list filed under `k`. -/
def append (t : Keyed (List α)) (k : String) (a : α) : Keyed (List α) :=
  t.alter k fun entry => some (entry.getD [] ++ [a])

/-- The list filed under `k`; empty when there is none. -/
def listAt (t : Keyed (List α)) (k : String) : List α := t.getD k []

/-- The table of the pairs in `entries`; of two pairs with one key the later counts. -/
def ofPairs (entries : List (String × α)) : Keyed α :=
  entries.foldl (fun t e => t.insert e.1 e.2) ∅

end Keyed

end RegistryGraph
