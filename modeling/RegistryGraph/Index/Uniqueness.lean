import RegistryGraph.Index.Basic
import RegistryGraph.Text.Blank

/-!
# Uniqueness of numbers and ids

Two elements must not share a registry number (attribute `nmr`, trimmed), nor an id.  Elements that
were displaced by a taken id count in both checks.
-/

namespace RegistryGraph

/-- Elements of one document that share what must be unique. -/
inductive Violation where
  /-- The ids of the elements with the number `nmr`, sorted, with repetitions. -/
  | sharedNumber (nmr : String) (owners : List String)
  /-- The number of elements with the id. -/
  | repeatedId (id : String) (count : Nat)
deriving DecidableEq, Repr

namespace Violation

/-- The attribute that holds the registry number. -/
def numberKey : String := "nmr"

/-- The parts of an id before and after its first colon. -/
def splitId (id : String) : String × String :=
  let cs := id.toList
  let type := cs.takeWhile (· ≠ ':')
  (.ofList type, .ofList ((cs.drop type.length).drop 1))

/-- The wording of a violation. -/
def message : Violation → String
  | .sharedNumber nmr owners =>
    s!"duplicate nmr '{nmr}' shared by " ++ String.intercalate ", " owners
  | .repeatedId id count =>
    let (type, code) := splitId id
    s!"duplicate code '{code}' for type '{type}' ({count} elements share id {id})"

end Violation

namespace EntityIndex

/-- All coded elements: the entities in ascending order of their ids, then the duplicates. -/
def elements (index : EntityIndex) : List Entity := index.all ++ index.duplicates

/-- The ids of the elements with each number that is not blank. -/
def numberOwners (index : EntityIndex) : Keyed (List String) :=
  index.elements.foldl
    (fun owners e =>
      let nmr := Text.trim (e.attributeD Violation.numberKey)
      if nmr.isEmpty then owners else owners.append nmr e.id)
    ∅

/-- The number of duplicates of each id. -/
def duplicateCounts (index : EntityIndex) : Keyed Nat :=
  index.duplicates.foldl (fun counts e => counts.insert e.id (counts.getD e.id 0 + 1)) ∅

/-- The violations of an index: shared numbers in ascending order, then repeated ids. -/
def violations (index : EntityIndex) : List Violation :=
  (index.numberOwners.toList.filter (·.2.length > 1)).map
      (fun e => .sharedNumber e.1 (e.2.mergeSort fun a b => (compare a b).isLE)) ++
    index.duplicateCounts.toList.map (fun e => .repeatedId e.1 (e.2 + 1))

end EntityIndex

end RegistryGraph
