import RegistryGraph.Document.Basic
import RegistryGraph.Proofs.Text.Utf8

/-!
# Tables are written

A table can fail to be written in three ways: a record has another length than the first, the memory is
full, or what has been written is no text.  None of them happens to a table of one width that goes to a
growing memory: its text is `Csv.text`, the records one after the other.

* `Csv.write_eq_ok`: a table of one width is written.
* `EntityIndex.csv_eq`: so is every table over an index.
* `EntityIndex.exists_document`: a document is made unless its filter names an unknown parent.
-/

namespace RegistryGraph

namespace Csv

variable {n : Nat} {records : List (List String)} {r : List String} {w : Writer}

/-- The text of a table: its records one after the other. -/
def text (records : List (List String)) : String := .ofList (records.flatMap record)

/-- What a writer hands over to its memory. -/
def Writer.handed (w : Writer) : Octets := w.pending.reverse.flatten

/-- A record of the width so far is accepted. -/
theorem Writer.put_eq (hw : w.width.getD n = n) (hr : r.length = n) :
    w.put r =
      .ok { w with width := some n, pending := Utf8.encode (.ofList (record r)) :: w.pending } := by
  have hexpected : w.width.getD r.length = n := by rw [hr, hw]
  rw [put, hexpected]
  exact if_pos hr

/-- A table is encoded record by record. -/
theorem encode_text_cons (r : List String) (records : List (List String)) :
    Utf8.encode (text (r :: records)) =
      Utf8.encode (.ofList (record r)) ++ Utf8.encode (text records) := by
  simp only [Utf8.encode, text, String.toList_ofList, List.flatMap_cons, List.flatMap_append]

/-- Records of one length are put, one after the other. -/
theorem foldlM_put (h : ∀ r ∈ records, r.length = n) (hw : w.width.getD n = n) :
    ∃ w', records.foldlM Writer.put w = .ok w' ∧ w'.memory = w.memory ∧
      w'.handed = w.handed ++ Utf8.encode (text records) := by
  induction records generalizing w with
  | nil => exact ⟨w, rfl, rfl, (List.append_nil _).symm⟩
  | cons r records ih =>
      have hput := Writer.put_eq hw (h r List.mem_cons_self)
      obtain ⟨w', hrest, hmemory, hhanded⟩ :=
        ih (w := { w with
            width := some n
            pending := Utf8.encode (.ofList (record r)) :: w.pending })
          (fun r hr => h r (List.mem_cons_of_mem _ hr)) rfl
      refine ⟨w', ?_, hmemory, ?_⟩
      · rw [List.foldlM_cons, hput]
        exact hrest
      · rw [hhanded, encode_text_cons, ← List.append_assoc]
        simp [Writer.handed]

/-- A growing memory takes everything. -/
theorem Writer.finish_of_growing (hw : w.memory = .growing) : w.finish = .ok w.handed := by
  rw [finish, hw]
  rfl

/-- **A table of one width is written.** -/
theorem write_eq_ok (h : ∀ r ∈ records, r.length = n) : write records = .ok (text records) := by
  obtain ⟨w, hput, hmemory, hhanded⟩ := foldlM_put h (w := .ofMemory .growing) rfl
  have hfinish : w.finish = .ok (Utf8.encode (text records)) := by
    rw [Writer.finish_of_growing hmemory, hhanded]
    rfl
  rw [write, hput]
  simp only [bind, Except.bind, hfinish, Utf8.decode_encode]
  rfl

end Csv

namespace EntityIndex

variable {index : EntityIndex} {filter : DocumentFilter}

/-- **The table over an index is written.** -/
theorem csv_eq (index : EntityIndex) (filter : DocumentFilter) :
    index.csv filter = .ok (Csv.text (csvColumns :: (index.csvRows filter).map csvFields)) := by
  refine Csv.write_eq_ok (n := 7) ?_
  intro r hr
  rcases List.mem_cons.1 hr with rfl | hr
  · rfl
  · obtain ⟨e, _, rfl⟩ := List.mem_map.1 hr
    rfl

/-- **A document is made** unless its filter names an unknown parent. -/
theorem exists_document (h : index.unknownParent? filter.parent = none) (title : String)
    (format : DocumentFormat) : ∃ s, index.document title filter format = .ok s := by
  unfold document
  rw [h]
  cases format with
  | markdown => exact ⟨_, rfl⟩
  | csv =>
      rw [csv_eq]
      exact ⟨_, rfl⟩

end EntityIndex

end RegistryGraph
