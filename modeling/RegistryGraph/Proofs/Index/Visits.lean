import RegistryGraph.Proofs.Index.Descent

/-!
# Visits end

A visit takes one id after the other from its stack until nothing waits, and it remembers nothing of where
it has been.  That it ends is no matter of its own: each round takes one entity off the front of what its
stack unfolds to (`Unfolds.exists_next?`), and in a consistent index every stack of known ids unfolds to a
finite list without repetitions.

* `Unfolds.ends`: a visit ends, after as many rounds as its stack unfolds to entities.
* `Visit.Ends.visit_eq`: a visit that counts its rounds finds the same, given enough of them.
* `EntityIndex.Consistent.ends_subtree`: a visit ends with the subtree of the id where it begins.
* `EntityIndex.listAt_byParent_sublist`: siblings stand in document order.
-/

namespace RegistryGraph

open Relation

/-- A visit under way: what it has found, latest first, and the ids that wait, the next one first. -/
structure Visit where
  found : List Entity
  waiting : List String

namespace Visit

/-- The visit that begins at an id. -/
def start (id : String) : Visit := ⟨[], [id]⟩

/-- One round: the next id makes way for the ids of its children. No round is left when nothing
waits. -/
def next? (index : EntityIndex) (v : Visit) : Option Visit :=
  match v.waiting with
  | [] => none
  | id :: rest =>
    match index.get? id with
    | none => some { v with waiting := rest }
    | some e => some ⟨e :: v.found, index.byParent.listAt id ++ rest⟩

/-- After so many rounds nothing waits, and the visit has found `out`. -/
inductive Ends (index : EntityIndex) : Visit → Nat → List Entity → Prop
  | done {found : List Entity} : Ends index ⟨found, []⟩ 0 found.reverse
  | round {v v' : Visit} {rounds : Nat} {out : List Entity} (next : v.next? index = some v')
    (later : Ends index v' rounds out) : Ends index v (rounds + 1) out

variable {index : EntityIndex} {v v' : Visit} {rounds steps : Nat} {out : List Entity}

/-- A round costs a visit that counts them one step. -/
theorem visit_of_next? (h : v.next? index = some v') (steps : Nat) :
    index.visit v.found (steps + 1) v.waiting = index.visit v'.found steps v'.waiting := by
  obtain ⟨found, waiting⟩ := v
  cases waiting with
  | nil => cases h
  | cons id rest =>
      simp only [next?] at h
      rw [EntityIndex.visit]
      cases hfound : index.get? id with
      | none =>
          rw [hfound] at h
          cases h
          rfl
      | some e =>
          rw [hfound] at h
          cases h
          rfl

/-- **Counting changes nothing** if there are enough steps. -/
theorem Ends.visit_eq (h : Ends index v rounds out) (henough : rounds ≤ steps) :
    index.visit v.found steps v.waiting = out := by
  induction h generalizing steps with
  | done => cases steps <;> rfl
  | @round v v' rounds out hnext _ ih =>
      obtain ⟨steps, rfl⟩ := Nat.exists_eq_add_of_lt (Nat.lt_of_succ_le henough)
      rw [visit_of_next? hnext]
      exact ih (by omega)

end Visit

namespace EntityIndex

open Records

variable {sourceFile revision : String} {index : EntityIndex} {id : String}
  {stack more : List String} {out beside : List Entity} {e c : Entity}

/-- Stacks on top of each other unfold one after the other. -/
theorem Unfolds.append (h : Unfolds index stack out) (hmore : Unfolds index more beside) :
    Unfolds index (stack ++ more) (out ++ beside) := by
  induction h with
  | nil => exact hmore
  | cons hfound hinner _ _ ihouter =>
      rw [List.cons_append, List.cons_append, List.append_assoc]
      exact .cons hfound hinner ihouter

/-- **One round** finds the first entity that the stack unfolds to, and leaves the others. -/
theorem Unfolds.exists_next? {v : Visit} (h : Unfolds index v.waiting (e :: out)) :
    ∃ v', v.next? index = some v' ∧ v'.found = e :: v.found ∧ Unfolds index v'.waiting out := by
  obtain ⟨found, waiting⟩ := v
  cases h with
  | @cons id rest _ below beside hfound hinner houter =>
      refine ⟨⟨e :: found, index.byParent.listAt id ++ rest⟩, ?_, rfl, hinner.append houter⟩
      simp only [Visit.next?, hfound]

/-- **A visit ends**, after as many rounds as its stack unfolds to entities. -/
theorem Unfolds.ends {v : Visit} (h : Unfolds index v.waiting out) :
    v.Ends index out.length (v.found.reverse ++ out) := by
  induction out generalizing v with
  | nil =>
      obtain ⟨found, waiting⟩ := v
      cases h
      rw [List.append_nil]
      exact .done
  | cons e out ih =>
      obtain ⟨v', hnext, hfound, hrest⟩ := h.exists_next?
      have hlater := ih hrest
      rw [hfound, List.reverse_cons, List.append_assoc] at hlater
      exact .round hnext hlater

/-- A visit that begins at an unknown id ends with nothing. -/
theorem ends_of_get?_eq_none (h : index.get? id = none) : (Visit.start id).Ends index 1 [] := by
  have hnext : (Visit.start id).next? index = some ⟨[], []⟩ := by
    simp only [Visit.start, Visit.next?, h]
  exact .round hnext .done

/-- **Every visit ends**, with the subtree of the id where it begins, and no later than one round after
it has met every entity. -/
theorem Consistent.ends_subtree (h : index.Consistent) (id : String) :
    ∃ rounds ≤ index.size + 1, (Visit.start id).Ends index rounds (index.subtree id) := by
  cases hfound : index.get? id with
  | none =>
      rw [subtree_of_get?_eq_none hfound]
      exact ⟨1, Nat.le_add_left 1 _, ends_of_get?_eq_none hfound⟩
  | some e =>
      have hunfolds := h.subtree_unfolds hfound
      have hlength := hunfolds.length_le h (apart_singleton id)
      exact ⟨_, Nat.le_succ_of_le hlength, hunfolds.ends (v := Visit.start id)⟩

/-- A chain of parents leads from an entity to entities only. -/
theorem Consistent.exists_get?_of_reflTransGen (h : index.Consistent) (hfound : index.get? c.id = some c)
    (hchain : ReflTransGen index.HasParent c.id id) : ∃ e, index.get? id = some e := by
  rcases ReflTransGen.cases_tail hchain with rfl | ⟨child, _, e, hchild, hne, rfl⟩
  · exact ⟨c, hfound⟩
  · exact mem_entities_iff.1 (h.parent_known child e hchild hne)

/-- **What a subtree holds**, also that of an unknown id. -/
theorem Consistent.mem_subtree (h : index.Consistent) (id : String) :
    c ∈ index.subtree id ↔ index.get? c.id = some c ∧ ReflTransGen index.HasParent c.id id := by
  cases hfound : index.get? id with
  | some e => exact h.mem_subtree_iff hfound
  | none =>
      rw [subtree_of_get?_eq_none hfound, iff_false_left List.not_mem_nil]
      rintro ⟨hc, hchain⟩
      obtain ⟨e, he⟩ := h.exists_get?_of_reflTransGen hc hchain
      cases hfound.symm.trans he

/-- No id stands twice in a subtree. -/
theorem Consistent.nodup_ids_subtree (h : index.Consistent) (id : String) :
    ((index.subtree id).map (·.id)).Nodup := by
  refine nodup_ids ?_ fun c hc => ((h.mem_subtree id).1 hc).1
  cases hfound : index.get? id with
  | none =>
      rw [subtree_of_get?_eq_none hfound]
      exact List.nodup_nil
  | some e => exact h.nodup_subtree hfound

/-- A subtree is empty exactly if nothing is found under the id. -/
theorem Consistent.subtree_eq_nil_iff (h : index.Consistent) :
    index.subtree id = [] ↔ index.get? id = none := by
  constructor
  · intro hnil
    cases hfound : index.get? id with
    | none => rfl
    | some e =>
        have hunfolds := h.subtree_unfolds hfound
        rw [hnil] at hunfolds
        cases hunfolds
  · exact subtree_of_get?_eq_none

/-! ## Siblings -/

/-- The ids of the entities in document order. Of several elements with one id the first one counts. -/
def documentOrder (content : Xml.Content) : List String := ids (firsts (Walk.records "" content))

/-- **Siblings stand in document order.** -/
theorem listAt_byParent_sublist (content : Xml.Content) (parent : String) :
    ((Walk.index content sourceFile revision).byParent.listAt parent).Sublist
      (documentOrder content) := by
  rw [Walk.index, ofRecords, Keyed.listAt_group]
  exact List.filter_sublist.map _

end EntityIndex

end RegistryGraph
