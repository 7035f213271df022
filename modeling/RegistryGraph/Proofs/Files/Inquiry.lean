import RegistryGraph.Files.Tree

/-!
# Questions about files

An `Inquiry` is a computation that asks a file system questions, each of which may depend on the answers so
far.  `Inquiry.on` carries it out on a file tree, and `Inquiry.CanYield` tells what it can yield if the
answers may be any.  What an inquiry never asks about has no influence on it.

* `Inquiry.canYield_on`: a file tree gives one sequence of answers out of all.
* `Inquiry.on_eq_of_alike`: trees with the same answers to the questions that are asked.
-/

namespace RegistryGraph

/-- A question about what a path leads to. -/
inductive FileQuestion where
  | isFile (path : String)
  | stamp (path : String)
  | read (path : String)

namespace FileQuestion

/-- The path that a question is about. -/
def path : FileQuestion → String
  | .isFile path | .stamp path | .read path => path

/-- What a question can be answered with. -/
abbrev Answer : FileQuestion → Type
  | .isFile _ => Bool
  | .stamp _ => Option FileStamp
  | .read _ => Except FileFault Octets

end FileQuestion

/-- The answer that a file tree gives. -/
def FileTree.answer (t : FileTree) : (question : FileQuestion) → question.Answer
  | .isFile path => t.isFile path
  | .stamp path => t.stamp? path
  | .read path => t.read path

/-- A computation that asks questions about files, one after the other. -/
inductive Inquiry (α : Type) where
  | done (result : α)
  | ask (question : FileQuestion) (next : question.Answer → Inquiry α)

namespace Inquiry

variable {α β : Type} {P Q : String → Prop}

/-- Applies a function to the result. -/
def map (f : α → β) : Inquiry α → Inquiry β
  | .done a => .done (f a)
  | .ask question next => .ask question fun answer => (next answer).map f

/-- The result on a file tree. -/
def on (t : FileTree) : Inquiry α → α
  | .done a => a
  | .ask question next => (next (t.answer question)).on t

/-- Whether all paths that are asked about, whatever the answers are, have a property. -/
def OnlyAsks (P : String → Prop) : Inquiry α → Prop
  | .done _ => True
  | .ask question next => P question.path ∧ ∀ answer, (next answer).OnlyAsks P

/-- What a computation yields with some answers. -/
inductive CanYield : Inquiry α → α → Prop where
  | done (a : α) : CanYield (.done a) a
  | ask {question : FileQuestion} {next : question.Answer → Inquiry α} {a : α}
      (answer : question.Answer) (rest : CanYield (next answer) a) : CanYield (.ask question next) a

/-- A mapped inquiry is answered by mapping what the tree answers. -/
@[simp] theorem on_map (t : FileTree) (f : α → β) (inquiry : Inquiry α) :
    (inquiry.map f).on t = f (inquiry.on t) := by
  induction inquiry with
  | done a => rfl
  | ask question next ih => exact ih _

/-- A map asks what the inquiry asks. -/
@[simp] theorem onlyAsks_map_iff {f : α → β} {inquiry : Inquiry α} :
    (inquiry.map f).OnlyAsks P ↔ inquiry.OnlyAsks P := by
  induction inquiry with
  | done a => exact Iff.rfl
  | ask question next ih => exact and_congr_right fun _ => forall_congr' ih

/-- What an inquiry asks may be described more widely. -/
theorem OnlyAsks.mono {inquiry : Inquiry α} (h : inquiry.OnlyAsks P) (hmono : ∀ path, P path → Q path) :
    inquiry.OnlyAsks Q := by
  induction inquiry with
  | done a => trivial
  | ask question next ih => exact ⟨hmono _ h.1, fun answer => ih answer (h.2 answer)⟩

/-- An inquiry that is done yields its outcome and nothing else. -/
theorem canYield_done_iff {a b : α} : (Inquiry.done a).CanYield b ↔ b = a := by
  constructor
  · rintro ⟨⟩
    rfl
  · rintro rfl
    exact .done b

/-- An inquiry that is done with a pair yields this pair and nothing else. -/
theorem canYield_done_pair_iff {a a' : α} {b b' : β} :
    (Inquiry.done (a, b)).CanYield (a', b') ↔ a' = a ∧ b' = b := by
  rw [canYield_done_iff, Prod.mk.injEq]

/-- An inquiry yields what some answer to its question leads to. -/
theorem canYield_ask_iff {question : FileQuestion} {next : question.Answer → Inquiry α} {a : α} :
    (Inquiry.ask question next).CanYield a ↔ ∃ answer, (next answer).CanYield a := by
  constructor
  · rintro (_ | ⟨answer, hrest⟩)
    exact ⟨answer, hrest⟩
  · rintro ⟨answer, hrest⟩
    exact .ask answer hrest

/-- A mapped inquiry yields the images of what the inquiry yields. -/
theorem canYield_map_iff {f : α → β} {inquiry : Inquiry α} {b : β} :
    (inquiry.map f).CanYield b ↔ ∃ a, inquiry.CanYield a ∧ f a = b := by
  induction inquiry with
  | done a =>
      rw [map, canYield_done_iff]
      constructor
      · rintro rfl
        exact ⟨a, .done a, rfl⟩
      · rintro ⟨a', ha', rfl⟩
        rw [canYield_done_iff.1 ha']
  | ask question next ih =>
      rw [map, canYield_ask_iff]
      constructor
      · rintro ⟨answer, hrest⟩
        obtain ⟨a, ha, hfa⟩ := (ih answer).1 hrest
        exact ⟨a, .ask answer ha, hfa⟩
      · rintro ⟨a, ha, hfa⟩
        obtain ⟨answer, hrest⟩ := canYield_ask_iff.1 ha
        exact ⟨answer, (ih answer).2 ⟨a, hrest, hfa⟩⟩

/-- A file tree gives one sequence of answers. -/
theorem canYield_on (t : FileTree) (inquiry : Inquiry α) : inquiry.CanYield (inquiry.on t) := by
  induction inquiry with
  | done a => exact .done a
  | ask question next ih => exact .ask (t.answer question) (ih _)

/-- **What is not asked about** has no influence. -/
theorem on_eq_of_alike {inquiry : Inquiry α} (h : inquiry.OnlyAsks P) {t t' : FileTree}
    (halike : ∀ question : FileQuestion, P question.path → t.answer question = t'.answer question) :
    inquiry.on t = inquiry.on t' := by
  induction inquiry with
  | done a => rfl
  | ask question next ih =>
      rw [on, on, halike question h.1]
      exact ih _ (h.2 _)

end Inquiry

end RegistryGraph
