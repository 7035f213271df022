import RegistryGraph.Files.Tree

/-!
# Computations that read files

A `Reading` either has a result or asks for the content of one file and goes on with the answer.  It can
be carried out on a file tree, with `Reading.on`, or on a real file system.
-/

namespace RegistryGraph

/-- A computation that reads files, one after the other. -/
inductive Reading (α : Type) where
  | done (result : α)
  | read (path : String) (next : Except FileFault Octets → Reading α)

namespace Reading

variable {α β : Type}

/-- The content of a file. -/
def file (path : String) : Reading (Except FileFault Octets) := .read path .done

/-- Applies a function to the result. -/
def map (f : α → β) : Reading α → Reading β
  | .done a => .done (f a)
  | .read path next => .read path fun answer => (next answer).map f

/-- The result on a file tree that does not change meanwhile. -/
def on (t : FileTree) : Reading α → α
  | .done a => a
  | .read path next => (next (t.read path)).on t

/-- A mapped reading is answered by mapping what the tree answers. -/
@[simp] theorem on_map (t : FileTree) (f : α → β) (r : Reading α) : (r.map f).on t = f (r.on t) := by
  induction r with
  | done a => rfl
  | read path next ih => exact ih _

end Reading

end RegistryGraph
