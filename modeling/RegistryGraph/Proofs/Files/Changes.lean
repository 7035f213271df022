import Mathlib
import RegistryGraph.Files.Tree

/-!
# Changes of a file tree

Files are written and removed, and directories are made.  If every write gives its file a modification
time that the file has never had, the stamp that a path shows names the content that it leads to.

* `FileTree.file_of_apply`: a change makes no file but the one it writes.
* `Chronicle.concat`: a fresh write keeps the contents told apart by their times.
* `Chronicle.stampsTell`: a path that shows the same stamp at two moments reads alike at both.
-/

namespace RegistryGraph

/-- A change of a file tree. -/
inductive FileChange where
  | write (place : Place) (octets : Octets) (modified : Int)
  | remove (place : Place)
  | makeDirectory (place : Place)

namespace FileChange

/-- The tree after a change. -/
def apply (t : FileTree) : FileChange → FileTree
  | .write place octets modified => t.write place octets modified
  | .remove place => t.remove place
  | .makeDirectory place => t.makeDirectory place

/-- If the change writes a file, it gives it a modification time that the file has never had. -/
def IsFresh (moments : List FileTree) : FileChange → Prop
  | .write place _ modified =>
    ∀ t ∈ moments, ∀ octets, t.node? place ≠ some (.file octets modified)
  | .remove _ | .makeDirectory _ => True

end FileChange

namespace FileTree

variable {t t' : FileTree} {place q : Place} {octets : Octets} {modified : Int}

/-- Touching a directory moves no working directory. -/
theorem workingDirectory_touchAbove (t : FileTree) (place : Place) :
    (t.touchAbove place).workingDirectory = t.workingDirectory := by
  unfold touchAbove
  dsimp only
  split <;> rfl

/-- Putting a node moves no working directory. -/
theorem workingDirectory_put (t : FileTree) (place : Place) (node : FileNode) :
    (t.put place node).workingDirectory = t.workingDirectory := by
  unfold put
  split
  · rfl
  · exact workingDirectory_touchAbove t place

/-- Making directories moves no working directory. -/
theorem workingDirectory_ensure (t : FileTree) (above : Place) (names : List String) :
    (t.ensure above names).workingDirectory = t.workingDirectory := by
  induction names generalizing t above with
  | nil => rfl
  | cons name rest ih =>
      rw [ensure]
      split
      · exact ih _ _
      · exact (ih _ _).trans (workingDirectory_put _ _ _)

/-- No change moves the working directory. -/
theorem workingDirectory_apply (t : FileTree) (c : FileChange) :
    (c.apply t).workingDirectory = t.workingDirectory := by
  cases c with
  | write place octets modified =>
      exact (workingDirectory_put _ _ _).trans (workingDirectory_ensure _ _ _)
  | remove place =>
      rw [FileChange.apply, remove]
      split
      · exact workingDirectory_touchAbove t place
      · rfl
  | makeDirectory place => exact workingDirectory_ensure _ _ _

/-- Touching a directory makes no file. -/
theorem file_of_touchAbove (h : (t.touchAbove place).node? q = some (.file octets modified)) :
    t.node? q = some (.file octets modified) := by
  unfold touchAbove at h
  dsimp only at h
  split at h
  · dsimp only [set] at h
    split at h
    · cases h
    · exact h
  · exact h

/-- A file behind a put was there or is the one put. -/
theorem file_of_put {node : FileNode}
    (h : (t.put place node).node? q = some (.file octets modified)) :
    t.node? q = some (.file octets modified) ∨ q = place ∧ node = .file octets modified := by
  unfold put at h
  split at h
  · dsimp only [set] at h
    split at h
    · next hq => exact .inr ⟨hq, Option.some.inj h⟩
    · exact .inl h
  · dsimp only [set] at h
    split at h
    · next hq => exact .inr ⟨hq, Option.some.inj h⟩
    · exact .inl (file_of_touchAbove h)

/-- Making directories makes no file. -/
theorem file_of_ensure {above : Place} {names : List String}
    (h : (t.ensure above names).node? q = some (.file octets modified)) :
    t.node? q = some (.file octets modified) := by
  induction names generalizing t above with
  | nil => exact h
  | cons name rest ih =>
      rw [ensure] at h
      have hput := ih h
      split at hput
      · exact hput
      · rcases file_of_put hput with hold | ⟨_, hnode⟩
        · exact hold
        · cases hnode

/-- **A change makes a file by writing it.**  Every other file was there before. -/
theorem file_of_apply {c : FileChange}
    (h : (c.apply t).node? q = some (.file octets modified)) :
    t.node? q = some (.file octets modified) ∨ c = .write q octets modified := by
  cases c with
  | write place octets' modified' =>
      rcases file_of_put h with hold | ⟨rfl, hnode⟩
      · exact .inl (file_of_ensure hold)
      · obtain ⟨rfl, rfl⟩ := FileNode.file.inj hnode
        exact .inr rfl
  | remove place =>
      rw [FileChange.apply, remove] at h
      split at h
      · dsimp only at h
        split at h
        · cases h
        · exact .inl (file_of_touchAbove h)
      · exact .inl h
  | makeDirectory place => exact .inl (file_of_ensure h)

/-- Where a segment leads to from a directory. -/
def follow (place : Place) (segment : String) : Place :=
  if Path.isStay segment then place
  else if segment = ".." then place.dropLast
  else place ++ [segment]

/-- A walk that succeeds ends where its segments lead. -/
theorem walk_eq_ok {segments : List String} {start : Place}
    (h : t.walk start segments = .ok place) : place = segments.foldl follow start := by
  induction segments generalizing start with
  | nil => exact (Except.ok.inj h).symm
  | cons segment rest ih =>
      rw [walk] at h
      rw [List.foldl_cons, follow]
      split at h
      · cases h
      · cases h
      · split at h
        next hstay => rw [if_pos hstay]; exact ih h
        next hstay =>
          rw [if_neg hstay]
          split at h
          next hup => rw [if_pos hup]; exact ih h
          next hup =>
            rw [if_neg hup]
            split at h
            · cases h
            · exact ih h

/-- Where a path leads to if it leads anywhere. -/
def placeOf (t : FileTree) (path : String) : Place :=
  (Path.segments path).foldl follow (if Path.isAbsolute path then [] else t.workingDirectory)

/-- What is located stands at the place of its path. -/
theorem node?_of_locate {path : String} {node : FileNode} (h : t.locate path = .ok node) :
    t.node? (t.placeOf path) = some node := by
  unfold locate at h
  split at h
  · cases h
  split at h
  · cases h
  split at h
  · cases h
  dsimp only at h
  split at h
  · cases h
  next hwalk =>
    split at h
    · next hnode =>
        rw [walk_eq_ok hwalk] at hnode
        exact hnode.trans (congrArg some (Except.ok.inj h))
    · cases h

/-- A file that is located is read. -/
theorem read_of_file {path : String} (h : t.locate path = .ok (.file octets modified)) :
    t.read path = .ok octets := by
  rw [read, h]

/-- A directory is not read. -/
theorem read_of_directory {path : String} {changed : Nat}
    (h : t.locate path = .ok (.directory changed)) : (t.read path).toOption = none := by
  rw [read, h]
  rfl

/-- What cannot be located is not read. -/
theorem read_of_error {path : String} {fault : FileFault} (h : t.locate path = .error fault) :
    (t.read path).toOption = none := by
  rw [read, h]
  rfl

/-- A file is what has the stamp of one. -/
theorem isFile_iff_stamp? {path : String} :
    t.isFile path = true ↔ ∃ size modified, t.stamp? path = some (.file size modified) := by
  unfold isFile stamp?
  cases t.locate path with
  | error fault => simp
  | ok node => cases node <;> simp [FileNode.stamp]

/-- A stamp tells whether it is the stamp of a file. -/
theorem isFile_eq_of_stamp?_eq {path : String} (h : t.stamp? path = t'.stamp? path) :
    t.isFile path = t'.isFile path := by
  rw [Bool.eq_iff_iff, isFile_iff_stamp?, isFile_iff_stamp?, h]

end FileTree

/-- The path gives the same content on both trees, or none on either. -/
def FileTree.ReadsAlike (t t' : FileTree) (path : String) : Prop :=
  (t.read path).toOption = (t'.read path).toOption

/-- A path that reads alike reads the same octets. -/
theorem FileTree.ReadsAlike.read_eq {t t' : FileTree} {path : String} (h : t.ReadsAlike t' path)
    {octets : Octets} (hread : t.read path = .ok octets) : t'.read path = .ok octets := by
  unfold ReadsAlike at h
  rw [hread] at h
  cases hread' : t'.read path with
  | error fault => rw [hread'] at h; cases h
  | ok octets' => rw [hread'] at h; exact congrArg Except.ok (Option.some.inj h).symm

/-! ## Moments -/

/-- A path that shows the same stamp at two moments has the same content at both, or none at
either. -/
def StampsTell (moments : List FileTree) : Prop :=
  ∀ t ∈ moments, ∀ t' ∈ moments, ∀ path, t.stamp? path = t'.stamp? path →
    t.ReadsAlike t' path

/-- A file has one content with one modification time. -/
structure Chronicle (moments : List FileTree) : Prop where
  workingDirectory_eq : ∀ t ∈ moments, ∀ t' ∈ moments, t.workingDirectory = t'.workingDirectory
  octets_eq : ∀ t ∈ moments, ∀ t' ∈ moments, ∀ place modified octets octets',
    t.node? place = some (.file octets modified) →
      t'.node? place = some (.file octets' modified) → octets = octets'

namespace Chronicle

variable {moments : List FileTree}

/-- A single moment is a chronicle. -/
theorem one (t : FileTree) : Chronicle [t] where
  workingDirectory_eq := by
    intro t' ht' t'' ht''
    rw [List.mem_singleton.1 ht', List.mem_singleton.1 ht'']
  octets_eq := by
    intro t' ht' t'' ht'' place modified octets octets' h h'
    rw [List.mem_singleton.1 ht'] at h
    rw [List.mem_singleton.1 ht'', h] at h'
    exact (FileNode.file.inj (Option.some.inj h')).1

/-- **A fresh write keeps it so.**  What is not written now was there before; what is written now has a
time that no earlier moment shows at its place. -/
theorem concat (h : Chronicle moments) {t : FileTree} (ht : t ∈ moments) {c : FileChange}
    (hfresh : c.IsFresh moments) : Chronicle (moments ++ [c.apply t]) := by
  have hsource : ∀ {place octets modified},
      (c.apply t).node? place = some (.file octets modified) →
        t.node? place = some (.file octets modified) ∨
          ∀ t' ∈ moments, ∀ octets', t'.node? place ≠ some (.file octets' modified) := by
    intro place octets modified hfile
    rcases FileTree.file_of_apply hfile with hold | rfl
    · exact .inl hold
    · exact .inr hfresh
  constructor
  case workingDirectory_eq =>
    have hsame : ∀ t' ∈ moments ++ [c.apply t], t'.workingDirectory = t.workingDirectory := by
      intro t' ht'
      rcases List.mem_append.1 ht' with hold | hnew
      · exact h.workingDirectory_eq t' hold t ht
      · rw [List.mem_singleton.1 hnew, FileTree.workingDirectory_apply]
    intro t' ht' t'' ht''
    rw [hsame t' ht', hsame t'' ht'']
  case octets_eq =>
    -- An earlier moment and the new one; the other cases are this one or the hypothesis.
    have hmixed : ∀ t' ∈ moments, ∀ place modified octets octets',
        t'.node? place = some (.file octets modified) →
          (c.apply t).node? place = some (.file octets' modified) → octets = octets' := by
      intro t' ht' place modified octets octets' hfile hfile'
      rcases hsource hfile' with hold | hnone
      · exact h.octets_eq t' ht' t ht place modified octets octets' hfile hold
      · exact absurd hfile (hnone t' ht' octets)
    intro t' ht' t'' ht'' place modified octets octets' hfile hfile'
    rcases List.mem_append.1 ht' with hold | hnew
    · rcases List.mem_append.1 ht'' with hold' | hnew'
      · exact h.octets_eq t' hold t'' hold' place modified octets octets' hfile hfile'
      · rw [List.mem_singleton.1 hnew'] at hfile'
        exact hmixed t' hold place modified octets octets' hfile hfile'
    · rw [List.mem_singleton.1 hnew] at hfile
      rcases List.mem_append.1 ht'' with hold' | hnew'
      · exact (hmixed t'' hold' place modified octets' octets hfile' hfile).symm
      · rw [List.mem_singleton.1 hnew', hfile] at hfile'
        exact (FileNode.file.inj (Option.some.inj hfile')).1

/-- **Stamps tell contents.**  A path leads to one place, and what it shows there names the content. -/
theorem stampsTell (h : Chronicle moments) : StampsTell moments := by
  intro t ht t' ht' path hstamp
  unfold FileTree.ReadsAlike
  have hplace : t.placeOf path = t'.placeOf path := by
    rw [FileTree.placeOf, FileTree.placeOf, h.workingDirectory_eq t ht t' ht']
  unfold FileTree.stamp? at hstamp
  cases hnode : t.locate path with
  | error fault =>
      cases hnode' : t'.locate path with
      | error fault' => rw [FileTree.read_of_error hnode, FileTree.read_of_error hnode']
      | ok node' => rw [hnode, hnode'] at hstamp; cases hstamp
  | ok node =>
      cases hnode' : t'.locate path with
      | error fault' => rw [hnode, hnode'] at hstamp; cases hstamp
      | ok node' =>
          rw [hnode, hnode'] at hstamp
          have hsame : node.stamp = node'.stamp := Option.some.inj hstamp
          cases node with
          | directory changed =>
              cases node' with
              | directory changed' =>
                  rw [FileTree.read_of_directory hnode, FileTree.read_of_directory hnode']
              | file octets' modified' => cases hsame
          | file octets modified =>
              cases node' with
              | directory changed' => cases hsame
              | file octets' modified' =>
                  obtain ⟨_, rfl⟩ := FileStamp.file.inj hsame
                  have hfile := FileTree.node?_of_locate hnode
                  have hfile' := FileTree.node?_of_locate hnode'
                  rw [← hplace] at hfile'
                  rw [FileTree.read_of_file hnode, FileTree.read_of_file hnode',
                    h.octets_eq t ht t' ht' _ _ _ _ hfile hfile']

end Chronicle

end RegistryGraph
