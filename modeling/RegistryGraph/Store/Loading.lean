import RegistryGraph.Declaration.File
import RegistryGraph.Files.Reading
import RegistryGraph.Store.Snapshot

/-!
# Loading a snapshot

A snapshot is loaded from the directory of a repository: first the declaration is read and checked, then
the declared sources are read in the order of the declaration.  A source that cannot be read, or that is
not confined to the directory and so is never read, stays without content.
-/

namespace RegistryGraph

/-- A snapshot of which some sources have been read. -/
structure Loading where
  repo : String
  declarationOctets : Octets
  declaration : Declaration
  files : Keyed Octets
  reasons : Keyed MissingSource
  /-- The sources that come next. -/
  pending : List Source

namespace Loading

/-- Where the declaration of a repository is. -/
def declarationPath (directory : String) : String := Path.join directory Declaration.fileName

/-- Where a source is, unless its path could lead out of the directory. -/
def sourcePath? (directory : String) (s : Source) : Option String :=
  Path.confine? directory s.path

/-- Takes in the content of the declaration file. -/
def start (directory repo : String) : Except FileFault Octets → Except Failure Loading
  | .error fault =>
    .error (.source (.declarationUnreadable fault) (declarationPath directory))
  | .ok octets =>
    match Declaration.load octets repo with
    | .error failure => .error failure
    | .ok declaration => .ok ⟨repo, octets, declaration, ∅, ∅, declaration.sources⟩

/-- Takes in the content of the next source, or why there is none. -/
def supply (l : Loading) (answer : Except MissingSource Octets) : Loading :=
  match l.pending with
  | [] => l
  | s :: rest =>
    match answer with
    | .ok octets => { l with files := l.files.insert s.path octets, pending := rest }
    | .error cause => { l with reasons := l.reasons.insert s.path cause, pending := rest }

/-- The snapshot of what has been read. -/
def finish (l : Loading) : Snapshot :=
  .make l.repo l.declarationOctets l.declaration l.files l.reasons

/-- The content of a source on a file tree, or why there is none. -/
def contentOn (t : FileTree) (directory : String) (s : Source) : Except MissingSource Octets :=
  match sourcePath? directory s with
  | none => .error .escapes
  | some path => (t.read path).mapError .file

/-- Reads the next source from a file tree. -/
def advance (t : FileTree) (directory : String) (l : Loading) : Loading :=
  match l.pending with
  | [] => l
  | s :: _ => l.supply (contentOn t directory s)

/-- Reads the sources in the list, which are those that come next. -/
def readAll (directory : String) (l : Loading) : List Source → Reading Snapshot
  | [] => .done l.finish
  | s :: rest =>
    match sourcePath? directory s with
    | none => (l.supply (.error .escapes)).readAll directory rest
    | some path =>
      .read path fun answer => (l.supply (answer.mapError .file)).readAll directory rest

/-- Every answer, read or missing, takes the source it is about off the list. -/
theorem supply_pending (l : Loading) (answer : Except MissingSource Octets) :
    (l.supply answer).pending = l.pending.tail := by
  unfold supply
  cases h : l.pending with
  | nil => simp [h]
  | cons s rest => cases answer <;> rfl

/-- A step of loading takes the next source off the list, whatever the tree holds. -/
theorem advance_pending (t : FileTree) (directory : String) (l : Loading) :
    (l.advance t directory).pending = l.pending.tail := by
  unfold advance
  cases h : l.pending with
  | nil => simp [h]
  | cons s rest => rw [supply_pending, h]

end Loading

/-- Loads the snapshot of the repository in a directory. -/
def Snapshot.load (directory repo : String) : Reading (Except Failure Snapshot) :=
  .read (Loading.declarationPath directory) fun answer =>
    match Loading.start directory repo answer with
    | .error failure => .done (.error failure)
    | .ok l => (l.readAll directory l.pending).map .ok

end RegistryGraph
