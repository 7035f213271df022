import RegistryGraph.Store.Loading

/-!
# The store of repositories

A store serves the repositories below its root, each in the directory `owner/repo`.  It keeps the last
snapshot of every repository together with the stamps of the files that the snapshot was read from, and
hands it out again as long as these stamps are what the files show.

A call for a snapshot takes one step at a time, and other calls and other programs may do something in
between: `SnapshotCall.step` is one step, and `RepoStore.snapshot` is a call that nothing interrupts.
-/

namespace RegistryGraph

/-- What a repository is known by. -/
structure RepoName where
  owner : String
  repo : String
deriving DecidableEq, Repr

namespace RepoName

/-- The name as one text. -/
def text (n : RepoName) : String := n.owner ++ "/" ++ n.repo

/-- Whether both parts can be the names of directories. -/
def isProper (n : RepoName) : Bool := Path.isName n.owner && Path.isName n.repo

end RepoName

/-- A snapshot in the store, with the number of the insertion that put it there. -/
structure StoredSnapshot where
  serial : Nat
  /-- The stamps of the declaration and of every declared source. -/
  stamps : List (Option FileStamp)
  snapshot : Snapshot

/-- The repositories below a root, and their last snapshots. -/
structure RepoStore where
  root : String
  /-- The last snapshot of every repository, by the text of its name. -/
  snapshots : Keyed StoredSnapshot
  /-- The number of the next insertion. -/
  next : Nat

namespace RepoStore

/-- A store without snapshots. -/
def ofRoot (root : String) : RepoStore := ⟨root, ∅, 0⟩

/-- Where a repository is, whether there is one or not. -/
def directoryOf (store : RepoStore) (name : RepoName) : String :=
  Path.join (Path.join store.root name.owner) name.repo

/-- Where a repository is; none if its name is not proper or it has no declaration. -/
def directory? (store : RepoStore) (t : FileTree) (name : RepoName) : Option String :=
  if name.isProper && t.isFile (Loading.declarationPath (store.directoryOf name)) then
    some (store.directoryOf name)
  else none

/-- The stamps of the declaration and of every source that it declares. -/
def stamps (t : FileTree) (directory : String) (d : Declaration) : List (Option FileStamp) :=
  t.stamp? (Loading.declarationPath directory) ::
    d.sources.map fun s => (Loading.sourcePath? directory s).bind t.stamp?

/-- The stored snapshot of a repository if its files still show the same stamps. -/
def current? (store : RepoStore) (t : FileTree) (name : RepoName) (directory : String) :
    Option StoredSnapshot :=
  store.snapshots[name.text]?.filter fun stored =>
    stamps t directory stored.snapshot.declaration = stored.stamps

/-- Stores a snapshot with the stamps of its files, in the place of an earlier one. -/
def insert (store : RepoStore) (name : RepoName) (stamps : List (Option FileStamp))
    (snapshot : Snapshot) : RepoStore × StoredSnapshot :=
  let stored : StoredSnapshot := ⟨store.next, stamps, snapshot⟩
  ({ store with snapshots := store.snapshots.insert name.text stored, next := store.next + 1 },
    stored)

end RepoStore

/-- What a call for a snapshot does next. -/
inductive SnapshotCall where
  /-- Looks whether there is a repository. -/
  | resolve
  /-- Looks whether the stored snapshot is still current. -/
  | check (directory : String)
  | readDeclaration (directory : String)
  | readSources (directory : String) (loading : Loading)
  | takeStamps (directory : String) (snapshot : Snapshot)
  | insert (stamps : List (Option FileStamp)) (snapshot : Snapshot)
  | done (outcome : Except Failure StoredSnapshot)

namespace SnapshotCall

/-- One step of a call for the repository `name`. -/
def step (t : FileTree) (name : RepoName) (store : RepoStore) :
    SnapshotCall → RepoStore × SnapshotCall
  | .resolve =>
    match store.directory? t name with
    | none => (store, .done (.error (.source .unknownRepository name.text)))
    | some directory => (store, .check directory)
  | .check directory =>
    match store.current? t name directory with
    | some stored => (store, .done (.ok stored))
    | none => (store, .readDeclaration directory)
  | .readDeclaration directory =>
    match Loading.start directory name.text (t.read (Loading.declarationPath directory)) with
    | .error failure => (store, .done (.error failure))
    | .ok loading => (store, .readSources directory loading)
  | .readSources directory loading =>
    if loading.pending.isEmpty then (store, .takeStamps directory loading.finish)
    else (store, .readSources directory (loading.advance t directory))
  | .takeStamps directory snapshot =>
    (store, .insert (RepoStore.stamps t directory snapshot.declaration) snapshot)
  | .insert stamps snapshot =>
    let (store, stored) := store.insert name stamps snapshot
    (store, .done (.ok stored))
  | .done outcome => (store, .done outcome)

/-- The outcome of a call that has come to its end. -/
def outcome? : SnapshotCall → Option (Except Failure StoredSnapshot)
  | .done outcome => some outcome
  | _ => none

/-- How far a call is from its end: the stages and then the sources that remain. -/
def distance : SnapshotCall → Nat × Nat
  | .resolve => (6, 0)
  | .check _ => (5, 0)
  | .readDeclaration _ => (4, 0)
  | .readSources _ loading => (3, loading.pending.length)
  | .takeStamps .. => (2, 0)
  | .insert .. => (1, 0)
  | .done _ => (0, 0)

/-- Every step before the end brings a call nearer to it. -/
theorem distance_step_lt (t : FileTree) (name : RepoName) (store : RepoStore) (call : SnapshotCall)
    (h : call.outcome? = none) :
    Prod.Lex (· < ·) (· < ·) (step t name store call).2.distance call.distance := by
  cases call with
  | resolve => simp only [step]; split <;> simp [distance, Prod.lex_def]
  | check directory => simp only [step]; split <;> simp [distance, Prod.lex_def]
  | readDeclaration directory => simp only [step]; split <;> simp [distance, Prod.lex_def]
  | readSources directory loading =>
    simp only [step]
    split
    · simp [distance, Prod.lex_def]
    · next hp =>
      have : 0 < loading.pending.length := List.length_pos_iff.2 (by simpa using hp)
      exact Prod.Lex.right 3 (by rw [Loading.advance_pending, List.length_tail]; omega)
  | takeStamps directory snapshot => simp [step, distance, Prod.lex_def]
  | insert stamps snapshot => simp [step, distance, Prod.lex_def]
  | done outcome => exact absurd h (by simp [outcome?])

/-- Takes steps to the end. -/
def run (t : FileTree) (name : RepoName) (store : RepoStore) (call : SnapshotCall) :
    RepoStore × Except Failure StoredSnapshot :=
  match h : call.outcome? with
  | some outcome => (store, outcome)
  | none =>
    have := distance_step_lt t name store call h
    run t name (step t name store call).1 (step t name store call).2
termination_by call.distance
decreasing_by exact this

end SnapshotCall

/-- The snapshot of a repository; the stored one if its files have not changed.  A failing call changes
nothing. -/
def RepoStore.snapshot (store : RepoStore) (t : FileTree) (name : RepoName) :
    RepoStore × Except Failure StoredSnapshot :=
  SnapshotCall.run t name store .resolve

end RegistryGraph
