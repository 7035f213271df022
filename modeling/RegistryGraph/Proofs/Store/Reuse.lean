import RegistryGraph.Proofs.Store.Loading

/-!
# Stored snapshots

A call that nothing interrupts fails, hands out the stored snapshot, or loads and stores a new one.  The
stored snapshot was loaded at an earlier moment and keeps the stamps of that moment; where stamps tell
contents, its files read now as they did then.

* `RepoStore.snapshot_cases`: what a call does.
* `StoreHistory.Sound.change`, `StoreHistory.Sound.call`: what every event of a history preserves.
* `StoreHistory.snapshot_transparent`: after any history, a call hands out what loading would give.
-/

namespace RegistryGraph

namespace SnapshotCall

variable {t : FileTree} {name : RepoName} {store : RepoStore} {call : SnapshotCall}

/-- A call that is done stays as it is. -/
theorem run_done (t : FileTree) (name : RepoName) (store : RepoStore)
    (outcome : Except Failure StoredSnapshot) :
    run t name store (.done outcome) = (store, outcome) := by
  rw [run]
  rfl

/-- A call that is not done takes its next step first. -/
theorem run_step (h : call.outcome? = none) :
    run t name store call = run t name (step t name store call).1 (step t name store call).2 := by
  rw [run]
  split
  · next outcome hsome => rw [h] at hsome; cases hsome
  · rfl

/-- The sources are read one by one, and what they give is loaded at one go. -/
theorem run_readSources (t : FileTree) (name : RepoName) (store : RepoStore) (directory : String)
    (n : Nat) (loading : Loading) (h : loading.pending.length = n) :
    run t name store (.readSources directory loading) =
      run t name store
        (.takeStamps directory (loading.readFrom directory (List.replicate n t)).finish) := by
  induction n generalizing loading with
  | zero =>
      rw [run_step rfl, step, if_pos (by simpa using h)]
      rfl
  | succ n ih =>
      have hne : loading.pending.isEmpty = false := by
        cases hp : loading.pending with
        | nil => rw [hp] at h; cases h
        | cons s rest => rfl
      rw [run_step rfl, step, hne]
      refine ih _ ?_
      rw [Loading.advance_pending, List.length_tail, h, Nat.add_sub_cancel]

end SnapshotCall

namespace RepoStore

/-- What a call for a snapshot does, in one equation. -/
theorem snapshot_eq (store : RepoStore) (t : FileTree) (name : RepoName) :
    store.snapshot t name =
      match store.directory? t name with
      | none => (store, .error (.source .unknownRepository name.text))
      | some directory =>
        match store.current? t name directory with
        | some stored => (store, .ok stored)
        | none =>
          match (Snapshot.load directory name.text).on t with
          | .error failure => (store, .error failure)
          | .ok s =>
            ((store.insert name (stamps t directory s.declaration) s).1,
              .ok (store.insert name (stamps t directory s.declaration) s).2) := by
  rw [snapshot, SnapshotCall.run_step rfl, SnapshotCall.step]
  cases store.directory? t name with
  | none => exact SnapshotCall.run_done ..
  | some directory =>
      dsimp only
      rw [SnapshotCall.run_step rfl, SnapshotCall.step]
      cases store.current? t name directory with
      | some stored => exact SnapshotCall.run_done ..
      | none =>
          dsimp only
          rw [SnapshotCall.run_step rfl, SnapshotCall.step, Snapshot.load_on]
          cases Loading.start directory name.text (t.read (Loading.declarationPath directory)) with
          | error failure => exact SnapshotCall.run_done ..
          | ok loading =>
              dsimp only
              rw [SnapshotCall.run_readSources t name store directory _ loading rfl,
                SnapshotCall.run_step rfl, SnapshotCall.step, SnapshotCall.run_step rfl,
                SnapshotCall.step]
              exact SnapshotCall.run_done ..

/-- A repository has a directory if its name is proper and its declaration is a file. -/
theorem directory?_eq_some_iff {store : RepoStore} {t : FileTree} {name : RepoName}
    {directory : String} :
    store.directory? t name = some directory ↔
      name.isProper = true ∧
        t.isFile (Loading.declarationPath (store.directoryOf name)) = true ∧
          directory = store.directoryOf name := by
  unfold directory?
  split
  · next h =>
      rw [Bool.and_eq_true] at h
      simp [h, eq_comm]
  · next h =>
      rw [Bool.and_eq_true] at h
      simp only [reduceCtorEq, false_iff]
      exact fun hall => h ⟨hall.1, hall.2.1⟩

/-- **What a call does.**  It fails and leaves the store as it is, hands out the stored snapshot, or
stores what it loads. -/
theorem snapshot_cases {store store' : RepoStore} {t : FileTree} {name : RepoName}
    {outcome : Except Failure StoredSnapshot} (h : store.snapshot t name = (store', outcome)) :
    (∃ failure, outcome = .error failure ∧ store' = store) ∨
      (∃ stored, outcome = .ok stored ∧ store' = store ∧
        store.directory? t name = some (store.directoryOf name) ∧
        store.snapshots[name.text]? = some stored ∧
        stamps t (store.directoryOf name) stored.snapshot.declaration = stored.stamps) ∨
      ∃ s, outcome = .ok (store.insert name (stamps t (store.directoryOf name) s.declaration) s).2 ∧
        store' = (store.insert name (stamps t (store.directoryOf name) s.declaration) s).1 ∧
        store.directory? t name = some (store.directoryOf name) ∧
        (Snapshot.load (store.directoryOf name) name.text).on t = .ok s := by
  rw [snapshot_eq] at h
  cases hdirectory : store.directory? t name with
  | none =>
      rw [hdirectory] at h
      cases h
      exact .inl ⟨_, rfl, rfl⟩
  | some directory =>
      obtain rfl := (directory?_eq_some_iff.1 hdirectory).2.2
      rw [hdirectory] at h
      dsimp only at h
      cases hcurrent : store.current? t name (store.directoryOf name) with
      | some stored =>
          rw [hcurrent] at h
          cases h
          obtain ⟨hstored, hstamps⟩ := Option.filter_eq_some_iff.1 hcurrent
          exact .inr (.inl ⟨stored, rfl, rfl, rfl, hstored, of_decide_eq_true hstamps⟩)
      | none =>
          rw [hcurrent] at h
          dsimp only at h
          cases hload : (Snapshot.load (store.directoryOf name) name.text).on t with
          | error failure =>
              rw [hload] at h
              cases h
              exact .inl ⟨failure, rfl, rfl⟩
          | ok s =>
              rw [hload] at h
              cases h
              exact .inr (.inr ⟨s, rfl, rfl, rfl, rfl⟩)

/-- A repository without a stored snapshot is loaded. -/
theorem snapshot_of_load {store : RepoStore} {t : FileTree} {name : RepoName} {s : Snapshot}
    (hdirectory : store.directory? t name = some (store.directoryOf name))
    (hnone : store.snapshots[name.text]? = none)
    (hload : (Snapshot.load (store.directoryOf name) name.text).on t = .ok s) :
    store.snapshot t name =
      ((store.insert name (stamps t (store.directoryOf name) s.declaration) s).1,
        .ok (store.insert name (stamps t (store.directoryOf name) s.declaration) s).2) := by
  have hcurrent : store.current? t name (store.directoryOf name) = none := by
    rw [current?, hnone, Option.filter_none]
  rw [snapshot_eq, hdirectory]
  dsimp only
  rw [hcurrent]
  dsimp only
  rw [hload]

/-- The stored snapshot is handed out if its files show the same stamps. -/
theorem snapshot_of_stamps {store : RepoStore} {t : FileTree} {name : RepoName}
    {stored : StoredSnapshot} (hdirectory : store.directory? t name = some (store.directoryOf name))
    (hstored : store.snapshots[name.text]? = some stored)
    (hstamps : stamps t (store.directoryOf name) stored.snapshot.declaration = stored.stamps) :
    store.snapshot t name = (store, .ok stored) := by
  have hcurrent : store.current? t name (store.directoryOf name) = some stored :=
    Option.filter_eq_some_iff.2 ⟨hstored, decide_eq_true hstamps⟩
  rw [snapshot_eq, hdirectory]
  dsimp only
  rw [hcurrent]

/-- The paths that a snapshot of a repository is read from. -/
def pathsOf (directory : String) (d : Declaration) : List String :=
  Loading.declarationPath directory :: d.sources.filterMap (Loading.sourcePath? directory)

/-- Stamps are equal exactly if every file stamped has the same stamp. -/
theorem stamps_eq_iff {t t' : FileTree} {directory : String} {d : Declaration} :
    stamps t directory d = stamps t' directory d ↔
      ∀ path ∈ pathsOf directory d, t.stamp? path = t'.stamp? path := by
  have hsources : ∀ sources : List Source,
      (sources.map fun s => (Loading.sourcePath? directory s).bind t.stamp?) =
        (sources.map fun s => (Loading.sourcePath? directory s).bind t'.stamp?) ↔
      ∀ path ∈ sources.filterMap (Loading.sourcePath? directory), t.stamp? path = t'.stamp? path := by
    intro sources
    rw [List.map_inj_left]
    constructor
    · intro hall path hpath
      obtain ⟨s, hs, hpath⟩ := List.mem_filterMap.1 hpath
      have := hall s hs
      rwa [hpath] at this
    · intro hall s hs
      cases hpath : Loading.sourcePath? directory s with
      | none => rfl
      | some path => exact hall path (List.mem_filterMap.2 ⟨s, hs, hpath⟩)
  rw [stamps, stamps, List.cons.injEq, hsources, pathsOf, List.forall_mem_cons]

end RepoStore

/-- A snapshot that agrees with one tree agrees with every tree that reads alike. -/
theorem Snapshot.AgreesOn.alike {s : Snapshot} {directory repo : String} {t t' : FileTree}
    (h : s.AgreesOn directory repo t)
    (halike : ∀ path ∈ RepoStore.pathsOf directory s.declaration, t.ReadsAlike t' path) :
    s.AgreesOn directory repo t' := by
  obtain ⟨s', hload, hagrees⟩ := h
  obtain ⟨s'', hload', hagrees'⟩ :=
    load_alike hload (halike _ List.mem_cons_self) fun source hsource path hpath =>
      halike path (List.mem_cons_of_mem _ (List.mem_filterMap.2
        ⟨source, hagrees.declaration_eq ▸ hsource, hpath⟩))
  exact ⟨s'', hload', hagrees.trans hagrees'⟩

/-- The name of a directory entry has no separator. -/
theorem Path.not_mem_of_isName {s : String} (h : Path.isName s = true) : '/' ∉ s.toList := by
  intro hmem
  unfold Path.isName at h
  simp only [Bool.and_eq_true, List.all_eq_true] at h
  have hother := h.2 '/' hmem
  simp [Path.separator] at hother

/-- The text of a name is owner, slash and repository. -/
theorem RepoName.toList_text (name : RepoName) :
    name.text.toList = name.owner.toList ++ '/' :: name.repo.toList := by
  simp [text]

/-- The text of a proper name is the text of no other name, also of none with a separator in its parts. -/
theorem RepoName.eq_of_text_eq {name name' : RepoName} (h : name.isProper = true)
    (htext : name'.text = name.text) : name' = name := by
  rw [isProper, Bool.and_eq_true] at h
  have howner := Path.not_mem_of_isName h.1
  have hrepo := Path.not_mem_of_isName h.2
  have hlists : name'.owner.toList ++ '/' :: name'.repo.toList =
      name.owner.toList ++ '/' :: name.repo.toList := by
    rw [← toList_text, ← toList_text, htext]
  -- There is one separator on the right, so there is one on the left.
  have hcount := congrArg (List.count '/') hlists
  rw [List.count_append, List.count_append, List.count_cons_self, List.count_cons_self,
    List.count_eq_zero.2 howner, List.count_eq_zero.2 hrepo] at hcount
  have howner' : '/' ∉ name'.owner.toList := List.count_eq_zero.1 (by omega)
  obtain ⟨hsameOwner, hsameRepo⟩ := append_cons_inj_of_not_mem hlists howner' howner
  cases name
  cases name'
  simp_all [String.toList_inj]

/-- What is stored for a repository after an insertion. -/
theorem RepoStore.getElem?_insert {store : RepoStore} {name' : RepoName}
    (h : name'.isProper = true) (name : RepoName) (stamps : List (Option FileStamp)) (s : Snapshot) :
    (store.insert name stamps s).1.snapshots[name'.text]? =
      if name = name' then some (store.insert name stamps s).2
      else store.snapshots[name'.text]? := by
  rw [insert, Std.ExtTreeMap.getElem?_insert]
  by_cases hname : name = name'
  · rw [if_pos hname, if_pos (hname ▸ Std.ReflCmp.compare_self)]
  · rw [if_neg hname, if_neg]
    intro heq
    exact hname (RepoName.eq_of_text_eq h (Std.LawfulEqCmp.eq_of_compare heq))

/-- The snapshot is what is loaded on the tree, and the stamps are those of the tree. -/
structure StoredSnapshot.StemsFrom (stored : StoredSnapshot) (t : FileTree) (directory repo : String) :
    Prop where
  load_eq : (Snapshot.load directory repo).on t = .ok stored.snapshot
  stamps_eq : stored.stamps = RepoStore.stamps t directory stored.snapshot.declaration

/-! ## Histories -/

/-- What happens to a store and the files below its root, one thing after the other. -/
inductive StoreEvent where
  | change (c : FileChange)
  | call (name : RepoName)

/-- A successful call, and the tree on which it was made. -/
structure ServedCall where
  name : RepoName
  tree : FileTree
  stored : StoredSnapshot

/-- A store and a file tree, and what has been before. -/
structure StoreHistory where
  store : RepoStore
  tree : FileTree
  /-- The trees so far, up to the present one. -/
  moments : List FileTree
  /-- The successful calls so far, the last first. -/
  served : List ServedCall

namespace StoreHistory

/-- A store that has not served any call. -/
def start (root : String) (t : FileTree) : StoreHistory := ⟨.ofRoot root, t, [t], []⟩

/-- What an event does. -/
def next (h : StoreHistory) : StoreEvent → StoreHistory
  | .change c => { h with tree := c.apply h.tree, moments := h.moments ++ [c.apply h.tree] }
  | .call name =>
    match h.store.snapshot h.tree name with
    | (store, .ok stored) => { h with store, served := ⟨name, h.tree, stored⟩ :: h.served }
    | (store, .error _) => { h with store }

/-- What events do, one after the other. -/
def run (h : StoreHistory) (events : List StoreEvent) : StoreHistory := events.foldl next h

/-- The last successful call for a repository. -/
def last? (h : StoreHistory) (name : RepoName) : Option ServedCall :=
  h.served.find? fun call => call.name = name

/-- What every event preserves. -/
structure Sound (h : StoreHistory) : Prop where
  tree_mem : h.tree ∈ h.moments
  stems : ∀ (name : RepoName) (stored : StoredSnapshot), name.isProper = true →
    h.store.snapshots[name.text]? = some stored →
      ∃ t ∈ h.moments, stored.StemsFrom t (h.store.directoryOf name) name.text
  served : ∀ name call, h.last? name = some call →
    h.store.directory? call.tree name = some (h.store.directoryOf name) ∧
      h.store.snapshots[name.text]? = some call.stored ∧
        call.stored.stamps = RepoStore.stamps call.tree (h.store.directoryOf name)
          call.stored.snapshot.declaration

/-- A store that starts has served nothing. -/
theorem sound_start (root : String) (t : FileTree) : (start root t).Sound where
  tree_mem := List.mem_singleton_self t
  stems := by
    intro name stored _ hstored
    simp [start, RepoStore.ofRoot] at hstored
  served := by
    intro name call hcall
    cases hcall

variable {h : StoreHistory}

/-- A call that has been served is the last of its repository, and of no other. -/
theorem last?_cons (store : RepoStore) (call : ServedCall) (name : RepoName) :
    last? { h with store, served := call :: h.served } name =
      if call.name = name then some call else h.last? name := by
  rw [last?, List.find?_cons]
  by_cases hname : call.name = name
  · simp [hname]
  · simp [hname, last?]

/-- A change of files keeps the history sound. -/
theorem Sound.change (hsound : h.Sound) (c : FileChange) : (h.next (.change c)).Sound where
  tree_mem := List.mem_append_right _ (List.mem_singleton_self _)
  stems := by
    intro name stored hproper hstored
    obtain ⟨t, ht, hstems⟩ := hsound.stems name stored hproper hstored
    exact ⟨t, List.mem_append_left _ ht, hstems⟩
  served := hsound.served

/-- A call keeps the history sound. -/
theorem Sound.call (hsound : h.Sound) (name : RepoName) : (h.next (.call name)).Sound := by
  cases hcall : h.store.snapshot h.tree name with
  | mk store outcome =>
      rw [next, hcall]
      rcases RepoStore.snapshot_cases hcall with
        ⟨failure, rfl, rfl⟩ | ⟨stored, rfl, rfl, hdirectory, hstored, hstamps⟩ |
          ⟨s, rfl, rfl, hdirectory, hload⟩
      · exact ⟨hsound.tree_mem, hsound.stems, hsound.served⟩
      · refine ⟨hsound.tree_mem, hsound.stems, ?_⟩
        intro name' call hlast
        rw [last?_cons] at hlast
        split at hlast
        next heq =>
          cases hlast
          cases heq
          exact ⟨hdirectory, hstored, hstamps.symm⟩
        next => exact hsound.served name' call hlast
      · refine ⟨hsound.tree_mem, ?_, ?_⟩
        · intro name' stored' hproper' hstored'
          rw [RepoStore.getElem?_insert hproper'] at hstored'
          split at hstored'
          next heq =>
            cases heq
            cases hstored'
            exact ⟨h.tree, hsound.tree_mem, hload, rfl⟩
          next =>
            obtain ⟨t, ht, hstems⟩ := hsound.stems name' stored' hproper' hstored'
            exact ⟨t, ht, hstems⟩
        · intro name' call hlast
          rw [last?_cons] at hlast
          split at hlast
          next heq =>
            cases hlast
            cases heq
            exact ⟨hdirectory, Std.ExtTreeMap.getElem?_insert_self, rfl⟩
          next hne =>
            obtain ⟨hdirectory', hstored', hstamps'⟩ := hsound.served name' call hlast
            have hproper' := (RepoStore.directory?_eq_some_iff.1 hdirectory').1
            refine ⟨hdirectory', ?_, hstamps'⟩
            rwa [RepoStore.getElem?_insert hproper', if_neg hne]

/-- **Every history is sound.** -/
theorem sound_run (hsound : h.Sound) (events : List StoreEvent) : (h.run events).Sound := by
  induction events generalizing h with
  | nil => exact hsound
  | cons event rest ih =>
      cases event with
      | change c => exact ih (hsound.change c)
      | call name => exact ih (hsound.call name)

/-- **A stored snapshot is as good as a new one.** -/
theorem snapshot_transparent (root : String) (t : FileTree) (events : List StoreEvent)
    (name : RepoName) :
    let h := (start root t).run events
    (StampsTell h.moments → ∀ store stored, h.store.snapshot h.tree name = (store, .ok stored) →
      stored.snapshot.AgreesOn (h.store.directoryOf name) name.text h.tree) ∧
    (∀ call, h.last? name = some call →
      (∀ path ∈ RepoStore.pathsOf (h.store.directoryOf name) call.stored.snapshot.declaration,
        h.tree.stamp? path = call.tree.stamp? path) →
      h.store.snapshot h.tree name = (h.store, .ok call.stored)) ∧
    (∀ store failure, h.store.snapshot h.tree name = (store, .error failure) →
      store = h.store) := by
  intro h
  have hsound : h.Sound := sound_run (sound_start root t) events
  refine ⟨?_, ?_, ?_⟩
  · intro htell store stored hcall
    rcases RepoStore.snapshot_cases hcall with
      ⟨failure, hfail, _⟩ | ⟨found, hok, _, hdirectory, hstored, hstamps⟩ |
        ⟨s, hok, _, _, hload⟩
    · cases hfail
    · obtain rfl := Except.ok.inj hok
      have hproper := (RepoStore.directory?_eq_some_iff.1 hdirectory).1
      obtain ⟨t', ht', hstems⟩ := hsound.stems name stored hproper hstored
      -- The files show what they showed at the loading, so they read as they did then.
      have hshow := RepoStore.stamps_eq_iff.1 (hstamps.trans hstems.stamps_eq)
      refine Snapshot.AgreesOn.alike ⟨_, hstems.load_eq, Snapshot.Agrees.refl _⟩ ?_
      intro path hpath
      exact (htell h.tree hsound.tree_mem t' ht' path (hshow path hpath)).symm
    · obtain rfl := Except.ok.inj hok
      exact ⟨s, hload, Snapshot.Agrees.refl s⟩
  · intro call hlast hunchanged
    obtain ⟨hdirectory, hstored, hstamps⟩ := hsound.served name call hlast
    obtain ⟨hproper, hfile, _⟩ := RepoStore.directory?_eq_some_iff.1 hdirectory
    -- The stamp of the declaration also tells that it is still a file.
    refine RepoStore.snapshot_of_stamps ?_ hstored
      ((RepoStore.stamps_eq_iff.2 hunchanged).trans hstamps.symm)
    refine RepoStore.directory?_eq_some_iff.2 ⟨hproper, ?_, rfl⟩
    rwa [FileTree.isFile_eq_of_stamp?_eq (hunchanged _ List.mem_cons_self)]
  · intro store failure hcall
    rcases RepoStore.snapshot_cases hcall with ⟨_, _, rfl⟩ | ⟨_, hok, _⟩ | ⟨_, hok, _⟩
    · rfl
    · cases hok
    · cases hok

end StoreHistory

/-! ## One repository -/

/-- The declaration of a repository `o/r` with one source. -/
def oneSourceText : Octets := Utf8.encode "sources: [{path: a.xml}]"

/-- A document with one coded element. -/
def oneSourceContent : Octets := Utf8.encode "<a code='1'/>"

/-- The files of the repository. -/
def oneSourceTree : FileTree where
  node? := fun place =>
    [([], .directory 0), (["o"], .directory 0), (["o", "r"], .directory 0),
      (["o", "r", "mcp.yaml"], .file oneSourceText 0),
      (["o", "r", "a.xml"], .file oneSourceContent 0)].lookup place
  workingDirectory := []
  clock := 0

/-- The source with that document. -/
def onlySource : Source := ⟨"a.xml", "", none, none⟩

/-- What the declaration of the repository says. -/
def oneSourceDeclaration : Declaration := ⟨"1.0", ⟨"o/r", "", ""⟩, [onlySource]⟩

/-- What is known of the repository when its declaration has been read. -/
def Loading.oneSource : Loading :=
  ⟨"o/r", oneSourceText, oneSourceDeclaration, ∅, ∅, [onlySource]⟩

/-- The snapshot of the repository. -/
def oneSourceSnapshot : Snapshot := (Loading.oneSource.supply (.ok oneSourceContent)).finish

/-- The declaration with one source starts its loading. -/
theorem Loading.start_oneSource :
    Loading.start "o/r" "o/r" (.ok oneSourceText) = .ok Loading.oneSource := by
  have hload : Declaration.load oneSourceText "o/r" = .ok oneSourceDeclaration := by cbv
  rw [Loading.start, hload]
  rfl

/-- A tree with this declaration and a readable source loads the snapshot of both. -/
theorem Snapshot.load_oneSource_on {t : FileTree} {octets : Octets}
    (hdeclaration : t.read (Loading.declarationPath "o/r") = .ok oneSourceText)
    (hcontent : Loading.contentOn t "o/r" onlySource = .ok octets) :
    (Snapshot.load "o/r" "o/r").on t = .ok (Loading.oneSource.supply (.ok octets)).finish := by
  rw [load_on, hdeclaration, Loading.start_oneSource, ← hcontent]
  rfl

/-- The declaration is read. -/
theorem read_oneSourceTree :
    oneSourceTree.read (Loading.declarationPath "o/r") = .ok oneSourceText := by
  decide +kernel

/-- The source is read. -/
theorem contentOn_oneSourceTree :
    Loading.contentOn oneSourceTree "o/r" onlySource = .ok oneSourceContent := by
  decide +kernel

/-- The snapshot is loaded. -/
theorem load_oneSourceTree : (Snapshot.load "o/r" "o/r").on oneSourceTree = .ok oneSourceSnapshot :=
  Snapshot.load_oneSource_on read_oneSourceTree contentOn_oneSourceTree

/-- The repository is found. -/
theorem directory?_oneSourceTree :
    (RepoStore.ofRoot "").directory? oneSourceTree ⟨"o", "r"⟩ = some "o/r" := by
  decide +kernel

namespace StoreHistory

/-- A file elsewhere is written between two calls. -/
theorem snapshot_transparent_elsewhere : ∃ t events name call,
    StampsTell ((start "" t).run events).moments ∧
      ((start "" t).run events).last? name = some call ∧
      ((start "" t).run events).store.snapshot ((start "" t).run events).tree name =
        (((start "" t).run events).store, .ok call.stored) ∧
      call.stored.snapshot.AgreesOn "o/r" "o/r" ((start "" t).run events).tree := by
  have hload := load_oneSourceTree
  have hdeclaration : oneSourceSnapshot.declaration = oneSourceDeclaration := rfl
  generalize oneSourceSnapshot = s at hload hdeclaration
  have hroot : (RepoStore.ofRoot "").directoryOf ⟨"o", "r"⟩ = "o/r" := by decide +kernel
  have hfirst := RepoStore.snapshot_of_load (hroot ▸ directory?_oneSourceTree) rfl (hroot ▸ hload)
  generalize hinserted : (RepoStore.ofRoot "").insert ⟨"o", "r"⟩ _ s = inserted at hfirst
  obtain ⟨store, stored⟩ := inserted
  have hrun : (start "" oneSourceTree).run [.call ⟨"o", "r"⟩, .change (.write ["x"] [] 5)] =
      ⟨store, oneSourceTree.write ["x"] [] 5, [oneSourceTree, oneSourceTree.write ["x"] [] 5],
        [⟨⟨"o", "r"⟩, oneSourceTree, stored⟩]⟩ := by
    simp only [run, List.foldl_cons, List.foldl_nil, next, start, hfirst]
    rfl
  have hfresh : (FileChange.write ["x"] [] 5).IsFresh [oneSourceTree] := by
    intro t ht octets hfile
    have hnone : oneSourceTree.node? ["x"] = none := by decide +kernel
    rw [List.mem_singleton.1 ht, hnone] at hfile
    cases hfile
  have htell := ((Chronicle.one oneSourceTree).concat List.mem_cons_self hfresh).stampsTell
  have hstored : stored.snapshot = s ∧ store.directoryOf ⟨"o", "r"⟩ = "o/r" := by
    cases hinserted
    exact ⟨rfl, hroot⟩
  have htransparent := snapshot_transparent "" oneSourceTree
    [.call ⟨"o", "r"⟩, .change (.write ["x"] [] 5)] ⟨"o", "r"⟩
  refine ⟨oneSourceTree, [.call ⟨"o", "r"⟩, .change (.write ["x"] [] 5)], ⟨"o", "r"⟩,
    ⟨⟨"o", "r"⟩, oneSourceTree, stored⟩, ?_⟩
  rw [hrun] at htransparent ⊢
  dsimp only at htransparent ⊢
  rw [hstored.2] at htransparent
  obtain ⟨hagrees, hsame, _⟩ := htransparent
  have hlast : last? ⟨store, oneSourceTree.write ["x"] [] 5,
      [oneSourceTree, oneSourceTree.write ["x"] [] 5], [⟨⟨"o", "r"⟩, oneSourceTree, stored⟩]⟩
      ⟨"o", "r"⟩ = some ⟨⟨"o", "r"⟩, oneSourceTree, stored⟩ := rfl
  have hunchanged : ∀ path ∈ RepoStore.pathsOf "o/r" stored.snapshot.declaration,
      (oneSourceTree.write ["x"] [] 5).stamp? path = oneSourceTree.stamp? path := by
    rw [hstored.1, hdeclaration]
    decide +kernel
  have hcall := hsame _ hlast hunchanged
  exact ⟨htell, hlast, hcall, hagrees htell _ _ hcall⟩

end StoreHistory

end RegistryGraph
