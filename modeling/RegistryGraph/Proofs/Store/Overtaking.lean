import Mathlib.Logic.Function.Basic
import RegistryGraph.Proofs.Store.Reuse

/-!
# Calls that interleave with writes

Several calls for snapshots take their steps in any order, and files are written in between, each with a
modification time that it has never had.  A call takes the stamps after it has read the files, so a
write that comes between the two is stamped and not read, and the snapshot that misses it passes for
current from then on.

Events are known by their numbers, and `before k` is how everything is before event number `k`.

* `SharedStore.Faithful.succ`: what a call knows is what its reads found, one event further.
* `SharedStore.sourced_before`: which call put a stored snapshot there, and when it took the stamps.
* `SharedStore.snapshot_agrees_iff`: what a call hands out agrees with the files exactly if it agreed
  with them when its stamps were taken, which it did unless a write overtook the call.
* `SharedStore.stale_snapshot`: a run after which it does not.
-/

namespace RegistryGraph

/-- The file that a call reads with its next step. -/
def SnapshotCall.reads? : SnapshotCall → Option String
  | .readDeclaration directory => some (Loading.declarationPath directory)
  | .readSources directory l => l.pending.head?.bind (Loading.sourcePath? directory)
  | _ => none

/-- What happens to a store that several calls share. -/
inductive SharedEvent where
  | change (c : FileChange)
  /-- A call takes a step. -/
  | step (i : Nat)

/-- A store, the calls that use it, by their numbers, and the files. -/
structure SharedStore where
  store : RepoStore
  tree : FileTree
  /-- The trees so far, up to the present one. -/
  moments : List FileTree
  call : Nat → SnapshotCall

namespace SharedStore

/-- Calls that have not done anything, and an empty store. -/
def start (root : String) (t : FileTree) : SharedStore := ⟨.ofRoot root, t, [t], fun _ => .resolve⟩

/-- What an event does; call number `i` is for the repository `names i`. -/
def next (names : Nat → RepoName) (w : SharedStore) : SharedEvent → SharedStore
  | .change c => { w with tree := c.apply w.tree, moments := w.moments ++ [c.apply w.tree] }
  | .step i =>
    { w with
      store := ((w.call i).step w.tree (names i) w.store).1
      call := Function.update w.call i ((w.call i).step w.tree (names i) w.store).2 }

/-- What events do, one after the other. -/
def run (names : Nat → RepoName) (w : SharedStore) (events : List SharedEvent) : SharedStore :=
  events.foldl (next names) w

/-- Every file that is written gets a modification time that it has never had. -/
def FreshWrites (names : Nat → RepoName) (w : SharedStore) (events : List SharedEvent) : Prop :=
  ∀ before c after, events = before ++ .change c :: after → c.IsFresh (w.run names before).moments

/-- Without events every write is fresh. -/
theorem freshWrites_nil (names : Nat → RepoName) (w : SharedStore) : FreshWrites names w [] := by
  intro before c after h
  exact absurd (congrArg List.length h) (by simp)

/-- Steps of calls need not be fresh. -/
theorem freshWrites_step {names : Nat → RepoName} {w : SharedStore} {i : Nat}
    {rest : List SharedEvent} :
    FreshWrites names w (.step i :: rest) ↔ FreshWrites names (w.next names (.step i)) rest := by
  constructor
  · intro h before c after hrest
    exact h (.step i :: before) c after (by rw [hrest, List.cons_append])
  · intro h before c after hevents
    cases before with
    | nil => cases hevents
    | cons event before =>
        obtain ⟨rfl, hrest⟩ := List.cons.inj hevents
        exact h before c after hrest

/-- A change must be fresh among the moments so far, and those behind it likewise. -/
theorem freshWrites_change {names : Nat → RepoName} {w : SharedStore} {c : FileChange}
    {rest : List SharedEvent} :
    FreshWrites names w (.change c :: rest) ↔
      c.IsFresh w.moments ∧ FreshWrites names (w.next names (.change c)) rest := by
  constructor
  · intro h
    refine ⟨h [] c rest rfl, ?_⟩
    intro before c' after hrest
    exact h (.change c :: before) c' after (by rw [hrest, List.cons_append])
  · rintro ⟨hfirst, h⟩ before c' after hevents
    cases before with
    | nil =>
        obtain ⟨heq, rfl⟩ := List.cons.inj hevents
        obtain rfl := SharedEvent.change.inj heq
        exact hfirst
    | cons event before =>
        obtain ⟨rfl, hrest⟩ := List.cons.inj hevents
        exact h before c' after hrest

/-- A step leaves the directories of repositories where they are. -/
theorem directoryOf_step (t : FileTree) (name : RepoName) (store : RepoStore) (call : SnapshotCall)
    (name' : RepoName) : (call.step t name store).1.directoryOf name' = store.directoryOf name' := by
  cases call with
  | resolve => rw [SnapshotCall.step]; split <;> rfl
  | check directory => rw [SnapshotCall.step]; split <;> rfl
  | readDeclaration directory => rw [SnapshotCall.step]; split <;> rfl
  | readSources directory l => rw [SnapshotCall.step]; split <;> rfl
  | takeStamps directory s => rfl
  | insert stamps s => rfl
  | done outcome => rfl

/-! ## The numbers of the events -/

section Positions

variable (names : Nat → RepoName) (w : SharedStore) (events : List SharedEvent)

/-- How everything is before event number `k`. -/
def before (k : Nat) : SharedStore := w.run names (events.take k)

/-- Event number `k` is a step of call `i`, which `call` says how to take. -/
structure StepsAt (k i : Nat) (call : SnapshotCall) : Prop where
  event : events[k]? = some (.step i)
  call_eq : (w.before names events k).call i = call

/-- With event number `k` call `i` reads the file at `path`. -/
def ReadsAt (k i : Nat) (path : String) : Prop :=
  ∃ call, StepsAt names w events k i call ∧ call.reads? = some path

/-- What call `i` has read before event number `k` reads in `t` as it did then. -/
def ReadAlike (k i : Nat) (t : FileTree) : Prop :=
  ∀ j path, j < k → ReadsAt names w events j i path →
    (w.before names events j).tree.ReadsAlike t path

/-- A write comes after call `i` has read a file and before event number `k`, when the file reads
otherwise. -/
def Overtaken (k i : Nat) : Prop :=
  ∃ j m c path, ReadsAt names w events j i path ∧ j < m ∧ m < k ∧ events[m]? = some (.change c) ∧
    ¬(w.before names events j).tree.ReadsAlike (w.before names events k).tree path

/-- Call `i` took the stamps of a stored snapshot with event number `k`, and put it into the store with
event number `m`. -/
structure StoredBy (name : RepoName) (stored : StoredSnapshot) (i k m : Nat) : Prop where
  name_eq : names i = name
  stamping : StepsAt names w events k i
    (.takeStamps (w.store.directoryOf name) stored.snapshot)
  stamps_eq : stored.stamps = RepoStore.stamps (w.before names events k).tree
    (w.store.directoryOf name) stored.snapshot.declaration
  insertion : StepsAt names w events m i (.insert stored.stamps stored.snapshot)
  serial_eq : stored.serial = (w.before names events m).store.next
  order : k < m

end Positions

variable {names : Nat → RepoName} {w : SharedStore} {events : List SharedEvent} {k n i : Nat}

/-- Events happen one list behind the other. -/
theorem run_append (names : Nat → RepoName) (w : SharedStore) (first later : List SharedEvent) :
    w.run names (first ++ later) = (w.run names first).run names later :=
  List.foldl_append

/-- An event leads from one number to the next. -/
theorem before_succ {e : SharedEvent} (h : events[k]? = some e) :
    w.before names events (k + 1) = (w.before names events k).next names e := by
  rw [before, List.take_add_one, h, run_append]
  rfl

/-- Behind the last event nothing happens. -/
theorem before_succ_of_none (h : events[k]? = none) :
    w.before names events (k + 1) = w.before names events k := by
  rw [before, List.take_add_one, h, Option.toList_none, List.append_nil]
  rfl

/-- Before the end is behind all events. -/
theorem before_length (names : Nat → RepoName) (w : SharedStore) (events : List SharedEvent) :
    w.before names events events.length = w.run names events := by
  rw [before, List.take_length]

/-- From what is before an event the run goes on with that event. -/
theorem run_before (names : Nat → RepoName) (w : SharedStore) (events : List SharedEvent) (k : Nat) :
    (w.before names events k).run names (events.drop k) = w.run names events := by
  rw [before, ← run_append, List.take_append_drop]

/-- Where the files of a repository are does not change. -/
theorem directoryOf_run (w : SharedStore) (events : List SharedEvent) (name : RepoName) :
    (w.run names events).store.directoryOf name = w.store.directoryOf name := by
  induction events generalizing w with
  | nil => rfl
  | cons event rest ih =>
      rw [run, List.foldl_cons, ← run, ih]
      cases event with
      | change c => rfl
      | step i => exact directoryOf_step w.tree (names i) w.store (w.call i) name

/-- Files that are not the same at two numbers have been changed in between. -/
theorem exists_change_of_ne {j : Nat} (hle : j ≤ k)
    (hne : (w.before names events j).tree ≠ (w.before names events k).tree) :
    ∃ m c, j ≤ m ∧ m < k ∧ events[m]? = some (.change c) := by
  induction k, hle using Nat.le_induction with
  | base => exact absurd rfl hne
  | succ k hle ih =>
      cases hevent : events[k]? with
      | none =>
          rw [before_succ_of_none hevent] at hne
          obtain ⟨m, c, hjm, hmk, hchange⟩ := ih hne
          exact ⟨m, c, hjm, by omega, hchange⟩
      | some event =>
          cases event with
          | change c => exact ⟨k, c, hle, by omega, hevent⟩
          | step i =>
              rw [before_succ hevent] at hne
              obtain ⟨m, c, hjm, hmk, hchange⟩ := ih hne
              exact ⟨m, c, hjm, by omega, hchange⟩

/-- A call that is not overtaken has read what is there. -/
theorem readAlike_of_not_overtaken (h : ¬Overtaken names w events k i) :
    ReadAlike names w events k i (w.before names events k).tree := by
  intro j path hj hreads
  by_contra hother
  have hne : (w.before names events j).tree ≠ (w.before names events k).tree := by
    intro hsame
    apply hother
    rw [hsame]
    exact rfl
  obtain ⟨m, c, hjm, hmk, hchange⟩ := exists_change_of_ne hj.le hne
  -- The read itself is a step and no change.
  have hlt : j < m := by
    rcases Nat.eq_or_lt_of_le hjm with rfl | hlt
    · obtain ⟨call, hstep, _⟩ := hreads
      rw [hstep.event] at hchange
      cases hchange
    · exact hlt
  exact h ⟨j, m, c, path, hreads, hlt, hmk, hchange, hother⟩

/-- What read alike for some time did so for any shorter time. -/
theorem ReadAlike.of_le {t : FileTree} (h : ReadAlike names w events n i t) (hle : k ≤ n) :
    ReadAlike names w events k i t :=
  fun j path hj => h j path (by omega)

/-! ## What a call knows -/

/-- What call `i` has found out before event number `n`. A tree that reads like the files did when the
call read them would have given the same. -/
def Faithful (names : Nat → RepoName) (w : SharedStore) (events : List SharedEvent) (n i : Nat) :
    SnapshotCall → Prop
  | .resolve | .done _ => True
  | .check d | .readDeclaration d =>
    d = w.store.directoryOf (names i) ∧ (names i).isProper = true
  | .readSources d l => d = w.store.directoryOf (names i) ∧ (names i).isProper = true ∧
    ∀ t, ReadAlike names w events n i t → ∃ l' count,
      Loading.start d (names i).text (t.read (Loading.declarationPath d)) = .ok l' ∧
        l'.pending.length = count + l.pending.length ∧
        l.Matches (l'.readFrom d (List.replicate count t))
  | .takeStamps d s => d = w.store.directoryOf (names i) ∧ (names i).isProper = true ∧
    ∀ t, ReadAlike names w events n i t → s.AgreesOn d (names i).text t
  | .insert stamps s => (names i).isProper = true ∧
    ∃ k < n, StepsAt names w events k i (.takeStamps (w.store.directoryOf (names i)) s) ∧
      stamps = RepoStore.stamps (w.before names events k).tree (w.store.directoryOf (names i))
        s.declaration

/-- What a call knows stays true while it waits. -/
theorem Faithful.wait {call : SnapshotCall} (h : Faithful names w events n i call) :
    Faithful names w events (n + 1) i call := by
  cases call with
  | resolve => trivial
  | check d => exact h
  | readDeclaration d => exact h
  | readSources d l =>
      obtain ⟨hd, hproper, hmatches⟩ := h
      exact ⟨hd, hproper, fun t ht => hmatches t (ht.of_le n.le_succ)⟩
  | takeStamps d s =>
      obtain ⟨hd, hproper, hagrees⟩ := h
      exact ⟨hd, hproper, fun t ht => hagrees t (ht.of_le n.le_succ)⟩
  | insert stamps s =>
      obtain ⟨hproper, k, hk, hstamped⟩ := h
      exact ⟨hproper, k, by omega, hstamped⟩
  | done outcome => trivial

/-- **One step of the call itself.**  What the step reads is among what a like tree reads alike. -/
theorem Faithful.step {call : SnapshotCall} (hstep : StepsAt names w events n i call)
    (h : Faithful names w events n i call) :
    Faithful names w events (n + 1) i
      (call.step (w.before names events n).tree (names i) (w.before names events n).store).2 := by
  have hdirectory : (w.before names events n).store.directoryOf (names i) =
      w.store.directoryOf (names i) := directoryOf_run w _ _
  have hnow : ∀ {t path}, ReadAlike names w events (n + 1) i t → call.reads? = some path →
      (w.before names events n).tree.ReadsAlike t path :=
    fun ht hpath => ht n _ n.lt_succ_self ⟨call, hstep, hpath⟩
  cases call with
  | resolve =>
      rw [SnapshotCall.step]
      cases hfound : (w.before names events n).store.directory? (w.before names events n).tree
          (names i) with
      | none => trivial
      | some directory =>
          obtain ⟨hproper, _, hd⟩ := RepoStore.directory?_eq_some_iff.1 hfound
          exact ⟨hd.trans hdirectory, hproper⟩
  | check d =>
      rw [SnapshotCall.step]
      cases (w.before names events n).store.current? (w.before names events n).tree (names i) d with
      | some stored => trivial
      | none => exact h
  | readDeclaration d =>
      obtain ⟨hd, hproper⟩ := h
      rw [SnapshotCall.step]
      cases hstart : Loading.start d (names i).text
          ((w.before names events n).tree.read (Loading.declarationPath d)) with
      | error failure => trivial
      | ok l =>
          refine ⟨hd, hproper, ?_⟩
          intro t ht
          exact ⟨l, 0, Loading.start_alike hstart (hnow ht rfl), (Nat.zero_add _).symm,
            ⟨rfl, rfl, rfl, rfl⟩⟩
  | readSources d l =>
      obtain ⟨hd, hproper, hmatches⟩ := h
      rw [SnapshotCall.step]
      split
      next hdone =>
        refine ⟨hd, hproper, ?_⟩
        intro t ht
        obtain ⟨l', count, hstart, hlength, hl⟩ := hmatches t (ht.of_le n.le_succ)
        rw [List.isEmpty_iff.1 hdone, List.length_nil, Nat.add_zero] at hlength
        refine ⟨_, ?_, hl.finish⟩
        rw [Snapshot.load_on, hstart, ← hlength]
        rfl
      next hmore =>
        refine ⟨hd, hproper, ?_⟩
        intro t ht
        obtain ⟨l', count, hstart, hlength, hl⟩ := hmatches t (ht.of_le n.le_succ)
        have hpos : 0 < l.pending.length := List.length_pos_iff.2 (by simpa using hmore)
        refine ⟨l', count + 1, hstart, ?_, ?_⟩
        · rw [Loading.advance_pending, List.length_tail]
          omega
        · rw [List.replicate_succ', Loading.readFrom_concat]
          apply hl.advance
          intro s rest hpending path hpath
          apply hnow ht
          rw [SnapshotCall.reads?, hpending]
          exact hpath
  | takeStamps d s =>
      obtain ⟨rfl, hproper, _⟩ := h
      exact ⟨hproper, n, n.lt_succ_self, hstep, rfl⟩
  | insert stamps s => trivial
  | done outcome => trivial

/-- **One event.**  The call takes a step, or waits. -/
theorem Faithful.succ (h : Faithful names w events n i ((w.before names events n).call i)) :
    Faithful names w events (n + 1) i ((w.before names events (n + 1)).call i) := by
  cases hevent : events[n]? with
  | none =>
      rw [before_succ_of_none hevent]
      exact h.wait
  | some event =>
      rw [before_succ hevent]
      cases event with
      | change c => exact h.wait
      | step j =>
          by_cases hj : i = j
          · subst hj
            simp only [next, Function.update_self]
            exact Faithful.step ⟨hevent, rfl⟩ h
          · simp only [next, Function.update_of_ne hj]
            exact h.wait

/-- **A whole run.**  The calls take their steps in any order, and files change in between. -/
theorem faithful_before (names : Nat → RepoName) (events : List SharedEvent)
    (hcalls : ∀ i, w.call i = .resolve) (n i : Nat) :
    Faithful names w events n i ((w.before names events n).call i) := by
  induction n with
  | zero =>
      have hbegun : (w.before names events 0).call i = .resolve := hcalls i
      rw [hbegun]
      trivial
  | succ n ih => exact ih.succ

/-! ## Where a stored snapshot comes from -/

/-- Every stored snapshot was put there by a call for its repository, which took the stamps itself. -/
def Sourced (names : Nat → RepoName) (w : SharedStore) (events : List SharedEvent) (n : Nat) : Prop :=
  ∀ (name : RepoName) (stored : StoredSnapshot), name.isProper = true →
    (w.before names events n).store.snapshots[name.text]? = some stored →
      ∃ i k m, StoredBy names w events name stored i k m

/-- A step that does not insert leaves the snapshots as they are. -/
theorem snapshots_step {t : FileTree} {name : RepoName} {store : RepoStore} {call : SnapshotCall}
    (h : ∀ stamps s, call ≠ .insert stamps s) :
    (call.step t name store).1.snapshots = store.snapshots := by
  cases call with
  | insert stamps s => exact absurd rfl (h stamps s)
  | resolve => rw [SnapshotCall.step]; split <;> rfl
  | check directory => rw [SnapshotCall.step]; split <;> rfl
  | readDeclaration directory => rw [SnapshotCall.step]; split <;> rfl
  | readSources directory l => rw [SnapshotCall.step]; split <;> rfl
  | takeStamps directory s => rfl
  | done outcome => rfl

/-- **One event.**  Only the insertion of a call stores anything. -/
theorem Sourced.succ (h : Sourced names w events n)
    (hcalls : ∀ i, Faithful names w events n i ((w.before names events n).call i)) :
    Sourced names w events (n + 1) := by
  intro name stored hproper hstored
  cases hevent : events[n]? with
  | none =>
      rw [before_succ_of_none hevent] at hstored
      exact h name stored hproper hstored
  | some event =>
      rw [before_succ hevent] at hstored
      cases event with
      | change c => exact h name stored hproper hstored
      | step i =>
          dsimp only [next] at hstored
          cases hcall : (w.before names events n).call i with
          | insert stamps s =>
              rw [hcall, SnapshotCall.step] at hstored
              dsimp only at hstored
              rw [RepoStore.getElem?_insert hproper] at hstored
              split at hstored
              next hname =>
                cases hstored
                have hknown := hcalls i
                rw [hcall] at hknown
                obtain ⟨_, k, hk, hstamping, hstamps⟩ := hknown
                rw [hname] at hstamping hstamps
                exact ⟨i, k, n, hname, hstamping, hstamps, ⟨hevent, hcall⟩, rfl, hk⟩
              next => exact h name stored hproper hstored
          | _ =>
              rw [snapshots_step (by simp [hcall])] at hstored
              exact h name stored hproper hstored

/-- **A whole run** from a store without snapshots. -/
theorem sourced_before (names : Nat → RepoName) (events : List SharedEvent)
    (hcalls : ∀ i, w.call i = .resolve) (hempty : w.store.snapshots = ∅) (n : Nat) :
    Sourced names w events n := by
  induction n with
  | zero =>
      intro name stored _ hstored
      have hnone : w.store.snapshots[name.text]? = some stored := hstored
      simp [hempty] at hnone
  | succ n ih => exact ih.succ fun i => faithful_before names events hcalls n i

/-- What has been is not forgotten. -/
theorem moments_run {t : FileTree} (ht : t ∈ w.moments) (events : List SharedEvent) :
    t ∈ (w.run names events).moments := by
  induction events generalizing w with
  | nil => exact ht
  | cons event rest ih =>
      cases event with
      | change c => exact ih (List.mem_append_left _ ht)
      | step i => exact ih (w := w.next names (.step i)) ht

/-- The present files are the last moment. -/
theorem tree_run_mem (hmem : w.tree ∈ w.moments) (events : List SharedEvent) :
    (w.run names events).tree ∈ (w.run names events).moments := by
  induction events generalizing w with
  | nil => exact hmem
  | cons event rest ih =>
      cases event with
      | change c => exact ih (List.mem_append_right _ (List.mem_singleton_self _))
      | step i => exact ih (w := w.next names (.step i)) hmem

/-- The files at every number are among the moments of the run. -/
theorem tree_before_mem (hmem : w.tree ∈ w.moments) (events : List SharedEvent) (k : Nat) :
    (w.before names events k).tree ∈ (w.run names events).moments := by
  rw [← run_before names w events k]
  exact moments_run (tree_run_mem hmem _) _

/-- Fresh writes keep the moments a chronicle. -/
theorem chronicle_run (hmoments : Chronicle w.moments) (hmem : w.tree ∈ w.moments)
    (events : List SharedEvent) (hfresh : FreshWrites names w events) :
    Chronicle (w.run names events).moments := by
  induction events generalizing w with
  | nil => exact hmoments
  | cons event rest ih =>
      cases event with
      | change c =>
          obtain ⟨hfirst, hrest⟩ := freshWrites_change.1 hfresh
          refine ih (hmoments.concat hmem hfirst) ?_ hrest
          exact List.mem_append_right _ (List.mem_singleton_self _)
      | step i => exact ih hmoments hmem (freshWrites_step.1 hfresh)

/-- A snapshot whose call was not overtaken agrees with the files as they were when it took the stamps. -/
theorem StoredBy.agreesOn {name : RepoName} {stored : StoredSnapshot} {m : Nat}
    (h : StoredBy names w events name stored i k m) (hcalls : ∀ i, w.call i = .resolve)
    (hnot : ¬Overtaken names w events k i) :
    stored.snapshot.AgreesOn (w.store.directoryOf name) name.text (w.before names events k).tree := by
  have hknown := faithful_before names events hcalls k i
  rw [h.stamping.call_eq] at hknown
  obtain ⟨_, _, hagrees⟩ := hknown
  rw [h.name_eq] at hagrees
  exact hagrees _ (readAlike_of_not_overtaken hnot)

/-- Files with the stamps that were stored read as they did when the stamps were taken. -/
theorem StoredBy.readsAlike {name : RepoName} {stored : StoredSnapshot} {m : Nat}
    (h : StoredBy names w events name stored i k m) (hmem : w.tree ∈ w.moments)
    (htell : StampsTell (w.run names events).moments)
    (hstamps : RepoStore.stamps (w.run names events).tree (w.store.directoryOf name)
      stored.snapshot.declaration = stored.stamps) :
    ∀ path ∈ RepoStore.pathsOf (w.store.directoryOf name) stored.snapshot.declaration,
      (w.run names events).tree.ReadsAlike (w.before names events k).tree path := by
  have hlast : (w.run names events).tree ∈ (w.run names events).moments := tree_run_mem hmem events
  have hthen : (w.before names events k).tree ∈ (w.run names events).moments :=
    tree_before_mem hmem events k
  have hshow := RepoStore.stamps_eq_iff.1 (hstamps.trans h.stamps_eq)
  intro path hpath
  exact htell _ hlast _ hthen path (hshow path hpath)

/-- **What a call can hand out.**  A call that hands out a snapshot has loaded it just now, or some call
`i` took the stamps with event number `k` and put the snapshot there.  Then it agrees with the files as
they are now if and only if it agrees with the files as they were when the stamps were taken, and it
does so if no write overtook the call between its reads and the stamps. -/
theorem snapshot_agrees_iff (names : Nat → RepoName) (root : String) (t : FileTree)
    (events : List SharedEvent) (hfresh : FreshWrites names (start root t) events) (name : RepoName)
    (store : RepoStore) (stored : StoredSnapshot) :
    let w := start root t
    let now := w.run names events
    let directory := (RepoStore.ofRoot root).directoryOf name
    now.store.snapshot now.tree name = (store, .ok stored) →
      (stored.serial = now.store.next ∧
        (Snapshot.load directory name.text).on now.tree = .ok stored.snapshot) ∨
      ∃ i k m, StoredBy names w events name stored i k m ∧
        (stored.snapshot.AgreesOn directory name.text now.tree ↔
          stored.snapshot.AgreesOn directory name.text (w.before names events k).tree) ∧
        (¬Overtaken names w events k i → stored.snapshot.AgreesOn directory name.text now.tree) := by
  intro w now directory hcall
  have hdirectoryOf : now.store.directoryOf name = directory := directoryOf_run w events name
  have hcalls : ∀ i, w.call i = .resolve := fun _ => rfl
  rcases RepoStore.snapshot_cases hcall with
    ⟨failure, hfail, _⟩ | ⟨found, hok, _, hdirectory, hstored, hstamps⟩ | ⟨s, hok, _, _, hload⟩
  · cases hfail
  · obtain rfl := Except.ok.inj hok
    have hproper := (RepoStore.directory?_eq_some_iff.1 hdirectory).1
    have hsourced := sourced_before names events hcalls rfl events.length
    rw [Sourced, before_length] at hsourced
    obtain ⟨i, k, m, hby⟩ := hsourced name stored hproper hstored
    have hmem : w.tree ∈ w.moments := List.mem_cons_self
    have htell : StampsTell now.moments :=
      (chronicle_run (Chronicle.one t) hmem events hfresh).stampsTell
    rw [hdirectoryOf] at hstamps
    have halike := hby.readsAlike hmem htell hstamps
    have hback : stored.snapshot.AgreesOn directory name.text (w.before names events k).tree →
        stored.snapshot.AgreesOn directory name.text now.tree :=
      fun h => h.alike fun path hpath => (halike path hpath).symm
    exact .inr ⟨i, k, m, hby, ⟨fun h => h.alike halike, hback⟩,
      fun hnot => hback (hby.agreesOn hcalls hnot)⟩
  · obtain rfl := Except.ok.inj hok
    rw [hdirectoryOf] at hload
    exact .inl ⟨rfl, hload⟩

/-- The call reads the source, which is then written before the call takes the stamps. -/
def overtaken : List SharedEvent :=
  [.step 0, .step 0, .step 0, .step 0, .change (.write ["o", "r", "a.xml"] [8] 1),
    .step 0, .step 0, .step 0]

/-- The files after the write. -/
def overtakingTree : FileTree := oneSourceTree.write ["o", "r", "a.xml"] [8] 1

/-- The store and the files when the call has ended. -/
def afterwards : SharedStore := (start "" oneSourceTree).run (fun _ => ⟨"o", "r"⟩) overtaken

/-- The overtaken run ends with the old snapshot stored under the new stamps. -/
theorem run_overtaken :
    afterwards.store =
        ((RepoStore.ofRoot "").insert ⟨"o", "r"⟩
          (RepoStore.stamps overtakingTree "o/r" oneSourceDeclaration) oneSourceSnapshot).1 ∧
      afterwards.tree = overtakingTree ∧
      ∀ i, afterwards.call i = .resolve ∨ ∃ outcome, afterwards.call i = .done outcome := by
  have hresolve : SnapshotCall.step oneSourceTree ⟨"o", "r"⟩ (.ofRoot "") .resolve =
      (.ofRoot "", .check "o/r") := by
    rw [SnapshotCall.step, directory?_oneSourceTree]
  have hcheck : SnapshotCall.step oneSourceTree ⟨"o", "r"⟩ (.ofRoot "") (.check "o/r") =
      (.ofRoot "", .readDeclaration "o/r") := rfl
  have hdeclaration : SnapshotCall.step oneSourceTree ⟨"o", "r"⟩ (.ofRoot "")
      (.readDeclaration "o/r") = (.ofRoot "", .readSources "o/r" Loading.oneSource) := by
    have hstart : Loading.start "o/r" (RepoName.text ⟨"o", "r"⟩)
        (oneSourceTree.read (Loading.declarationPath "o/r")) = .ok Loading.oneSource := by
      rw [read_oneSourceTree]
      exact Loading.start_oneSource
    rw [SnapshotCall.step, hstart]
  have hsource : SnapshotCall.step oneSourceTree ⟨"o", "r"⟩ (.ofRoot "")
      (.readSources "o/r" Loading.oneSource) =
        (.ofRoot "", .readSources "o/r" (Loading.oneSource.supply (.ok oneSourceContent))) := by
    have hadvance : Loading.oneSource.advance oneSourceTree "o/r" =
        Loading.oneSource.supply (.ok oneSourceContent) := by
      rw [← contentOn_oneSourceTree]
      rfl
    rw [SnapshotCall.step, if_neg (by decide), hadvance]
  have hfinish : SnapshotCall.step overtakingTree ⟨"o", "r"⟩ (.ofRoot "")
      (.readSources "o/r" (Loading.oneSource.supply (.ok oneSourceContent))) =
        (.ofRoot "", .takeStamps "o/r" oneSourceSnapshot) := rfl
  have hwrite : (FileChange.write ["o", "r", "a.xml"] [8] 1).apply oneSourceTree = overtakingTree := rfl
  simp only [afterwards, overtaken, run, List.foldl_cons, List.foldl_nil, next, start,
    Function.update_self, hresolve, hcheck, hdeclaration, hsource, hwrite, hfinish]
  refine ⟨rfl, trivial, ?_⟩
  intro i
  by_cases hi : i = 0
  · subst hi
    exact .inr ⟨_, Function.update_self ..⟩
  · simp only [Function.update_of_ne hi, true_or]

/-- The overtaking write is fresh. -/
theorem freshWrites_overtaken :
    FreshWrites (fun _ => ⟨"o", "r"⟩) (start "" oneSourceTree) overtaken := by
  have hold : oneSourceTree.node? ["o", "r", "a.xml"] = some (.file oneSourceContent 0) := by
    decide +kernel
  have hfresh : (FileChange.write ["o", "r", "a.xml"] [8] 1).IsFresh [oneSourceTree] := by
    intro t ht octets hfile
    rw [List.mem_singleton.1 ht, hold] at hfile
    cases hfile
  simp only [overtaken, freshWrites_step, freshWrites_change, freshWrites_nil, and_true]
  exact hfresh

/-- The store hands out what the call has read, although the file says something else by now. -/
theorem snapshot_overtaken :
    ∃ stored, stored.snapshot = oneSourceSnapshot ∧
      afterwards.store.snapshot afterwards.tree ⟨"o", "r"⟩ = (afterwards.store, .ok stored) := by
  obtain ⟨hstore, htree, _⟩ := run_overtaken
  rw [hstore, htree]
  have hdirectory : (RepoStore.ofRoot "").directory? overtakingTree ⟨"o", "r"⟩ =
      some ((RepoStore.ofRoot "").directoryOf ⟨"o", "r"⟩) := by
    decide +kernel
  have hroot : (RepoStore.ofRoot "").directoryOf ⟨"o", "r"⟩ = "o/r" := by decide +kernel
  refine ⟨_, ?_, RepoStore.snapshot_of_stamps hdirectory Std.ExtTreeMap.getElem?_insert_self ?_⟩
  · rfl
  · change RepoStore.stamps overtakingTree ((RepoStore.ofRoot "").directoryOf ⟨"o", "r"⟩)
      oneSourceDeclaration = _
    rw [hroot]

/-- A snapshot of the old content does not agree with the new one. -/
theorem not_agreesOn_overtakingTree :
    ¬oneSourceSnapshot.AgreesOn "o/r" "o/r" overtakingTree := by
  rintro ⟨s, hload, hagrees⟩
  have hcontent : Loading.contentOn overtakingTree "o/r" onlySource = .ok [8] := by
    decide +kernel
  have hdeclaration : overtakingTree.read (Loading.declarationPath "o/r") =
      .ok oneSourceText := by
    decide +kernel
  rw [Snapshot.load_oneSource_on hdeclaration hcontent] at hload
  obtain rfl := Except.ok.inj hload
  have halike := Snapshot.readsAlike_iff.1
    (hagrees.readsAlike onlySource List.mem_cons_self)
  revert halike
  decide +kernel

/-- The call that a write has overtaken put the snapshot there which a later one hands out. -/
theorem snapshot_agrees_iff_overtaken : ∃ stored,
    FreshWrites (fun _ => ⟨"o", "r"⟩) (start "" oneSourceTree) overtaken ∧
      afterwards.store.snapshot afterwards.tree ⟨"o", "r"⟩ = (afterwards.store, .ok stored) ∧
      ∃ i k m,
        StoredBy (fun _ => ⟨"o", "r"⟩) (start "" oneSourceTree) overtaken ⟨"o", "r"⟩ stored i k m ∧
        Overtaken (fun _ => ⟨"o", "r"⟩) (start "" oneSourceTree) overtaken k i := by
  obtain ⟨stored, hsnapshot, hcall⟩ := snapshot_overtaken
  have hroot : (RepoStore.ofRoot "").directoryOf ⟨"o", "r"⟩ = "o/r" := by decide +kernel
  have hstale : ¬stored.snapshot.AgreesOn "o/r" "o/r" afterwards.tree := by
    rw [hsnapshot, run_overtaken.2.1]
    exact not_agreesOn_overtakingTree
  have hcases :=
    snapshot_agrees_iff _ "" oneSourceTree overtaken freshWrites_overtaken ⟨"o", "r"⟩ _ _ hcall
  rw [hroot] at hcases
  rcases hcases with ⟨_, hload⟩ | ⟨i, k, m, hby, _, hkept⟩
  · exact absurd ⟨_, hload, Snapshot.Agrees.refl _⟩ hstale
  · refine ⟨stored, freshWrites_overtaken, hcall, i, k, m, hby, ?_⟩
    by_contra hnot
    exact hstale (hkept hnot)

/-- A write between the reading of a file and the stamps leaves a snapshot behind that no later call
replaces. -/
theorem stale_snapshot :
    FreshWrites (fun _ => ⟨"o", "r"⟩) (start "" oneSourceTree) overtaken ∧
      (∀ i, afterwards.call i = .resolve ∨ ∃ outcome, afterwards.call i = .done outcome) ∧
      ∃ stored,
        afterwards.store.snapshot afterwards.tree ⟨"o", "r"⟩ = (afterwards.store, .ok stored) ∧
        ¬stored.snapshot.AgreesOn "o/r" "o/r" afterwards.tree := by
  obtain ⟨_, htree, hcalls⟩ := run_overtaken
  obtain ⟨stored, hsnapshot, hcall⟩ := snapshot_overtaken
  refine ⟨freshWrites_overtaken, hcalls, stored, hcall, ?_⟩
  rw [hsnapshot, htree]
  exact not_agreesOn_overtakingTree

end SharedStore

end RegistryGraph
