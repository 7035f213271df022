import RegistryGraph.Proofs.Files.Components
import RegistryGraph.Proofs.Files.Inquiry
import RegistryGraph.Proofs.Store.Overtaking

/-!
# Calls stay in their repository

Owner, repository and the paths of sources come from outside.  Names that are more than the name of one
directory entry are refused before the file system is asked anything, and a source whose path is absolute
or has a `..` is never asked about.  So whatever the files are and whatever calls do in between, every
question of a call is about a path that leads through the root, then through owner and repository, and
from there on only down.

* `SnapshotCall.inquiry_on`: a step of a call as questions to the file system.
* `SnapshotCall.Guarded.step`: what a step leaves behind, whatever the answers are.
* `SharedStore.confined_of_reachable`: what calls ask, see and keep out.
-/

namespace RegistryGraph

open Loading (declarationPath sourcePath?)

/-! ## Paths of a repository -/

/-- Whether a path leads through the root and the two parts of the name, and then only down. -/
def RepoName.Encloses (root : String) (name : RepoName) (path : String) : Prop :=
  ∃ names : List String, Path.components path =
    Path.components root ++ .name name.owner :: .name name.repo :: names.map .name

/-- Whether the path of a source leads to the top or up. -/
def Source.LeadsOut (s : Source) : Prop :=
  .top ∈ Path.components s.path ∨ .up ∈ Path.components s.path

/-- A source leads out exactly if its path is not confined. -/
theorem Source.leadsOut_iff {s : Source} : s.LeadsOut ↔ Path.isConfined s.path = false := by
  rw [← Bool.not_eq_true, Path.isConfined_iff, LeadsOut]
  constructor
  · rintro (htop | hup) hinner
    · exact (hinner .top htop).1 rfl
    · exact (hinner .up hup).2 rfl
  · intro h
    by_contra hinner
    obtain ⟨htop, hup⟩ := not_or.1 hinner
    exact h fun c hc => ⟨fun heq => htop (heq ▸ hc), fun heq => hup (heq ▸ hc)⟩

/-- A source that leads out has no path to be read at. -/
theorem Source.leadsOut_iff_sourcePath? (directory : String) {s : Source} :
    s.LeadsOut ↔ sourcePath? directory s = none := by
  rw [leadsOut_iff, sourcePath?, Path.confine?]
  cases Path.isConfined s.path <;> simp

/-- A source with a path stays in and is read below the directory. -/
theorem Loading.eq_join_of_sourcePath? {directory path : String} {s : Source}
    (h : sourcePath? directory s = some path) : ¬s.LeadsOut ∧ path = Path.join directory s.path := by
  constructor
  · rw [Source.leadsOut_iff_sourcePath? directory, h]
    exact Option.some_ne_none path
  · rw [sourcePath?, Path.confine?, Option.ite_none_right_eq_some] at h
    exact (Option.some.inj h.2).symm

namespace RepoStore

variable {store : RepoStore} {name : RepoName}

/-- The directory of a repository is two names below the root. -/
theorem components_directoryOf (h : name.isProper = true) :
    Path.components (store.directoryOf name) =
      Path.components store.root ++ [.name name.owner, .name name.repo] := by
  rw [RepoName.isProper, Bool.and_eq_true] at h
  rw [directoryOf, Path.components_join_name _ h.2, Path.components_join_name _ h.1,
    List.append_assoc, List.singleton_append]

/-- The directory of a repository has a name. -/
theorem directoryOf_ne_empty (h : name.isProper = true) : store.directoryOf name ≠ "" := by
  intro hempty
  have hcomponents : Path.components (store.directoryOf name) = _ := components_directoryOf h
  rw [hempty, Path.components_empty] at hcomponents
  simp at hcomponents

/-- The declaration lies in the directory of its repository. -/
theorem encloses_declarationPath (h : name.isProper = true) :
    name.Encloses store.root (declarationPath (store.directoryOf name)) := by
  have hfile : Path.isName Declaration.fileName = true := by decide
  refine ⟨[Declaration.fileName], ?_⟩
  rw [declarationPath, Path.components_join_name _ hfile, components_directoryOf h,
    List.append_assoc]
  rfl

/-- The path of a source lies in the directory of its repository. -/
theorem encloses_sourcePath? (h : name.isProper = true) {s : Source} {path : String}
    (hpath : sourcePath? (store.directoryOf name) s = some path) :
    name.Encloses store.root path := by
  obtain ⟨names, hnames⟩ := Path.components_confine? (directoryOf_ne_empty h) hpath
  refine ⟨names, ?_⟩
  rw [hnames, components_directoryOf h, List.append_assoc]
  rfl

end RepoStore

/-! ## Steps as questions -/

namespace RepoStore

/-- Asks for the stamps of sources; those that lead out have none. -/
def sourceStamps (directory : String) : List Source → Inquiry (List (Option FileStamp))
  | [] => .done []
  | s :: rest =>
    match sourcePath? directory s with
    | none => (sourceStamps directory rest).map (none :: ·)
    | some path =>
      .ask (.stamp path) fun (stamp : Option FileStamp) =>
        (sourceStamps directory rest).map (stamp :: ·)

/-- Asks for the stamps of a declaration and its sources. -/
def stampInquiry (directory : String) (d : Declaration) : Inquiry (List (Option FileStamp)) :=
  .ask (.stamp (declarationPath directory)) fun (stamp : Option FileStamp) =>
    (sourceStamps directory d.sources).map (stamp :: ·)

/-- Stamps are asked for source by source. -/
theorem sourceStamps_on (t : FileTree) (directory : String) (sources : List Source) :
    (sourceStamps directory sources).on t =
      sources.map fun s => (sourcePath? directory s).bind t.stamp? := by
  induction sources with
  | nil => rfl
  | cons s rest ih =>
      rw [sourceStamps, List.map_cons, ← ih]
      cases sourcePath? directory s with
      | none => exact Inquiry.on_map ..
      | some path => exact Inquiry.on_map ..

/-- The stamps asked for are those of the snapshot's files. -/
theorem stampInquiry_on (t : FileTree) (directory : String) (d : Declaration) :
    (stampInquiry directory d).on t = stamps t directory d := by
  rw [stamps, ← sourceStamps_on]
  exact Inquiry.on_map ..

/-- Stamps are asked for only at the paths of sources. -/
theorem onlyAsks_sourceStamps (directory : String) (sources : List Source) :
    (sourceStamps directory sources).OnlyAsks
      fun path => ∃ s ∈ sources, sourcePath? directory s = some path := by
  induction sources with
  | nil => trivial
  | cons s rest ih =>
      have hrest : (sourceStamps directory rest).OnlyAsks
          fun path => ∃ s' ∈ s :: rest, sourcePath? directory s' = some path :=
        ih.mono fun _ ⟨s', hs', hpath⟩ => ⟨s', List.mem_cons_of_mem s hs', hpath⟩
      rw [sourceStamps]
      cases hpath : sourcePath? directory s with
      | none => exact Inquiry.onlyAsks_map_iff.2 hrest
      | some path =>
          exact ⟨⟨s, List.mem_cons_self, hpath⟩, fun _ => Inquiry.onlyAsks_map_iff.2 hrest⟩

end RepoStore

namespace SnapshotCall

/-- A step of a call for the repository `name`, as questions to the file system. -/
def inquiry (name : RepoName) (store : RepoStore) : SnapshotCall → Inquiry (RepoStore × SnapshotCall)
  | .resolve =>
    if name.isProper then
      .ask (.isFile (declarationPath (store.directoryOf name))) fun (found : Bool) =>
        .done
          (if found then (store, .check (store.directoryOf name))
           else (store, .done (.error (.source .unknownRepository name.text))))
    else .done (store, .done (.error (.source .unknownRepository name.text)))
  | .check directory =>
    match store.snapshots[name.text]? with
    | none => .done (store, .readDeclaration directory)
    | some stored =>
      (RepoStore.stampInquiry directory stored.snapshot.declaration).map fun stamps =>
        if stamps = stored.stamps then (store, .done (.ok stored))
        else (store, .readDeclaration directory)
  | .readDeclaration directory =>
    .ask (.read (declarationPath directory)) fun (answer : Except FileFault Octets) =>
      match Loading.start directory name.text answer with
      | .error failure => .done (store, .done (.error failure))
      | .ok loading => .done (store, .readSources directory loading)
  | .readSources directory loading =>
    match loading.pending with
    | [] => .done (store, .takeStamps directory loading.finish)
    | s :: _ =>
      match sourcePath? directory s with
      | none => .done (store, .readSources directory (loading.supply (.error .escapes)))
      | some path =>
        .ask (.read path) fun (answer : Except FileFault Octets) =>
          .done (store, .readSources directory (loading.supply (answer.mapError .file)))
  | .takeStamps directory snapshot =>
    (RepoStore.stampInquiry directory snapshot.declaration).map fun stamps =>
      (store, .insert stamps snapshot)
  | .insert stamps snapshot =>
    .done
      ((store.insert name stamps snapshot).1, .done (.ok (store.insert name stamps snapshot).2))
  | .done outcome => .done (store, .done outcome)

/-- **A step is its questions**, answered by the file tree. -/
theorem inquiry_on (t : FileTree) (name : RepoName) (store : RepoStore) (call : SnapshotCall) :
    (call.inquiry name store).on t = call.step t name store := by
  cases call with
  | resolve =>
      rw [inquiry, step, RepoStore.directory?]
      cases name.isProper with
      | false => rfl
      | true =>
          rw [if_pos rfl, Bool.true_and, Inquiry.on, FileTree.answer, Inquiry.on]
          cases t.isFile (declarationPath (store.directoryOf name)) <;> rfl
  | check directory =>
      rw [inquiry, step, RepoStore.current?]
      cases store.snapshots[name.text]? with
      | none => rfl
      | some stored =>
          dsimp only
          rw [Inquiry.on_map, RepoStore.stampInquiry_on, Option.filter_some]
          simp only [decide_eq_true_eq]
          split <;> rfl
  | readDeclaration directory =>
      rw [inquiry, step, Inquiry.on, FileTree.answer]
      cases Loading.start directory name.text (t.read (declarationPath directory)) <;> rfl
  | readSources directory l =>
      rw [inquiry, step, Loading.advance]
      cases l.pending with
      | nil => rfl
      | cons s rest =>
          dsimp only
          rw [Loading.contentOn]
          cases sourcePath? directory s <;> rfl
  | takeStamps directory snapshot =>
      rw [inquiry, step, Inquiry.on_map, RepoStore.stampInquiry_on]
  | insert stamps snapshot => rfl
  | done outcome => rfl

end SnapshotCall

/-! ## What is kept out -/

/-- The sources that lead out are not read, and the reason is kept. -/
structure Loading.KeepsOut (l : Loading) : Prop where
  declared : ∀ s ∈ l.pending, s ∈ l.declaration.sources
  unread : ∀ s ∈ l.declaration.sources, s.LeadsOut → l.files[s.path]? = none
  kept : ∀ s ∈ l.declaration.sources, s.LeadsOut → s ∈ l.pending ∨ l.reasons[s.path]? = some .escapes

/-- The sources that lead out have no content, and the reason is kept. -/
def Snapshot.KeepsOut (snapshot : Snapshot) : Prop :=
  ∀ s ∈ snapshot.declaration.sources, s.LeadsOut →
    snapshot.files[s.path]? = none ∧ snapshot.missing[s.path]? = some .escapes

/-- A source that leads out is missing from the snapshot, as one that escapes. -/
theorem Snapshot.KeepsOut.content_eq {snapshot : Snapshot} (h : snapshot.KeepsOut) {s : Source}
    (hs : s ∈ snapshot.declaration.sources) (hout : s.LeadsOut) :
    snapshot.content s.path = .error (.source (.missing snapshot.revision .escapes) s.path) := by
  obtain ⟨hfile, hmissing⟩ := h s hs hout
  rw [content, hfile, hmissing]

/-- A loading that starts has read nothing that leads out. -/
theorem Loading.keepsOut_start {directory repo : String} {answer : Except FileFault Octets}
    {l : Loading} (h : Loading.start directory repo answer = .ok l) : l.KeepsOut := by
  have hpending := pending_of_start h
  have hfiles : l.files = ∅ := by
    unfold start at h
    split at h
    · cases h
    · split at h
      · cases h
      · cases h
        rfl
  constructor
  case declared => exact fun s hs => hpending ▸ hs
  case unread =>
    intro s _ _
    rw [hfiles, Std.ExtTreeMap.getElem?_empty]
  case kept => exact fun s hs _ => .inl (hpending ▸ hs)

/-- Taking in a source, if one that leads out has no answer but that it does. -/
theorem Loading.KeepsOut.supply {l : Loading} (h : l.KeepsOut) {s : Source} {rest : List Source}
    (hpending : l.pending = s :: rest) {answer : Except MissingSource Octets}
    (hanswer : s.LeadsOut → answer = .error .escapes) : (l.supply answer).KeepsOut := by
  have hrest : ∀ s' ∈ rest, s' ∈ l.declaration.sources := by
    intro s' hs'
    exact h.declared s' (hpending ▸ List.mem_cons_of_mem s hs')
  -- Sources with one path lead out together.
  have hsame : ∀ s' : Source, s'.LeadsOut → s.path = s'.path → s.LeadsOut := by
    intro s' hout hpath
    rwa [Source.LeadsOut, hpath]
  have hkept : ∀ s' ∈ l.declaration.sources, s'.LeadsOut →
      s' = s ∨ s' ∈ rest ∨ l.reasons[s'.path]? = some .escapes := by
    intro s' hs' hout
    have hold := h.kept s' hs' hout
    rwa [hpending, List.mem_cons, or_assoc] at hold
  rw [Loading.supply, hpending]
  cases answer with
  | ok octets =>
      have hstays : ¬s.LeadsOut := by
        intro hout
        cases hanswer hout
      constructor
      case declared => exact hrest
      case unread =>
        intro s' hs' hout
        have hne : s.path ≠ s'.path := fun heq => hstays (hsame s' hout heq)
        simpa [Std.ExtTreeMap.getElem?_insert, hne] using h.unread s' hs' hout
      case kept =>
        intro s' hs' hout
        rcases hkept s' hs' hout with rfl | hold
        · exact absurd hout hstays
        · exact hold
  | error cause =>
      constructor
      case declared => exact hrest
      case unread => exact h.unread
      case kept =>
        intro s' hs' hout
        by_cases heq : s.path = s'.path
        · have hcause := Except.error.inj (hanswer (hsame s' hout heq))
          exact .inr (by simp [heq, hcause])
        · have hother : (l.reasons.insert s.path cause)[s'.path]? = l.reasons[s'.path]? := by
            simp [Std.ExtTreeMap.getElem?_insert, heq]
          rcases hkept s' hs' hout with rfl | hold
          · exact absurd rfl heq
          · rw [← hother] at hold
            exact hold

/-- What all pairs with one key say is what the table says that is filled with them. -/
theorem Keyed.getElem?_foldl_insert {α : Type} {entries : List (String × α)} {k : String} {a : α}
    (hmem : (k, a) ∈ entries) (hone : ∀ a', (k, a') ∈ entries → a' = a) (t : Keyed α) :
    (entries.foldl (fun t e => t.insert e.1 e.2) t)[k]? = some a := by
  induction entries using List.reverseRecOn with
  | nil => cases hmem
  | append_singleton front last ih =>
      rw [List.foldl_append, List.foldl_cons, List.foldl_nil, Std.ExtTreeMap.getElem?_insert]
      by_cases hlast : last.1 = k
      · subst hlast
        rw [if_pos Std.ReflCmp.compare_self, hone last.2 (List.mem_append_right _ (by simp))]
      · rw [if_neg (by simpa using hlast)]
        rcases List.mem_append.1 hmem with hfront | hin
        · exact ih hfront fun a' ha' => hone a' (List.mem_append_left _ ha')
        · exact absurd (congrArg Prod.fst (List.mem_singleton.1 hin)).symm hlast

/-- The reasons that a loading gives are those that its snapshot keeps. -/
theorem Loading.missing_finish {l : Loading} {path : String} {cause : MissingSource}
    (h : l.reasons[path]? = some cause) : l.finish.missing[path]? = some cause := by
  rw [finish, Snapshot.make, Std.ExtTreeMap.foldl_eq_foldl_toList]
  refine Keyed.getElem?_foldl_insert (Std.ExtTreeMap.mem_toList_iff_getElem?_eq_some.2 h) ?_ _
  intro cause' hcause'
  rw [Std.ExtTreeMap.mem_toList_iff_getElem?_eq_some, h] at hcause'
  exact (Option.some.inj hcause').symm

/-- A loading that is finished gives a snapshot without what leads out. -/
theorem Loading.KeepsOut.finish {l : Loading} (h : l.KeepsOut) (hpending : l.pending = []) :
    l.finish.KeepsOut := by
  intro s hs hout
  refine ⟨h.unread s hs hout, missing_finish ?_⟩
  rcases h.kept s hs hout with hmem | hreason
  · rw [hpending] at hmem
    cases hmem
  · exact hreason

/-- The stored snapshots keep out what leads out. -/
def RepoStore.KeepsOut (store : RepoStore) : Prop :=
  ∀ (key : String) (stored : StoredSnapshot), store.snapshots[key]? = some stored →
    stored.snapshot.KeepsOut

/-- A store keeps out what leads out if the snapshot inserted does. -/
theorem RepoStore.KeepsOut.insert {store : RepoStore} (h : store.KeepsOut) (name : RepoName)
    (stamps : List (Option FileStamp)) {s : Snapshot} (hs : s.KeepsOut) :
    (store.insert name stamps s).1.KeepsOut := by
  intro key stored hstored
  rw [RepoStore.insert, Std.ExtTreeMap.getElem?_insert] at hstored
  split at hstored
  · obtain rfl := Option.some.inj hstored
    exact hs
  · exact h key stored hstored

/-! ## What a call keeps to -/

/-- What holds of a call for a repository in a directory: it works there if the name is proper, and keeps
out what leads out. -/
def SnapshotCall.Guarded (directory : String) (name : RepoName) : SnapshotCall → Prop
  | .resolve => True
  | .check d | .readDeclaration d => name.isProper = true ∧ d = directory
  | .readSources d l => name.isProper = true ∧ d = directory ∧ l.KeepsOut
  | .takeStamps d s => name.isProper = true ∧ d = directory ∧ s.KeepsOut
  | .insert _ s => name.isProper = true ∧ s.KeepsOut
  | .done (.ok stored) => name.isProper = true ∧ stored.snapshot.KeepsOut
  | .done (.error failure) => name.isProper = true ∨ failure = .source .unknownRepository name.text

namespace SnapshotCall

variable {directory : String} {name : RepoName} {store store' : RepoStore} {call next : SnapshotCall}

/-- **What a step leaves behind**, whatever the answers are. -/
theorem Guarded.step (hcall : call.Guarded (store.directoryOf name) name) (hstore : store.KeepsOut)
    (h : (call.inquiry name store).CanYield (store', next)) :
    store'.root = store.root ∧ store'.KeepsOut ∧ next.Guarded (store.directoryOf name) name := by
  cases call with
  | resolve =>
      rw [inquiry] at h
      split at h
      next hproper =>
        obtain ⟨found, hyield⟩ := Inquiry.canYield_ask_iff.1 h
        have hresult := Inquiry.canYield_done_iff.1 hyield
        cases found with
        | true =>
            obtain ⟨rfl, rfl⟩ := Prod.mk.inj hresult
            exact ⟨rfl, hstore, hproper, rfl⟩
        | false =>
            obtain ⟨rfl, rfl⟩ := Prod.mk.inj hresult
            exact ⟨rfl, hstore, .inl hproper⟩
      next =>
        obtain ⟨rfl, rfl⟩ := Inquiry.canYield_done_pair_iff.1 h
        exact ⟨rfl, hstore, .inr rfl⟩
  | check d =>
      rw [inquiry] at h
      split at h
      next =>
        obtain ⟨rfl, rfl⟩ := Inquiry.canYield_done_pair_iff.1 h
        exact ⟨rfl, hstore, hcall⟩
      next stored hstored =>
        obtain ⟨stamps, _, hresult⟩ := Inquiry.canYield_map_iff.1 h
        split at hresult
        · obtain ⟨rfl, rfl⟩ := Prod.mk.inj hresult
          exact ⟨rfl, hstore, hcall.1, hstore _ stored hstored⟩
        · obtain ⟨rfl, rfl⟩ := Prod.mk.inj hresult
          exact ⟨rfl, hstore, hcall⟩
  | readDeclaration d =>
      obtain ⟨answer, hyield⟩ := Inquiry.canYield_ask_iff.1 h
      split at hyield
      next =>
        obtain ⟨rfl, rfl⟩ := Inquiry.canYield_done_pair_iff.1 hyield
        exact ⟨rfl, hstore, .inl hcall.1⟩
      next l hstart =>
        obtain ⟨rfl, rfl⟩ := Inquiry.canYield_done_pair_iff.1 hyield
        exact ⟨rfl, hstore, hcall.1, hcall.2, Loading.keepsOut_start hstart⟩
  | readSources d l =>
      obtain ⟨hproper, hd, hkeeps⟩ := hcall
      rw [inquiry] at h
      split at h
      next hpending =>
        obtain ⟨rfl, rfl⟩ := Inquiry.canYield_done_pair_iff.1 h
        exact ⟨rfl, hstore, hproper, hd, hkeeps.finish hpending⟩
      next s rest hpending =>
        split at h
        next =>
          obtain ⟨rfl, rfl⟩ := Inquiry.canYield_done_pair_iff.1 h
          exact ⟨rfl, hstore, hproper, hd, hkeeps.supply hpending fun _ => rfl⟩
        next path hpath =>
          obtain ⟨answer, hyield⟩ := Inquiry.canYield_ask_iff.1 h
          obtain ⟨rfl, rfl⟩ := Inquiry.canYield_done_pair_iff.1 hyield
          have hstays := (Loading.eq_join_of_sourcePath? hpath).1
          exact ⟨rfl, hstore, hproper, hd, hkeeps.supply hpending fun hout => absurd hout hstays⟩
  | takeStamps d s =>
      obtain ⟨stamps, _, hresult⟩ := Inquiry.canYield_map_iff.1 h
      obtain ⟨rfl, rfl⟩ := Prod.mk.inj hresult
      exact ⟨rfl, hstore, hcall.1, hcall.2.2⟩
  | insert stamps s =>
      obtain ⟨rfl, rfl⟩ := Inquiry.canYield_done_pair_iff.1 h
      exact ⟨rfl, hstore.insert name stamps hcall.2, hcall⟩
  | done outcome =>
      obtain ⟨rfl, rfl⟩ := Inquiry.canYield_done_pair_iff.1 h
      exact ⟨rfl, hstore, hcall⟩

end SnapshotCall

/-! ## Runs -/

namespace SnapshotCall

variable {name : RepoName} {store : RepoStore} {call : SnapshotCall}

/-- The declaration whose sources a step asks about. -/
def declaration? (name : RepoName) (store : RepoStore) : SnapshotCall → Option Declaration
  | .check _ => store.snapshots[name.text]?.map (·.snapshot.declaration)
  | .readSources _ loading => some loading.declaration
  | .takeStamps _ snapshot => some snapshot.declaration
  | .resolve | .readDeclaration _ | .insert .. | .done _ => none

/-- The paths that a step may ask about: those of the declaration and of the sources that do not lead
out. -/
def MayAsk (name : RepoName) (store : RepoStore) (call : SnapshotCall) (path : String) : Prop :=
  path = declarationPath (store.directoryOf name) ∨
    ∃ d, call.declaration? name store = some d ∧
      ∃ s ∈ d.sources, sourcePath? (store.directoryOf name) s = some path

/-- **What a step asks.**  If the name is not proper, nothing. -/
theorem Guarded.onlyAsks (hcall : call.Guarded (store.directoryOf name) name) :
    (call.inquiry name store).OnlyAsks fun path =>
      name.isProper = true ∧ call.MayAsk name store path := by
  have hstamps : ∀ d : Declaration, name.isProper = true → call.declaration? name store = some d →
      (RepoStore.stampInquiry (store.directoryOf name) d).OnlyAsks fun path =>
        name.isProper = true ∧ call.MayAsk name store path := by
    intro d hproper hd
    refine ⟨⟨hproper, .inl rfl⟩, fun _ => Inquiry.onlyAsks_map_iff.2 ?_⟩
    refine (RepoStore.onlyAsks_sourceStamps _ d.sources).mono ?_
    exact fun path hpath => ⟨hproper, .inr ⟨d, hd, hpath⟩⟩
  cases call with
  | resolve =>
      rw [inquiry]
      split
      · next hproper => exact ⟨⟨hproper, .inl rfl⟩, fun _ => trivial⟩
      · trivial
  | check d =>
      obtain ⟨hproper, rfl⟩ := hcall
      rw [inquiry]
      split
      · trivial
      · next stored hstored =>
          refine Inquiry.onlyAsks_map_iff.2 (hstamps _ hproper ?_)
          rw [declaration?, hstored, Option.map_some]
  | readDeclaration d =>
      obtain ⟨hproper, rfl⟩ := hcall
      refine ⟨⟨hproper, .inl rfl⟩, fun answer => ?_⟩
      dsimp only
      split <;> trivial
  | readSources d l =>
      obtain ⟨hproper, rfl, hkeeps⟩ := hcall
      rw [inquiry]
      split
      · trivial
      · next s rest hpending =>
          split
          · trivial
          · next path hpath =>
              have hs := hkeeps.declared s (hpending ▸ List.mem_cons_self)
              exact ⟨⟨hproper, .inr ⟨_, rfl, s, hs, hpath⟩⟩, fun _ => trivial⟩
  | takeStamps d s =>
      obtain ⟨hproper, rfl, _⟩ := hcall
      exact Inquiry.onlyAsks_map_iff.2 (hstamps _ hproper rfl)
  | insert stamps s => trivial
  | done outcome => trivial

end SnapshotCall

namespace SharedStore

variable {names : Nat → RepoName} {root : String} {store : RepoStore} {calls : Nat → SnapshotCall}

/-- What a store and the calls that share it can come to if the file system may answer anything; call
number `i` is for the repository `names i`. -/
inductive Reachable (names : Nat → RepoName) (root : String) :
    RepoStore → (Nat → SnapshotCall) → Prop where
  | start : Reachable names root (.ofRoot root) fun _ => .resolve
  | step {store store' : RepoStore} {calls : Nat → SnapshotCall} {next : SnapshotCall} (i : Nat)
      (before : Reachable names root store calls)
      (yields : ((calls i).inquiry (names i) store).CanYield (store', next)) :
      Reachable names root store' (Function.update calls i next)

/-- Calls that interleave with writes come to nothing else. -/
theorem reachable_run {w : SharedStore} (h : Reachable names root w.store w.call)
    (events : List SharedEvent) :
    Reachable names root (w.run names events).store (w.run names events).call := by
  induction events generalizing w with
  | nil => exact h
  | cons event rest ih =>
      cases event with
      | change c => exact ih (w := w.next names (.change c)) h
      | step i =>
          have hyields := Inquiry.canYield_on w.tree ((w.call i).inquiry (names i) w.store)
          rw [SnapshotCall.inquiry_on] at hyields
          exact ih (w := w.next names (.step i)) (h.step i hyields)

/-- Whatever the file system answers, all calls are guarded. -/
theorem guarded_of_reachable (h : Reachable names root store calls) :
    store.root = root ∧ store.KeepsOut ∧
      ∀ i, (calls i).Guarded (store.directoryOf (names i)) (names i) := by
  induction h with
  | start =>
      refine ⟨rfl, ?_, fun _ => trivial⟩
      intro key stored hstored
      simp [RepoStore.ofRoot] at hstored
  | @step store store' calls next i _ hyields ih =>
      obtain ⟨hroot, hkeeps, hcalls⟩ := ih
      obtain ⟨hroot', hkeeps', hnext⟩ := (hcalls i).step hkeeps hyields
      have hdirectory : ∀ name, store'.directoryOf name = store.directoryOf name := by
        intro name
        rw [RepoStore.directoryOf, RepoStore.directoryOf, hroot']
      refine ⟨hroot'.trans hroot, hkeeps', fun j => ?_⟩
      rw [hdirectory]
      by_cases hj : j = i
      · subst hj
        rwa [Function.update_self]
      · rw [Function.update_of_ne hj]
        exact hcalls j

/-- What a call for a repository below a root asks, sees and keeps out. -/
structure Confined (root : String) (name : RepoName) (store : RepoStore) (call : SnapshotCall) :
    Prop where
  /-- The questions of the next step. -/
  questions : ∀ t, (call.inquiry name store).on t = call.step t name store
  enclosed : (call.inquiry name store).OnlyAsks (name.Encloses root)
  opened : (call.inquiry name store).OnlyAsks fun path =>
    path = declarationPath (store.directoryOf name) ∨
      ∃ d, call.declaration? name store = some d ∧
        ∃ s ∈ d.sources, ¬s.LeadsOut ∧ path = Path.join (store.directoryOf name) s.path
  /-- What lies elsewhere has no influence. -/
  blind : ∀ t t' : FileTree,
    (∀ question : FileQuestion, name.Encloses root question.path →
      t.answer question = t'.answer question) →
    call.step t name store = call.step t' name store
  unfit : Path.IsUnfit name.owner ∨ Path.IsUnfit name.repo →
    (∀ t, store.directory? t name = none) ∧ (∃ result, call.inquiry name store = .done result) ∧
      (call = .resolve ∨ call = .done (.error (.source .unknownRepository name.text)))
  /-- A source that leads out is passed over without a question. -/
  passed : ∀ directory l s rest, call = .readSources directory l → l.pending = s :: rest →
    s.LeadsOut → call.inquiry name store =
      .done (store, .readSources directory (l.supply (.error .escapes)))
  kept : ∀ stored, call = .done (.ok stored) → ∀ s ∈ stored.snapshot.declaration.sources,
    s.LeadsOut → stored.snapshot.content s.path =
      .error (.source (.missing stored.snapshot.revision .escapes) s.path)

/-- **Calls stay in their repository.**  Calls for any names below any root take their steps in any order,
and the file system answers as it likes. -/
theorem confined_of_reachable (h : Reachable names root store calls) (i : Nat) :
    Confined root (names i) store (calls i) := by
  obtain ⟨rfl, _, hcalls⟩ := guarded_of_reachable h
  have hguarded := hcalls i
  have henclosed : ((calls i).inquiry (names i) store).OnlyAsks ((names i).Encloses store.root) := by
    refine hguarded.onlyAsks.mono ?_
    rintro path ⟨hproper, rfl | ⟨d, _, s, _, hpath⟩⟩
    · exact RepoStore.encloses_declarationPath hproper
    · exact RepoStore.encloses_sourcePath? hproper hpath
  constructor
  case questions => exact fun t => SnapshotCall.inquiry_on t _ _ _
  case enclosed => exact henclosed
  case opened =>
    refine hguarded.onlyAsks.mono ?_
    rintro path ⟨_, hdeclaration | ⟨d, hd, s, hs, hpath⟩⟩
    · exact .inl hdeclaration
    · exact .inr ⟨d, hd, s, hs, Loading.eq_join_of_sourcePath? hpath⟩
  case blind =>
    intro t t' halike
    rw [← SnapshotCall.inquiry_on, ← SnapshotCall.inquiry_on]
    exact Inquiry.on_eq_of_alike henclosed halike
  case unfit =>
    intro hunfit
    have hproper : (names i).isProper = false := by
      rw [RepoName.isProper, Bool.and_eq_false_iff, Path.isName_eq_false_iff,
        Path.isName_eq_false_iff]
      exact hunfit
    have hnot : (names i).isProper ≠ true := by simp [hproper]
    refine ⟨fun t => by simp [RepoStore.directory?, hproper], ?_⟩
    generalize calls i = call at hguarded
    cases call with
    | resolve => exact ⟨⟨_, by rw [SnapshotCall.inquiry, if_neg hnot]⟩, .inl rfl⟩
    | done outcome =>
        refine ⟨⟨_, rfl⟩, .inr ?_⟩
        cases outcome with
        | ok stored => exact absurd hguarded.1 hnot
        | error failure => rw [hguarded.resolve_left hnot]
    | _ => exact absurd hguarded.1 hnot
  case passed =>
    intro directory l s rest hcall hpending hout
    have hpath := (Source.leadsOut_iff_sourcePath? directory).1 hout
    rw [hcall, SnapshotCall.inquiry, hpending]
    dsimp only
    rw [hpath]
  case kept =>
    intro stored hcall s hs hout
    rw [hcall] at hguarded
    exact hguarded.2.content_eq hs hout

/-- A repository `o/r` whose only source leads out, to a file that is there. -/
def outsideTree : FileTree where
  node? := fun place =>
    [([], .directory 0), (["o"], .directory 0), (["o", "r"], .directory 0),
      (["o", "r", "mcp.yaml"], .file (Utf8.encode "sources: [{path: ../a.xml}]") 0),
      (["o", "a.xml"], .file oneSourceContent 0)].lookup place
  workingDirectory := []
  clock := 0

/-- A call that hands out a snapshot without the source. -/
theorem confined_of_reachable_outside : ∃ store calls stored,
    Reachable (fun _ => ⟨"o", "r"⟩) "" store calls ∧ calls 0 = .done (.ok stored) ∧
      outsideTree.read "o/r/../a.xml" = .ok oneSourceContent ∧
      stored.snapshot.content "../a.xml" =
        .error (.source (.missing stored.snapshot.revision .escapes) "../a.xml") := by
  let w := (start "" outsideTree).run (fun _ => ⟨"o", "r"⟩) (List.replicate 7 (.step 0))
  have hreach : Reachable (fun _ => ⟨"o", "r"⟩) "" w.store w.call := reachable_run .start _
  have hsources : ((w.call 0).outcome?.bind Except.toOption).map
      (·.snapshot.declaration.sources.map Source.path) = some ["../a.xml"] := by
    decide +kernel
  obtain ⟨stored, hoption, hpaths⟩ := Option.map_eq_some_iff.1 hsources
  obtain ⟨outcome, houtcome, hok⟩ := Option.bind_eq_some_iff.1 hoption
  have hdone : w.call 0 = .done (.ok stored) := by
    cases hcall : w.call 0 <;> rw [hcall] at houtcome <;> cases houtcome
    cases outcome <;> cases hok
    rfl
  obtain ⟨s, hs, hpath⟩ := List.mem_map.1 (hpaths ▸ List.mem_singleton_self "../a.xml")
  have hout : s.LeadsOut := by
    rw [Source.LeadsOut, hpath]
    exact .inr (by decide)
  refine ⟨w.store, w.call, stored, hreach, hdone, by decide +kernel, ?_⟩
  rw [← hpath]
  exact (confined_of_reachable hreach 0).kept stored hdone s hs hout

end SharedStore

end RegistryGraph
