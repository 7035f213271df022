import Mathlib.Data.List.Basic
import RegistryGraph.Proofs.Files.Changes
import RegistryGraph.Proofs.Store.Revision
import RegistryGraph.Store.RepoStore

/-!
# What a snapshot depends on

Loading on a tree that does not change is reading each source from that tree, and what is loaded depends
on the tree only through the contents of the declaration and of the declared sources.

* `Snapshot.load_on`: loading in one piece is loading source by source.
* `Snapshot.load_alike`: trees that read alike give snapshots that agree.
-/

namespace RegistryGraph

/-- Two snapshots have one declaration and one revision, and read alike at every declared path. -/
structure Snapshot.Agrees (s s' : Snapshot) : Prop where
  declaration_eq : s.declaration = s'.declaration
  revision_eq : s.revision = s'.revision
  readsAlike : ∀ source ∈ s.declaration.sources, s.ReadsAlike s' source.path

namespace Snapshot

/-- A snapshot agrees with itself. -/
theorem Agrees.refl (s : Snapshot) : s.Agrees s :=
  ⟨rfl, rfl, fun _ _ => readsAlike_iff.2 rfl⟩

/-- Agreement passes on from one snapshot to the next. -/
theorem Agrees.trans {s s' s'' : Snapshot} (h : s.Agrees s') (h' : s'.Agrees s'') :
    s.Agrees s'' where
  declaration_eq := h.declaration_eq.trans h'.declaration_eq
  revision_eq := h.revision_eq.trans h'.revision_eq
  readsAlike := fun source hsource =>
    readsAlike_iff.2 ((readsAlike_iff.1 (h.readsAlike source hsource)).trans
      (readsAlike_iff.1 (h'.readsAlike source (h.declaration_eq ▸ hsource))))

end Snapshot

namespace Loading

/-- Reads the next sources, each from a tree of its own. -/
def readFrom (directory : String) (l : Loading) (trees : List FileTree) : Loading :=
  trees.foldl (fun l t => l.advance t directory) l

/-- A step supplies what the tree answers about the next source. -/
theorem advance_of_pending {l : Loading} {s : Source} {rest : List Source}
    (h : l.pending = s :: rest) (t : FileTree) (directory : String) :
    l.advance t directory = l.supply (contentOn t directory s) := by
  rw [advance, h]

/-- Reading all sources on a tree that does not change is reading each of them from it. -/
theorem readAll_on (t : FileTree) (directory : String) (sources : List Source) (l : Loading)
    (h : l.pending = sources) :
    (l.readAll directory sources).on t =
      (l.readFrom directory (List.replicate sources.length t)).finish := by
  induction sources generalizing l with
  | nil => rfl
  | cons s rest ih =>
      have hnext : ∀ answer, (l.supply answer).pending = rest := by
        intro answer
        rw [supply_pending, h, List.tail_cons]
      rw [List.length_cons, List.replicate_succ, readFrom, List.foldl_cons,
        advance_of_pending h t directory, readAll, contentOn]
      cases sourcePath? directory s with
      | none => exact ih _ (hnext _)
      | some path => exact ih _ (hnext _)

/-- A loading has what the declaration says about it. -/
theorem pending_of_start {directory repo : String} {answer : Except FileFault Octets} {l : Loading}
    (h : start directory repo answer = .ok l) : l.pending = l.declaration.sources := by
  unfold start at h
  split at h
  · cases h
  · split at h
    · cases h
    · cases h
      rfl

/-- A step keeps the declaration. -/
theorem declaration_advance (l : Loading) (t : FileTree) (directory : String) :
    (l.advance t directory).declaration = l.declaration := by
  unfold advance
  split
  · rfl
  · unfold supply
    split
    · rfl
    · split <;> rfl

/-- Reading keeps the declaration. -/
theorem declaration_readFrom (directory : String) (l : Loading) (trees : List FileTree) :
    (l.readFrom directory trees).declaration = l.declaration := by
  induction trees generalizing l with
  | nil => rfl
  | cons t rest ih => exact (ih _).trans (declaration_advance l t directory)

/-- Reading goes on with one more tree. -/
theorem readFrom_concat (directory : String) (l : Loading) (trees : List FileTree) (t : FileTree) :
    l.readFrom directory (trees ++ [t]) = (l.readFrom directory trees).advance t directory := by
  rw [readFrom, List.foldl_append]
  rfl

/-- A tree with the same declaration begins the same loading. -/
theorem start_alike {directory repo : String} {t t' : FileTree} {l : Loading}
    (h : start directory repo (t.read (declarationPath directory)) = .ok l)
    (halike : t.ReadsAlike t' (declarationPath directory)) :
    start directory repo (t'.read (declarationPath directory)) = .ok l := by
  cases hread : t.read (declarationPath directory) with
  | error fault => rw [hread] at h; cases h
  | ok octets => rwa [halike.read_eq hread, ← hread]

/-- Two loadings are equal up to the reasons why sources have no content. -/
structure Matches (l l' : Loading) : Prop where
  octets_eq : l.declarationOctets = l'.declarationOctets
  declaration_eq : l.declaration = l'.declaration
  files_eq : l.files = l'.files
  pending_eq : l.pending = l'.pending

/-- Loadings that match finish with snapshots that agree. -/
theorem Matches.finish {l l' : Loading} (h : l.Matches l') : l.finish.Agrees l'.finish where
  declaration_eq := h.declaration_eq
  revision_eq := by
    simp only [Loading.finish, Snapshot.make, h.octets_eq, h.declaration_eq, h.files_eq]
  readsAlike := fun source _ => Snapshot.readsAlike_iff.2 (by
    simp only [Loading.finish, Snapshot.make, h.files_eq])

/-- Answers that agree keep loadings matching. -/
theorem Matches.supply {l l' : Loading} (h : l.Matches l')
    {answer answer' : Except MissingSource Octets} (hanswer : answer.toOption = answer'.toOption) :
    (l.supply answer).Matches (l'.supply answer') := by
  unfold Loading.supply
  rw [← h.pending_eq]
  cases l.pending with
  | nil => exact h
  | cons s rest =>
      cases answer with
      | error cause =>
          cases answer' with
          | error cause' => exact ⟨h.octets_eq, h.declaration_eq, h.files_eq, rfl⟩
          | ok octets' => cases hanswer
      | ok octets =>
          cases answer' with
          | error cause' => cases hanswer
          | ok octets' =>
              obtain rfl := Option.some.inj hanswer
              exact ⟨h.octets_eq, h.declaration_eq, by simp only [h.files_eq], rfl⟩

/-- Naming a fault otherwise does not change what is there. -/
theorem toOption_mapError {α ε ε' : Type} (f : ε → ε') (outcome : Except ε α) :
    (outcome.mapError f).toOption = outcome.toOption := by
  cases outcome <;> rfl

/-- Trees that read alike at the path of a source have the same content for it. -/
theorem contentOn_alike {t t' : FileTree} {directory : String} {s : Source}
    (h : ∀ path, sourcePath? directory s = some path → t.ReadsAlike t' path) :
    (contentOn t directory s).toOption = (contentOn t' directory s).toOption := by
  unfold contentOn
  cases hpath : sourcePath? directory s with
  | none => rfl
  | some path =>
      change ((t.read path).mapError _).toOption = ((t'.read path).mapError _).toOption
      rw [toOption_mapError, toOption_mapError]
      exact h path hpath

/-- The next source is the only one that is read. -/
theorem Matches.advance {l l' : Loading} (h : l.Matches l') {t t' : FileTree} {directory : String}
    (halike : ∀ s rest, l.pending = s :: rest → ∀ path, sourcePath? directory s = some path →
      t.ReadsAlike t' path) :
    (l.advance t directory).Matches (l'.advance t' directory) := by
  cases hpending : l.pending with
  | nil =>
      have hpending' : l'.pending = [] := h.pending_eq ▸ hpending
      rwa [Loading.advance, Loading.advance, hpending, hpending']
  | cons s rest =>
      have hpending' : l'.pending = s :: rest := h.pending_eq ▸ hpending
      rw [advance_of_pending hpending, advance_of_pending hpending']
      exact h.supply (contentOn_alike (halike s rest hpending))

/-- Reading from trees that read like one tree is reading from that tree. -/
theorem Matches.readFrom {l l' : Loading} (h : l.Matches l') {trees : List FileTree}
    {t' : FileTree} {directory : String}
    (halike : ∀ t ∈ trees, ∀ s ∈ l.pending, ∀ path, sourcePath? directory s = some path →
      t.ReadsAlike t' path) :
    (l.readFrom directory trees).Matches
      (l'.readFrom directory (List.replicate trees.length t')) := by
  induction trees generalizing l l' with
  | nil => exact h
  | cons t rest ih =>
      rw [List.forall_mem_cons] at halike
      refine ih (h.advance fun s _ hpending => halike.1 s (hpending ▸ List.mem_cons_self)) ?_
      intro t ht s hs
      rw [advance_pending] at hs
      exact halike.2 t ht s (List.mem_of_mem_tail hs)

end Loading

namespace Snapshot

/-- What is loaded on a tree that does not change. -/
theorem load_on (directory repo : String) (t : FileTree) :
    (load directory repo).on t =
      (Loading.start directory repo (t.read (Loading.declarationPath directory))).map fun l =>
        (l.readFrom directory (List.replicate l.pending.length t)).finish := by
  rw [load, Reading.on]
  cases Loading.start directory repo (t.read (Loading.declarationPath directory)) with
  | error failure => rfl
  | ok l => rw [Reading.on_map, Loading.readAll_on t directory l.pending l rfl]; rfl

/-- The snapshot agrees with what is loaded on the tree. -/
def AgreesOn (s : Snapshot) (directory repo : String) (t : FileTree) : Prop :=
  ∃ s', (load directory repo).on t = .ok s' ∧ s.Agrees s'

/-- **Loading depends on the contents only.**  A tree that reads like another one at the paths of the
repository gives a snapshot that agrees with that of the other. -/
theorem load_alike {directory repo : String} {t t' : FileTree} {s : Snapshot}
    (h : (load directory repo).on t = .ok s)
    (hdeclaration : t.ReadsAlike t' (Loading.declarationPath directory))
    (hsources : ∀ source ∈ s.declaration.sources, ∀ path,
      Loading.sourcePath? directory source = some path → t.ReadsAlike t' path) :
    s.AgreesOn directory repo t' := by
  rw [load_on] at h
  cases hstart : Loading.start directory repo (t.read (Loading.declarationPath directory)) with
  | error failure => rw [hstart] at h; cases h
  | ok l =>
      rw [hstart] at h
      obtain rfl : _ = s := Except.ok.inj h
      rw [AgreesOn, load_on, Loading.start_alike hstart hdeclaration]
      have hmatches : (l.readFrom directory (List.replicate l.pending.length t)).Matches
          (l.readFrom directory
            (List.replicate (List.replicate l.pending.length t).length t')) := by
        refine Loading.Matches.readFrom ⟨rfl, rfl, rfl, rfl⟩ ?_
        intro t₀ ht₀ source hsource
        rw [List.eq_of_mem_replicate ht₀]
        refine hsources source ?_
        rw [Loading.pending_of_start hstart] at hsource
        simpa only [Loading.finish, Snapshot.make, Loading.declaration_readFrom] using hsource
      rw [List.length_replicate] at hmatches
      exact ⟨_, rfl, hmatches.finish⟩

end Snapshot

end RegistryGraph
