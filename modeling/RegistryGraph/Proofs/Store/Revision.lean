import Mathlib
import RegistryGraph.Declaration.File
import RegistryGraph.Store.Snapshot

/-!
# What a revision identifies

A revision is the digest of the declaration and of the sources, one after the other.  Zero octets stand
between the parts, but nothing keeps a part from holding zero octets itself, and a source that is not at
hand is digested as an empty one.  So the digested octets do not always give the parts away, even if no
two of them have the same digest.

The main statements are `identifies_iff_sizes`, by which two snapshots with one revision have the same
declaration and the same contents just in case the sizes of the parts agree, and
`contents_eq_of_revision_eq`, by which the zero octets do separate contents that hold none.
-/

namespace RegistryGraph

/-! ## Taking concatenations apart -/

/-- Concatenations agree part by part if their parts are of the same sizes. -/
theorem eq_of_flatMap_eq {α β : Type} {f g : α → List β} {xs : List α}
    (h : xs.flatMap f = xs.flatMap g) (hsize : ∀ x ∈ xs, (f x).length = (g x).length) :
    ∀ x ∈ xs, f x = g x := by
  induction xs with
  | nil => intro x hx; cases hx
  | cons x rest ih =>
      rw [List.flatMap_cons, List.flatMap_cons] at h
      obtain ⟨hx, hrest⟩ := List.append_inj h (hsize x List.mem_cons_self)
      rw [List.forall_mem_cons]
      exact ⟨hx, ih hrest fun y hy => hsize y (List.mem_cons_of_mem _ hy)⟩

/-- The first separator ends a part without separators. -/
theorem append_cons_inj_of_not_mem {α : Type} {separator : α} {xs ys more more' : List α}
    (h : xs ++ separator :: more = ys ++ separator :: more') (hxs : separator ∉ xs)
    (hys : separator ∉ ys) : xs = ys ∧ more = more' := by
  induction xs generalizing ys with
  | nil =>
      cases ys with
      | nil => exact ⟨rfl, (List.cons.inj h).2⟩
      | cons y rest =>
          obtain ⟨rfl, _⟩ := List.cons.inj h
          exact absurd List.mem_cons_self hys
  | cons x rest ih =>
      cases ys with
      | nil =>
          obtain ⟨rfl, _⟩ := List.cons.inj h
          exact absurd List.mem_cons_self hxs
      | cons y rest' =>
          obtain ⟨rfl, htail⟩ := List.cons.inj h
          obtain ⟨rfl, hmore⟩ := ih htail (fun hx => hxs (List.mem_cons_of_mem _ hx))
            (fun hy => hys (List.mem_cons_of_mem _ hy))
          exact ⟨rfl, hmore⟩

/-- Different digits are written differently. -/
theorem Hex.digit_inj {m n : Nat} (hm : m < 16) (hn : n < 16) (h : digit m = digit n) : m = n := by
  have hvalue := congrArg value? h
  rw [value_digit hm, value_digit hn] at hvalue
  exact Option.some.inj hvalue

/-- Different octets are written differently. -/
theorem Hex.octet_inj {b c : UInt8} (h : octet b = octet c) : b = c := by
  have hb := b.toNat_lt
  have hc := c.toNat_lt
  simp only [octet, List.cons.injEq, and_true] at h
  have hhigh := digit_inj (by omega) (by omega) h.1
  have hlow := digit_inj (by omega) (by omega) h.2
  exact UInt8.toNat_inj.1 (by omega)

/-- Different octet strings are written differently. -/
theorem Hex.flatMap_octet_inj {xs ys : Octets} (h : xs.flatMap octet = ys.flatMap octet) :
    xs = ys := by
  induction xs generalizing ys with
  | nil =>
      cases ys with
      | nil => rfl
      | cons y rest => simp [octet] at h
  | cons x rest ih =>
      cases ys with
      | nil => simp [octet] at h
      | cons y rest' =>
          rw [List.flatMap_cons, List.flatMap_cons] at h
          obtain ⟨hx, hrest⟩ := List.append_inj h rfl
          rw [octet_inj hx, ih hrest]

namespace Snapshot

/-- Equal revisions are equal digests. -/
theorem digest_eq_of_revision_eq {repo repo' : String} {octets octets' : Octets}
    {d d' : Declaration} {files files' : Keyed Octets}
    (h : (ofParts repo octets d files).revision = (ofParts repo' octets' d' files').revision) :
    Sha256.digest (material octets d files) = Sha256.digest (material octets' d' files') :=
  Hex.flatMap_octet_inj (String.ofList_injective h)

/-- Reading the source succeeds in both snapshots with the same content, or fails in both. -/
def ReadsAlike (s s' : Snapshot) (path : String) : Prop :=
  (∃ octets, s.content path = .ok octets ∧ s'.content path = .ok octets) ∨
    (∃ fault fault', s.content path = .error fault ∧ s'.content path = .error fault')

/-- A path that is a file has its octets as content. -/
theorem content_of_some {s : Snapshot} {path : String} {octets : Octets}
    (h : s.files[path]? = some octets) : s.content path = .ok octets := by
  unfold content
  rw [h]

/-- A path that is no file has no content. -/
theorem content_of_none {s : Snapshot} {path : String} (h : s.files[path]? = none) :
    ∃ fault, s.content path = .error fault := by
  unfold content
  rw [h]
  cases s.missing[path]? with
  | none => exact ⟨_, rfl⟩
  | some cause => exact ⟨_, rfl⟩

/-- Only the contents matter to what can be read. -/
theorem readsAlike_iff {s s' : Snapshot} {path : String} :
    s.ReadsAlike s' path ↔ s.files[path]? = s'.files[path]? := by
  cases hs : s.files[path]? with
  | some octets =>
      have hok := content_of_some hs
      cases hs' : s'.files[path]? with
      | some octets' =>
          have hok' := content_of_some hs'
          simp [ReadsAlike, hok, hok', eq_comm]
      | none =>
          obtain ⟨fault', herror'⟩ := content_of_none hs'
          simp [ReadsAlike, hok, herror']
  | none =>
      obtain ⟨fault, herror⟩ := content_of_none hs
      cases hs' : s'.files[path]? with
      | some octets' =>
          have hok' := content_of_some hs'
          simp [ReadsAlike, herror, hok']
      | none =>
          obtain ⟨fault', herror'⟩ := content_of_none hs'
          simp [ReadsAlike, herror, herror']

/-- The size of the content of a source, if that is at hand. -/
def size? (s : Snapshot) (path : String) : Option Nat := s.files[path]?.map List.length

/-- The material of a source is its path, its octets and two separators. -/
theorem sourceMaterial_length (files : Keyed Octets) (s : Source) :
    (sourceMaterial files s).length =
      (Utf8.encode s.path).length + ((files[s.path]?.map List.length).getD 0 + 2) := by
  rw [sourceMaterial, List.length_append, List.length_cons, List.length_append,
    Std.ExtTreeMap.getD_eq_getD_getElem?]
  cases files[s.path]? <;> simp

/-- The same material for one source is the same content or none. -/
theorem getD_eq_of_sourceMaterial_eq {files files' : Keyed Octets} {s : Source}
    (h : sourceMaterial files s = sourceMaterial files' s) :
    files.getD s.path [] = files'.getD s.path [] := by
  have hcontent := List.append_cancel_left h
  exact List.append_cancel_right (List.cons.inj hcontent).2

/-- Checking a declaration keeps its sources. -/
theorem sources_of_checked {d checked : Declaration} {name : String}
    (h : d.checked name = .ok checked) : checked.sources = d.sources := by
  unfold Declaration.checked at h
  split at h
  · cases h
  · split at h
    · cases h
    · cases h
      split <;> rfl

/-- A declaration is read from its octets alone, up to the name of the server. -/
theorem sources_eq_of_load {octets : Octets} {name name' : String} {d d' : Declaration}
    (h : Declaration.load octets name = .ok d) (h' : Declaration.load octets name' = .ok d') :
    d.sources = d'.sources := by
  have hparsed : ∀ {name d}, Declaration.load octets name = .ok d →
      ∃ parsed, Declaration.parse octets = .ok parsed ∧ d.sources = parsed.sources := by
    intro name d hload
    unfold Declaration.load at hload
    split at hload
    · cases hload
    · next parsed hparse =>
        refine ⟨parsed, hparse, ?_⟩
        split at hload
        · next checked hchecked =>
            cases hload
            exact sources_of_checked hchecked
        · cases hload
  obtain ⟨parsed, hparse, hsources⟩ := hparsed h
  obtain ⟨parsed', hparse', hsources'⟩ := hparsed h'
  obtain rfl := Except.ok.inj (hparse.symm.trans hparse')
  rw [hsources, hsources']

/-! ## What equal revisions say -/

variable {repo repo' name name' : String} {octets octets' : Octets} {d d' : Declaration}
  {files files' : Keyed Octets}

/-- Equal material with declarations of one length is the same declaration, and its sources have
contents of the same sizes only if they have the same contents. -/
theorem eq_of_material_eq (hload : Declaration.load octets name = .ok d)
    (hload' : Declaration.load octets' name' = .ok d')
    (h : material octets d files = material octets' d' files')
    (hlength : octets.length = octets'.length)
    (hsize : ∀ s ∈ d.sources, files[s.path]?.map List.length = files'[s.path]?.map List.length) :
    octets = octets' ∧ ∀ s ∈ d.sources, files[s.path]? = files'[s.path]? := by
  obtain ⟨rfl, hrest⟩ := List.append_inj h hlength
  rw [← sources_eq_of_load hload hload'] at hrest
  have hparts : ∀ s ∈ d.sources, sourceMaterial files s = sourceMaterial files' s := by
    refine eq_of_flatMap_eq hrest ?_
    intro s hs
    rw [sourceMaterial_length, sourceMaterial_length, hsize s hs]
  refine ⟨rfl, ?_⟩
  intro s hs
  have hcontent := getD_eq_of_sourceMaterial_eq (hparts s hs)
  have hpresent := hsize s hs
  rw [Std.ExtTreeMap.getD_eq_getD_getElem?, Std.ExtTreeMap.getD_eq_getD_getElem?] at hcontent
  cases hfile : files[s.path]? with
  | some found =>
      cases hfile' : files'[s.path]? with
      | some found' =>
          rw [hfile, hfile'] at hcontent
          exact congrArg some hcontent
      | none =>
          rw [hfile, hfile'] at hpresent
          cases hpresent
  | none =>
      cases hfile' : files'[s.path]? with
      | some found' =>
          rw [hfile, hfile'] at hpresent
          cases hpresent
      | none => rfl

/-- **When a revision identifies what it is the revision of.**  Suppose that the digest tells the
material of two snapshots apart.  If they have one revision, then they have the same declaration and
read alike at every declared path just in case the declarations are of one length and every declared
source is at hand in both with one size, or in neither. -/
theorem identifies_iff_sizes (hload : Declaration.load octets name = .ok d)
    (hload' : Declaration.load octets' name' = .ok d')
    (hdigest : Sha256.digest (material octets d files) =
      Sha256.digest (material octets' d' files') →
        material octets d files = material octets' d' files')
    (hrevision : (ofParts repo octets d files).revision =
      (ofParts repo' octets' d' files').revision) :
    (octets = octets' ∧ ∀ s ∈ d.sources ++ d'.sources,
        (ofParts repo octets d files).ReadsAlike (ofParts repo' octets' d' files') s.path) ↔
      (octets.length = octets'.length ∧ ∀ s ∈ d.sources ++ d'.sources,
        (ofParts repo octets d files).size? s.path =
          (ofParts repo' octets' d' files').size? s.path) := by
  constructor
  · intro h
    obtain ⟨rfl, halike⟩ := h
    refine ⟨rfl, fun s hs => ?_⟩
    rw [size?, size?, readsAlike_iff.1 (halike s hs)]
  · intro h
    obtain ⟨hlength, hsize⟩ := h
    have hmaterial := hdigest (digest_eq_of_revision_eq hrevision)
    obtain ⟨rfl, hcontents⟩ := eq_of_material_eq hload hload' hmaterial hlength
      fun s hs => hsize s (List.mem_append_left _ hs)
    refine ⟨rfl, fun s hs => readsAlike_iff.2 (hcontents s ?_)⟩
    rw [← sources_eq_of_load hload hload', List.mem_append, or_self] at hs
    exact hs

/-- A declaration of one source is loaded. -/
theorem load_oneSource (name : String) :
    Declaration.load (Utf8.encode "sources: [{path: a}]") name =
      .ok ⟨"1.0", ⟨name, "", ""⟩, [⟨"a", "", none, none⟩]⟩ := by
  cbv

/-- One source in two repositories of different names. -/
theorem identifies_renamed :
    ∃ d d', Declaration.load (Utf8.encode "sources: [{path: a}]") "r" = .ok d ∧
      Declaration.load (Utf8.encode "sources: [{path: a}]") "q" = .ok d' ∧ d ≠ d' ∧
      (ofParts "r" (Utf8.encode "sources: [{path: a}]") d (Keyed.ofPairs [("a", [7])])).revision =
        (ofParts "q" (Utf8.encode "sources: [{path: a}]") d'
          (Keyed.ofPairs [("a", [7])])).revision ∧
      ∀ s ∈ d.sources ++ d'.sources,
        (ofParts "r" (Utf8.encode "sources: [{path: a}]") d
          (Keyed.ofPairs [("a", [7])])).ReadsAlike
            (ofParts "q" (Utf8.encode "sources: [{path: a}]") d' (Keyed.ofPairs [("a", [7])]))
            s.path := by
  have hload := load_oneSource "r"
  have hload' := load_oneSource "q"
  refine ⟨_, _, hload, hload', by decide, rfl, ?_⟩
  exact ((identifies_iff_sizes hload hload' (fun _ => rfl) rfl).2 ⟨rfl, fun _ _ => rfl⟩).2

/-- **An absent source looks like an empty one.**  The digested octets are the same, and so is the
revision, but only the empty source can be read. -/
theorem revision_of_absent_source :
    ∃ d, Declaration.load (Utf8.encode "sources: [{path: a}]") "r" = .ok d ∧
      d.sources.map (·.path) = ["a"] ∧
      material (Utf8.encode "sources: [{path: a}]") d ∅ =
        material (Utf8.encode "sources: [{path: a}]") d (Keyed.ofPairs [("a", [])]) ∧
      (ofParts "r" (Utf8.encode "sources: [{path: a}]") d ∅).revision =
        (ofParts "r" (Utf8.encode "sources: [{path: a}]") d (Keyed.ofPairs [("a", [])])).revision ∧
      ¬(ofParts "r" (Utf8.encode "sources: [{path: a}]") d ∅).ReadsAlike
        (ofParts "r" (Utf8.encode "sources: [{path: a}]") d (Keyed.ofPairs [("a", [])])) "a" := by
  have hmaterial : material (Utf8.encode "sources: [{path: a}]")
      ⟨"1.0", ⟨"r", "", ""⟩, [⟨"a", "", none, none⟩]⟩ ∅ =
        material (Utf8.encode "sources: [{path: a}]")
          ⟨"1.0", ⟨"r", "", ""⟩, [⟨"a", "", none, none⟩]⟩ (Keyed.ofPairs [("a", [])]) := by
    cbv
  refine ⟨_, load_oneSource "r", rfl, hmaterial, congrArg Sha256.hex hmaterial, ?_⟩
  intro halike
  have hsame := readsAlike_iff.1 halike
  cases hsame

/-- Contents without zero octets can be read off the material of their sources. -/
theorem getD_eq_of_flatMap_eq {sources : List Source}
    (h : sources.flatMap (sourceMaterial files) = sources.flatMap (sourceMaterial files'))
    (hzero : ∀ s ∈ sources, 0 ∉ files.getD s.path [] ∧ 0 ∉ files'.getD s.path []) :
    ∀ s ∈ sources, files.getD s.path [] = files'.getD s.path [] := by
  induction sources with
  | nil => intro s hs; cases hs
  | cons s rest ih =>
      rw [List.forall_mem_cons] at hzero ⊢
      rw [List.flatMap_cons, List.flatMap_cons, sourceMaterial, sourceMaterial] at h
      simp only [List.append_assoc, List.cons_append, List.append_cancel_left_eq,
        List.cons.injEq, true_and, List.nil_append] at h
      obtain ⟨hcontent, hrest⟩ := append_cons_inj_of_not_mem h hzero.1.1 hzero.1.2
      exact ⟨hcontent, ih hrest hzero.2⟩

/-- **The separators separate contents without zero octets.**  Within one declaration, two snapshots
with one revision then have the same contents, except that a source that is not at hand is not told
from an empty one. -/
theorem contents_eq_of_revision_eq
    (hdigest : Sha256.digest (material octets d files) = Sha256.digest (material octets d files') →
      material octets d files = material octets d files')
    (hrevision : (ofParts repo octets d files).revision =
      (ofParts repo' octets d files').revision)
    (hzero : ∀ s ∈ d.sources, 0 ∉ files.getD s.path [] ∧ 0 ∉ files'.getD s.path []) :
    ∀ s ∈ d.sources, files.getD s.path [] = files'.getD s.path [] := by
  have hmaterial := hdigest (digest_eq_of_revision_eq hrevision)
  exact getD_eq_of_flatMap_eq (List.append_cancel_left hmaterial) hzero

end Snapshot

end RegistryGraph
