import Mathlib.Data.List.Basic
import RegistryGraph.Files.Path
import RegistryGraph.Proofs.Text.Pieces

/-!
# The components of a path

What a path leads through is told by its components: the top for an absolute path, then `..` and names.
Empty segments count for nothing, and a `.` counts only in front of a path that is not absolute.

* `Path.isConfined_iff`: confined paths are those without the top and without `..`.
* `Path.components_join`: what a path leads through behind a base.
* `Path.components_of_isName`: the name of a directory entry is one component.
* `Path.components_confine?`: a confined path leads down from its base.
-/

namespace RegistryGraph

namespace Path

/-- A separator parts the segments. -/
theorem segments_append_separator {path front rest : String}
    (h : path.toList = front.toList ++ separator :: rest.toList) :
    segments path = segments front ++ segments rest := by
  rw [segments, h, Text.pieces_append_separator, List.map_append]
  rfl

/-- Every path has a segment, if only an empty one. -/
theorem segments_ne_nil (path : String) : segments path ≠ [] :=
  mt List.map_eq_nil_iff.1 (Text.pieces_ne_nil _ _)

/-! ## Components -/

/-- What a path leads through. -/
inductive Component where
  | top
  /-- The directory in which a path that is not absolute starts. -/
  | stay
  | up
  | name (s : String)
deriving DecidableEq, Repr

namespace Component

/-- What a segment stands for that is neither empty nor `.`. -/
def ofSegment (segment : String) : Component := if segment = ".." then .up else .name segment

/-- Whether a component leads neither to the top nor up. -/
def IsInner (c : Component) : Prop := c ≠ .top ∧ c ≠ .up

end Component

/-- The segments of a path that lead somewhere. -/
def leading (path : String) : List Component :=
  ((segments path).filter fun s => !isStay s).map .ofSegment

/-- The components of a path. -/
def components (path : String) : List Component :=
  if isAbsolute path then .top :: leading path
  else if (segments path).head? = some "." then .stay :: leading path
  else leading path

/-- The empty path has no components. -/
@[simp] theorem components_empty : components "" = [] := by decide

/-- Only two dots lead up. -/
theorem ofSegment_eq_up_iff {segment : String} : Component.ofSegment segment = .up ↔ segment = ".." := by
  rw [Component.ofSegment]
  split <;> simp_all

/-- A path leads up somewhere exactly if one of its segments is two dots. -/
theorem up_mem_leading_iff {path : String} : .up ∈ leading path ↔ ".." ∈ segments path := by
  rw [leading, List.mem_map]
  constructor
  · rintro ⟨segment, hsegment, heq⟩
    rw [ofSegment_eq_up_iff] at heq
    exact heq ▸ (List.mem_filter.1 hsegment).1
  · intro hmem
    exact ⟨"..", List.mem_filter.2 ⟨hmem, by decide⟩, rfl⟩

/-- A component of a path leads up or is a name. -/
theorem eq_up_or_name_of_mem_leading {path : String} {c : Component} (h : c ∈ leading path) :
    c = .up ∨ ∃ s, c = .name s := by
  obtain ⟨segment, _, rfl⟩ := List.mem_map.1 h
  rw [Component.ofSegment]
  split
  · exact .inl rfl
  · exact .inr ⟨segment, rfl⟩

/-- **Which paths are confined.** -/
theorem isConfined_iff {path : String} :
    isConfined path = true ↔ ∀ c ∈ components path, c.IsInner := by
  have hall : ((segments path).all fun s => s ≠ "..") = true ↔ .up ∉ leading path := by
    rw [up_mem_leading_iff, List.all_eq_true]
    constructor
    · intro h hmem
      exact absurd rfl (of_decide_eq_true (h ".." hmem))
    · intro h s hs
      exact decide_eq_true fun heq => h (heq ▸ hs)
  have hinner : (∀ c ∈ leading path, c.IsInner) ↔ .up ∉ leading path := by
    constructor
    · intro h hup
      exact (h .up hup).2 rfl
    · intro h c hc
      refine ⟨?_, fun heq => h (heq ▸ hc)⟩
      rcases eq_up_or_name_of_mem_leading hc with rfl | ⟨s, rfl⟩ <;> simp
  rw [isConfined, Bool.and_eq_true, hall, ← hinner]
  unfold components
  cases isAbsolute path with
  | true => simp [Component.IsInner]
  | false =>
      simp only [Bool.not_false, true_and, Bool.false_eq_true, if_false]
      split
      · simp [Component.IsInner]
      · rfl

/-! ## Joining -/

section Join

variable {base relative : String}

/-- Behind a base that is not empty comes a separator, and behind the separator the path. -/
theorem exists_toList_join (hbase : base ≠ "") (hrelative : isAbsolute relative = false) :
    ∃ front, (join base relative).toList = front.toList ++ separator :: relative.toList ∧
      (base = front ∨ base.toList = front.toList ++ separator :: "".toList) := by
  have hempty : base.isEmpty = false := by simpa [String.isEmpty_iff] using hbase
  rw [join, if_neg (by simp [hrelative]), hempty, Bool.false_or]
  by_cases hlast : base.toList.getLast? = some separator
  · obtain ⟨front, hfront⟩ := List.getLast?_eq_some_iff.1 hlast
    refine ⟨.ofList front, ?_, .inr (by simpa using hfront)⟩
    rw [if_pos (decide_eq_true hlast), String.toList_append, hfront, String.toList_ofList,
      List.append_assoc, List.singleton_append]
  · refine ⟨base, ?_, .inl rfl⟩
    rw [if_neg (by simpa using hlast), String.toList_append, String.toList_append]
    simp [separator]

/-- A relative path goes on where its base ends. -/
theorem leading_join (hbase : base ≠ "") (hrelative : isAbsolute relative = false) :
    leading (join base relative) = leading base ++ leading relative := by
  obtain ⟨front, hjoin, hfront⟩ := exists_toList_join hbase hrelative
  have hsame : leading base = leading front := by
    rcases hfront with rfl | hfront
    · rfl
    · have hstay : (segments "").filter (fun s => !isStay s) = [] := by decide
      rw [leading, segments_append_separator hfront, List.filter_append, hstay, List.append_nil,
        leading]
  rw [hsame, leading, segments_append_separator hjoin, List.filter_append, List.map_append]
  rfl

/-- A joined path begins as its base does. -/
theorem head?_segments_join (hbase : base ≠ "") (hrelative : isAbsolute relative = false) :
    (segments (join base relative)).head? = (segments base).head? := by
  obtain ⟨front, hjoin, hfront⟩ := exists_toList_join hbase hrelative
  rw [segments_append_separator hjoin, List.head?_append_of_ne_nil _ (segments_ne_nil front)]
  rcases hfront with rfl | hfront
  · rfl
  · rw [segments_append_separator hfront, List.head?_append_of_ne_nil _ (segments_ne_nil front)]

/-- A joined path is absolute exactly if its base is. -/
theorem isAbsolute_join (hbase : base ≠ "") (hrelative : isAbsolute relative = false) :
    isAbsolute (join base relative) = isAbsolute base := by
  have hnil : base.toList ≠ [] := by simpa using hbase
  rw [join, if_neg (by simp [hrelative]), isAbsolute, isAbsolute]
  split
  · rw [String.toList_append, List.head?_append_of_ne_nil _ hnil]
  · rw [String.toList_append, String.toList_append, List.append_assoc,
      List.head?_append_of_ne_nil _ hnil]

/-- **What a path leads through behind a base.**  The `.` in front of it counts no more. -/
theorem components_join (hbase : base ≠ "") (hrelative : isAbsolute relative = false) :
    components (join base relative) = components base ++ leading relative := by
  rw [components, components, isAbsolute_join hbase hrelative, head?_segments_join hbase hrelative,
    leading_join hbase hrelative]
  split
  · rfl
  · split <;> rfl

end Join

/-! ## Names and confined paths -/

/-- What makes a text unfit for the name of a directory entry. -/
def IsUnfit (s : String) : Prop :=
  s = "" ∨ s = "." ∨ s = ".." ∨ ∃ c ∈ s.toList, c = '/' ∨ c = '\\' ∨ c = '\x00'

/-- What is no name is unfit for one. -/
theorem isName_eq_false_iff {s : String} : isName s = false ↔ IsUnfit s := by
  rw [← Bool.not_eq_true, isName, IsUnfit]
  simp only [separator, ne_eq, Bool.and_eq_true, Bool.not_eq_true', String.isEmpty_eq_false_iff,
    List.all_eq_true, decide_not]
  grind

/-- A name is not unfit. -/
theorem not_isUnfit_of_isName {s : String} (h : isName s = true) : ¬IsUnfit s := by
  rw [← isName_eq_false_iff, h]
  exact Bool.noConfusion

/-- A name has no separator in it. -/
theorem separator_not_mem_of_isName {s : String} (h : isName s = true) : separator ∉ s.toList :=
  fun hmem => not_isUnfit_of_isName h (.inr (.inr (.inr ⟨_, hmem, .inl rfl⟩)))

/-- A name is no absolute path. -/
theorem isAbsolute_of_isName {s : String} (h : isName s = true) : isAbsolute s = false := by
  rw [isAbsolute, decide_eq_false_iff_not]
  exact fun hhead => separator_not_mem_of_isName h (List.mem_of_mem_head? hhead)

/-- A name is its only segment. -/
theorem segments_of_isName {s : String} (h : isName s = true) : segments s = [s] := by
  rw [segments, Text.pieces_of_not_mem (separator_not_mem_of_isName h)]
  simp

/-- A name is its only component. -/
theorem leading_of_isName {s : String} (h : isName s = true) : leading s = [.name s] := by
  have hfit := not_isUnfit_of_isName h
  have hempty : s ≠ "" := fun heq => hfit (.inl heq)
  have hdot : s ≠ "." := fun heq => hfit (.inr (.inl heq))
  have hup : s ≠ ".." := fun heq => hfit (.inr (.inr (.inl heq)))
  simp [leading, segments_of_isName h, isStay, hempty, hdot, Component.ofSegment, hup]

/-- **A name is one component.** -/
theorem components_of_isName {s : String} (h : isName s = true) : components s = [.name s] := by
  have hdot : s ≠ "." := fun heq => not_isUnfit_of_isName h (.inr (.inl heq))
  rw [components, isAbsolute_of_isName h, segments_of_isName h, leading_of_isName h]
  simp [hdot]

/-- A name behind a base is one more component. -/
theorem components_join_name (base : String) {s : String} (h : isName s = true) :
    components (join base s) = components base ++ [.name s] := by
  by_cases hbase : base = ""
  · have hjoin : join "" s = s := by simp [join, isAbsolute_of_isName h]
    rw [hbase, hjoin, components_of_isName h]
    rfl
  · rw [components_join hbase (isAbsolute_of_isName h), leading_of_isName h]

/-- What a confined path leads through are names. -/
theorem exists_leading_eq {path : String} (h : isConfined path = true) :
    ∃ names : List String, leading path = names.map .name := by
  rw [isConfined, Bool.and_eq_true, List.all_eq_true] at h
  refine ⟨_, List.map_congr_left fun segment hsegment => if_neg ?_⟩
  exact of_decide_eq_true (h.2 segment (List.mem_filter.1 hsegment).1)

/-- **A confined path leads down from its base.** -/
theorem components_confine? {base relative path : String} (hbase : base ≠ "")
    (h : confine? base relative = some path) :
    ∃ names : List String, components path = components base ++ names.map .name := by
  rw [confine?, Option.ite_none_right_eq_some] at h
  obtain ⟨hconfined, hpath⟩ := h
  obtain rfl := Option.some.inj hpath
  have hrelative : isAbsolute relative = false := by
    rw [isConfined, Bool.and_eq_true, Bool.not_eq_true'] at hconfined
    exact hconfined.1
  obtain ⟨names, hnames⟩ := exists_leading_eq hconfined
  exact ⟨names, by rw [components_join hbase hrelative, hnames]⟩

end Path

end RegistryGraph
