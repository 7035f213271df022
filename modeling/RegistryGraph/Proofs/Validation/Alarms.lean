import RegistryGraph.Proofs.Index.Elements
import RegistryGraph.Proofs.Validation

/-!
# No false alarm

The check for well-formedness counts the open elements, the builder keeps a frame for each of them.  They take
the same events and ask different things of them, but whatever the builder takes the check takes as well, and
then the count is the number of frames.  So the check has one complaint only about a document that has an
index: that there is no element in it.

* `WellFormed.run_of_builder`: the check goes along with the builder.
* `ValidationReport.error_of_build`: what a report says about a document that has an index.
* `ValidationReport.no_false_alarm`: what the two have in common, event by event and at the end.
-/

namespace RegistryGraph

/-- A document with at least one element, as far as it can be read. -/
def Xml.HasElement (octets : Octets) : Prop :=
  ∃ e ∈ (Reading.ofOctets octets).bareEvents, e.makesElement = true

instance (octets : Octets) : Decidable (Xml.HasElement octets) :=
  inferInstanceAs (Decidable (∃ e ∈ (Xml.Reading.ofOctets octets).bareEvents, _))

namespace WellFormed

open Xml (Event Occurrence)

/-- **The check goes along with the builder.**  Behind the same number of open elements it takes what the
builder takes, and has as many elements open in the end. -/
theorem run_of_builder {b b' : IndexBuilder} {s : State} {occurrences : List Occurrence} {depth : Nat}
    (hopen : s.depth = b.stack.length)
    (hdepth : Xml.depthAfter? s.depth (occurrences.map (·.event)) = some depth)
    (h : b.run occurrences = .ok b') :
    run s occurrences = .ok ⟨b'.stack.length, s.seenRoot || occurrences.any (·.event.makesElement)⟩ := by
  have hafter := IndexBuilder.run_eq_ok_iff.1 h
  have hdecodes : ∀ e ∈ occurrences.map (·.event), e.Decodes :=
    (IndexBuilder.exists_after?_iff b _).1 ⟨b', hafter⟩
  have hform : ∀ o ∈ occurrences, o.event.InForm := fun o ho =>
    ((Event.decodes_iff _).1 (hdecodes _ (List.mem_map_of_mem ho))).1
  have hframes : b'.stack.length = depth := IndexBuilder.stack_length_after? hafter (hopen ▸ hdepth)
  rw [hframes]
  exact (run_eq_ok_iff hdepth).2 ⟨hform, rfl⟩

/-- What the check says about a document that it has read to its end with nothing left open. -/
theorem check_of_run {octets : Octets} {s : State}
    (hrun : run ⟨0, false⟩ (Xml.Reading.ofOctets octets).events = .ok s)
    (hcomplete : (Xml.Reading.ofOctets octets).IsComplete) (hclosed : s.depth = 0) :
    check octets = if s.seenRoot then .ok () else .error .noRoot := by
  obtain ⟨position, hending⟩ := hcomplete
  unfold check
  dsimp only
  rw [hrun]
  dsimp only
  rw [hending]
  dsimp only
  rw [if_neg (Nat.not_lt.2 hclosed.le)]

end WellFormed

namespace IndexBuilder

variable {octets : Octets} {sourceFile revision : String}

/-- A builder that has taken the first events of a document, and the check at the same place. -/
theorem check_along {b : IndexBuilder} {seen more : List Xml.Occurrence}
    (hevents : (Xml.Reading.ofOctets octets).events = seen ++ more)
    (h : (start sourceFile revision).run seen = .ok b) :
    WellFormed.run ⟨0, false⟩ seen = .ok ⟨b.stack.length, seen.any (·.event.makesElement)⟩ := by
  obtain ⟨_, hdepth⟩ := exists_depthAfter?_of_append hevents
  exact WellFormed.run_of_builder rfl hdepth h

end IndexBuilder

namespace ValidationReport

variable {octets : Octets} {path file revision : String} {index : EntityIndex}

/-- **What a report says about a document that has an index**: nothing, or that there is no element. -/
theorem error_of_build (h : EntityIndex.build octets file revision = .ok index) :
    (ofOctets octets path).error = if Xml.HasElement octets then none else some .noRoot := by
  obtain ⟨hcomplete, b, hafter, hstack, _⟩ := IndexBuilder.build_eq_ok_iff_after?.1 h
  have hrun := IndexBuilder.check_along (List.append_nil _).symm (IndexBuilder.run_eq_ok_iff.2 hafter)
  have hcheck := WellFormed.check_of_run hrun hcomplete (congrArg List.length hstack)
  have hroot : (Xml.Reading.ofOctets octets).events.any (·.event.makesElement) = true ↔
      Xml.HasElement octets := by
    rw [Xml.HasElement, ← List.any_eq_true, Xml.Reading.bareEvents, List.any_map]
    rfl
  unfold ofOctets
  dsimp only
  rw [hcheck]
  by_cases helement : Xml.HasElement octets
  · rw [if_pos (hroot.2 helement), if_pos helement]
  · rw [if_neg (mt hroot.1 helement), if_neg helement]

/-- Without an index there are no stats. -/
theorem stats_eq_zero (h : ∀ index, EntityIndex.build octets path "" ≠ .ok index) :
    (ofOctets octets path).stats = .zero := by
  unfold ofOctets
  dsimp only
  cases hbuild : EntityIndex.build octets path "" with
  | ok index => exact absurd hbuild (h index)
  | error e => rfl

/-- **No false alarm.**  A document that has an index is reported without an error, unless there is no
element in it; any other error comes with the stats of nothing.  Whatever the builder has taken of a document,
the check has taken too, and counts as many open elements as the builder has frames. -/
theorem no_false_alarm (octets : Octets) (path : String) :
    (∀ file revision index, EntityIndex.build octets file revision = .ok index →
      (ofOctets octets path).error = if Xml.HasElement octets then none else some .noRoot) ∧
    (∀ e, (ofOctets octets path).error = some e → e ≠ .noRoot →
      (ofOctets octets path).stats = .zero) ∧
    ∀ file revision seen more b, (Xml.Reading.ofOctets octets).events = seen ++ more →
      (IndexBuilder.start file revision).run seen = .ok b →
      ∃ s, WellFormed.run ⟨0, false⟩ seen = .ok s ∧ s.depth = b.stack.length ∧
        (s.depth = 0 ↔ b.stack = []) := by
  refine ⟨fun file revision index h => error_of_build h, ?_, ?_⟩
  · intro e he hother
    refine stats_eq_zero fun index hbuild => ?_
    rw [error_of_build hbuild] at he
    split at he
    · cases he
    · exact hother (Option.some.inj he).symm
  · intro file revision seen more b hevents hrun
    exact ⟨_, IndexBuilder.check_along hevents hrun, rfl, List.length_eq_zero_iff⟩

/-- A document with an index, one without an element, and one that ends too early. -/
theorem no_false_alarm_three :
    (∃ index, EntityIndex.build (Utf8.encode "<r><a code='1'>x</a></r>") "f" "v" = .ok index ∧
      (ofOctets (Utf8.encode "<r><a code='1'>x</a></r>") "a.xml").error = none) ∧
    (∃ index, EntityIndex.build (Utf8.encode " ") "f" "v" = .ok index ∧
      (ofOctets (Utf8.encode " ") "a.xml").error = some .noRoot) ∧
    (ofOctets (Utf8.encode "<r><a code='1'/>") "a.xml").error = some (.unclosed 1 16) ∧
      (ofOctets (Utf8.encode "<r><a code='1'/>") "a.xml").stats = .zero := by
  have hfull : (EntityIndex.build (Utf8.encode "<r><a code='1'>x</a></r>") "f" "v").toOption.map
      (·.sortedIds) = some ["a:1"] := by
    decide +kernel
  have hblank : (EntityIndex.build (Utf8.encode " ") "f" "v").toOption.map (·.sortedIds) =
      some [] := by
    decide +kernel
  have hopen : (ofOctets (Utf8.encode "<r><a code='1'/>") "a.xml").error = some (.unclosed 1 16) := by
    decide +kernel
  obtain ⟨index, hindex, _⟩ := EntityIndex.exists_build_of_map hfull
  obtain ⟨index', hindex', _⟩ := EntityIndex.exists_build_of_map hblank
  have hnone := (no_false_alarm _ "a.xml").1 _ _ index hindex
  have hnoRoot := (no_false_alarm _ "a.xml").1 _ _ index' hindex'
  rw [if_pos (by decide +kernel)] at hnone
  rw [if_neg (by decide +kernel)] at hnoRoot
  exact ⟨⟨index, hindex, hnone⟩, ⟨index', hindex', hnoRoot⟩, hopen,
    (no_false_alarm _ "a.xml").2.1 _ hopen (by simp)⟩

end ValidationReport

end RegistryGraph
