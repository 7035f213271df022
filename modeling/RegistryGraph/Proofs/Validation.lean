import RegistryGraph.Cli.Program
import RegistryGraph.Proofs.Index.Simulation

/-!
# Which valid documents have an index

The check for well-formedness and the builder take the same events, but they do not ask the same of them.
Both want tags without faults and character data whose references resolve; only the builder resolves
the references in attribute values.  So a document with a broken reference in such a value passes the
check and has no index.

The main statements are `check_eq_ok_iff`, which says what is checked, and
`report_serves_iff`: a document that is reported valid has an index just in case its attributes decode,
and in every other case, whether valid or not, the program comes to a verdict on it.
-/

namespace RegistryGraph

namespace Xml

/-! ## What is asked of an event -/

/-- An event that is in order as far as the check for well-formedness looks. -/
def Event.InForm : Event → Prop
  | .start tag | .empty tag => tag.attributes.fault = none
  | .text raw => ∃ chunk, Reference.decode raw = .ok chunk
  | .close | .cdata _ => True

/-- An event whose attribute values decode, those of namespace declarations left out. -/
def Event.ValuesDecode : Event → Prop
  | .start tag | .empty tag =>
    ∀ a ∈ tag.attributes.list, a.isNamespace = false → (Reference.decode a.value).isOk
  | .text _ | .close | .cdata _ => True

instance : DecidablePred Event.ValuesDecode
  | .start tag | .empty tag => inferInstanceAs (Decidable (∀ a ∈ tag.attributes.list, _))
  | .text _ | .close | .cdata _ => .isTrue trivial

/-- Whether an event makes an element. -/
def Event.makesElement : Event → Bool
  | .start _ | .empty _ => true
  | .text _ | .close | .cdata _ => false

/-- A document whose attribute values decode, as far as it can be read. -/
def AttributesDecode (octets : Octets) : Prop :=
  ∀ e ∈ (Reading.ofOctets octets).bareEvents, e.ValuesDecode

instance (octets : Octets) : Decidable (AttributesDecode octets) :=
  inferInstanceAs (Decidable (∀ e ∈ (Reading.ofOctets octets).bareEvents, e.ValuesDecode))

/-- A list has a related one exactly if each of its elements has a partner. -/
theorem exists_forall₂_iff {α β : Type} {R : α → β → Prop} {xs : List α} :
    (∃ ys, List.Forall₂ R xs ys) ↔ ∀ x ∈ xs, ∃ y, R x y := by
  induction xs with
  | nil => simp
  | cons x rest ih =>
      rw [List.forall_mem_cons, ← ih]
      constructor
      · intro hgiven
        obtain ⟨ys, h⟩ := hgiven
        obtain ⟨y, more, hx, hrest, rfl⟩ := List.forall₂_cons_left_iff.1 h
        exact ⟨⟨y, hx⟩, more, hrest⟩
      · intro h
        obtain ⟨⟨y, hx⟩, more, hrest⟩ := h
        exact ⟨y :: more, .cons hx hrest⟩

/-- A tag shows something exactly if its attributes split and their values unescape. -/
theorem Tag.exists_shows_iff {tag : Tag} :
    (∃ pairs, tag.Shows pairs) ↔ tag.attributes.fault = none ∧
      ∀ a ∈ tag.attributes.list, a.isNamespace = false → (Reference.decode a.value).isOk := by
  have hvalues : (∃ pairs, List.Forall₂
      (fun (a : Attribute) (p : AttributePair) =>
        localName a.key = p.1 ∧ Reference.decode a.value = .ok p.2)
      (tag.attributes.list.filter (!·.isNamespace)) pairs) ↔
        ∀ a ∈ tag.attributes.list, a.isNamespace = false → (Reference.decode a.value).isOk := by
    rw [exists_forall₂_iff]
    simp only [List.mem_filter, Bool.not_eq_true', and_imp, Prod.exists]
    constructor
    · intro h a ha hplain
      obtain ⟨_, value, _, hvalue⟩ := h a ha hplain
      rw [hvalue]
      rfl
    · intro h a ha hplain
      cases hvalue : Reference.decode a.value with
      | error fault =>
          have hok := h a ha hplain
          rw [hvalue] at hok
          cases hok
      | ok value => exact ⟨localName a.key, value, rfl, rfl⟩
  rw [← hvalues]
  constructor
  · intro h
    obtain ⟨pairs, hfault, hdecoded⟩ := h
    exact ⟨hfault, pairs, hdecoded⟩
  · intro h
    obtain ⟨hfault, pairs, hdecoded⟩ := h
    exact ⟨pairs, hfault, hdecoded⟩

/-- The builder asks for more than the check. -/
theorem Event.decodes_iff (e : Event) : e.Decodes ↔ e.InForm ∧ e.ValuesDecode := by
  cases e with
  | start tag | empty tag => exact Tag.exists_shows_iff
  | text raw => exact (and_iff_left trivial).symm
  | close | cdata raw => exact (and_iff_left trivial).symm

end Xml

namespace WellFormed

open Xml (Event Occurrence)

/-! ## Runs of the check -/

/-- One event is accepted if it is in form; depth and root are then counted. -/
theorem step_eq_ok_iff {s s' : State} {o : Occurrence} {depth : Nat}
    (hdepth : o.event.depthAfter? s.depth = some depth) :
    step s o = .ok s' ↔
      o.event.InForm ∧ s' = ⟨depth, s.seenRoot || o.event.makesElement⟩ := by
  rcases o with ⟨event, position⟩
  cases event with
  | start tag | empty tag =>
      obtain rfl := Option.some.inj hdepth
      simp only [step, Event.InForm, Event.makesElement, Bool.or_true]
      cases tag.attributes.fault with
      | none => simp [eq_comm]
      | some fault => simp
  | close =>
      simp only [Event.depthAfter?] at hdepth
      split at hdepth
      · cases hdepth
      · obtain rfl := Option.some.inj hdepth
        simp [step, Event.InForm, Event.makesElement, eq_comm]
  | text raw =>
      obtain rfl := Option.some.inj hdepth
      simp only [step, Event.InForm, Event.makesElement, Bool.or_false]
      cases Xml.Reference.decode raw with
      | error fault => simp
      | ok chunk =>
          constructor
          · intro h
            cases h
            exact ⟨⟨chunk, rfl⟩, rfl⟩
          · intro h
            obtain ⟨_, rfl⟩ := h
            rfl
  | cdata raw =>
      obtain rfl := Option.some.inj hdepth
      simp only [step, Event.InForm, Event.makesElement, Bool.or_false, true_and]
      constructor
      · intro h
        cases h
        rfl
      · intro heq
        obtain rfl := heq
        rfl

/-- Events are accepted if all are in form; depth and root are then counted. -/
theorem run_eq_ok_iff {s s' : State} {occurrences : List Occurrence} {depth : Nat}
    (hdepth : Xml.depthAfter? s.depth (occurrences.map (·.event)) = some depth) :
    run s occurrences = .ok s' ↔
      (∀ o ∈ occurrences, o.event.InForm) ∧
        s' = ⟨depth, s.seenRoot || occurrences.any (·.event.makesElement)⟩ := by
  induction occurrences generalizing s with
  | nil =>
      obtain rfl := Option.some.inj hdepth
      simp [run, eq_comm]
  | cons o rest ih =>
      rw [List.map_cons, Xml.depthAfter?] at hdepth
      obtain ⟨next, hnext, hrest⟩ := Option.bind_eq_some_iff.1 hdepth
      rw [run, List.forall_mem_cons, List.any_cons, ← Bool.or_assoc]
      by_cases hform : o.event.InForm
      · have hstep := (step_eq_ok_iff hnext).2 ⟨hform, rfl⟩
        rw [hstep]
        dsimp only
        rw [ih hrest, and_iff_right hform]
      · have hstep : ∀ s₁, step s o ≠ .ok s₁ := fun s₁ h => hform ((step_eq_ok_iff hnext).1 h).1
        cases hs : step s o with
        | ok s₁ => exact absurd hs (hstep s₁)
        | error e => simp [hform]

/-- **What is checked.**  A document passes if it is read to its end, is in form, closes what it opens,
and has an element. -/
theorem check_eq_ok_iff (octets : Octets) :
    check octets = .ok () ↔
      (Xml.Reading.ofOctets octets).IsComplete ∧
        (∀ e ∈ (Xml.Reading.ofOctets octets).bareEvents, e.InForm) ∧
          Xml.depthAfter? 0 (Xml.Reading.ofOctets octets).bareEvents = some 0 ∧
            ∃ e ∈ (Xml.Reading.ofOctets octets).bareEvents, e.makesElement = true := by
  obtain ⟨depth, hdepth⟩ := Xml.Reading.depthAfter?_ofOctets octets
  have hrun : ∀ {s}, run ⟨0, false⟩ (Xml.Reading.ofOctets octets).events = .ok s ↔
      (∀ e ∈ (Xml.Reading.ofOctets octets).bareEvents, e.InForm) ∧
        s = ⟨depth, (Xml.Reading.ofOctets octets).bareEvents.any (·.makesElement)⟩ := by
    intro s
    rw [run_eq_ok_iff hdepth, Xml.Reading.bareEvents, List.forall_mem_map, List.any_map,
      Bool.false_or]
    rfl
  rw [hdepth, Option.some.injEq, ← List.any_eq_true]
  constructor
  · intro h
    unfold check at h
    dsimp only at h
    split at h
    · cases h
    · next s hs =>
        obtain ⟨hform, rfl⟩ := hrun.1 hs
        split at h
        · cases h
        · next position hending =>
            split at h
            · cases h
            · next hclosed =>
                split at h
                · next hroot =>
                    exact ⟨⟨position, hending⟩, hform, Nat.eq_zero_of_not_pos hclosed, hroot⟩
                · cases h
  · intro h
    obtain ⟨⟨position, hending⟩, hform, rfl, hroot⟩ := h
    unfold check
    dsimp only
    rw [hrun.2 ⟨hform, rfl⟩]
    dsimp only
    rw [hending]
    dsimp only
    rw [if_neg (Nat.lt_irrefl 0), if_pos hroot]

/-- What is checked is not enough for an index: the attribute values must decode as well. -/
theorem exists_build_iff_of_check {octets : Octets} (h : check octets = .ok ())
    (sourceFile revision : String) :
    (∃ index, EntityIndex.build octets sourceFile revision = .ok index) ↔
      Xml.AttributesDecode octets := by
  obtain ⟨hcomplete, hform, hdepth, _⟩ := (check_eq_ok_iff octets).1 h
  rw [IndexBuilder.exists_build_iff]
  constructor
  · intro h e he
    obtain ⟨_, hdecodes, _⟩ := h
    exact ((Event.decodes_iff e).1 (hdecodes e he)).2
  · intro hvalues
    exact ⟨hcomplete, fun e he => (Event.decodes_iff e).2 ⟨hform e he, hvalues e he⟩, hdepth⟩

end WellFormed

/-! ## What the program says -/

/-- The stats of an index depend on the document only. -/
theorem EntityIndex.stats_of_build {octets : Octets} {file file' revision revision' : String}
    {index index' : EntityIndex} (h : build octets file revision = .ok index)
    (h' : build octets file' revision' = .ok index') : index.stats = index'.stats := by
  obtain ⟨content, hcontent, rfl⟩ := IndexBuilder.exists_hasContent_of_build h
  obtain ⟨content', hcontent', rfl⟩ := IndexBuilder.exists_hasContent_of_build h'
  rw [hcontent.unique hcontent']
  rfl

namespace ValidationReport

/-- A report says valid exactly if the check passes. -/
theorem valid_iff {octets : Octets} {path : String} :
    (ofOctets octets path).valid = true ↔ WellFormed.check octets = .ok () := by
  unfold valid ofOctets
  dsimp only
  cases WellFormed.check octets with
  | ok passed => simp
  | error e => simp

/-- The numbers reported for a document with an index are those of the index. -/
theorem stats_of_build {octets : Octets} {path file revision : String} {index : EntityIndex}
    (h : EntityIndex.build octets file revision = .ok index) :
    (ofOctets octets path).stats = index.stats := by
  obtain ⟨_, hcontent, _⟩ := IndexBuilder.exists_hasContent_of_build h
  have hbuild := IndexBuilder.build_of_hasContent hcontent path ""
  rw [← EntityIndex.stats_of_build hbuild h]
  unfold ofOctets
  dsimp only
  rw [hbuild]

end ValidationReport

namespace Cli

/-- What the program says about a file that it has validated: that the file is valid, or at least one
reason why it is not. -/
inductive Verdict (file : String) : Outcome → Prop
  | valid (entities : Nat) : Verdict file (.success s!"{file}: valid ({entities} entities)\n")
  | invalid (reasons : List String) (some_reason : reasons ≠ []) :
    Verdict file
      ⟨2, s!"{file}: invalid\n" ++ String.join (reasons.map fun reason => s!"  - {reason}\n"), ""⟩

/-- The command validates the octets that the tree has in the file. -/
theorem start_validate_on {tree : FileTree} {file : String} {octets : Octets}
    (hfile : tree.read file = .ok octets) :
    (Command.validate file).start.on tree = finish (validation file octets) := by
  simp [Command.start, onFile, contentOf, Reading.file, Reading.on, hfile, Except.mapError,
    Except.bind]

/-- The command's outcome is its verdict on the problems found. -/
theorem verdict_of_problems {file : String} {octets : Octets} {found : List String}
    (h : problems octets (.ofOctets octets file) = .ok found) :
    ∃ outcome, validation file octets = .ok outcome ∧ Verdict file outcome := by
  unfold validation
  dsimp only
  rw [h]
  by_cases hnil : found = []
  · refine ⟨_, rfl, ?_⟩
    dsimp only
    rw [if_pos (List.isEmpty_iff.2 hnil)]
    exact .valid _
  · refine ⟨_, rfl, ?_⟩
    dsimp only
    rw [if_neg fun hempty => hnil (List.isEmpty_iff.1 hempty)]
    exact .invalid found hnil

/-- A file that is reported valid and has no index leads to the index error. -/
theorem start_validate_of_error {tree : FileTree} {file : String} {octets : Octets}
    {e : IndexError} (hfile : tree.read file = .ok octets)
    (hvalid : (ValidationReport.ofOctets octets file).valid = true)
    (hbuild : EntityIndex.build octets file "" = .error e) :
    (Command.validate file).start.on tree = .finished (.failure "" (.xml e file)) := by
  have hnone : (ValidationReport.ofOctets octets file).error = none :=
    Option.isNone_iff_eq_none.1 hvalid
  have hindex : indexOf file octets = .error (.xml e file) := by
    rw [indexOf, hbuild]
    rfl
  have hproblems : problems octets (.ofOctets octets file) = .error (.xml e file) := by
    have hpath : (ValidationReport.ofOctets octets file).path = file := rfl
    rw [problems, hnone]
    dsimp only
    rw [hpath, hindex]
    rfl
  have hvalidation : validation file octets = .error (.xml e file) := by
    unfold validation
    dsimp only
    rw [hproblems]
    rfl
  rw [start_validate_on hfile, hvalidation]
  rfl

/-- A file gets a verdict just in case it has an index or is not reported valid. -/
theorem verdict_iff {tree : FileTree} {file : String} {octets : Octets}
    (hfile : tree.read file = .ok octets) :
    (∃ outcome, (Command.validate file).start.on tree = .finished outcome ∧
        Verdict file outcome) ↔
      ((ValidationReport.ofOctets octets file).valid = true →
        ∃ index, EntityIndex.build octets file "" = .ok index) := by
  have hgiven : ∀ found, problems octets (.ofOctets octets file) = .ok found →
      ∃ outcome, (Command.validate file).start.on tree = .finished outcome ∧
        Verdict file outcome := by
    intro found hfound
    obtain ⟨outcome, hvalidation, hverdict⟩ := verdict_of_problems hfound
    refine ⟨outcome, ?_, hverdict⟩
    rw [start_validate_on hfile, hvalidation]
    rfl
  constructor
  · intro h hvalid
    obtain ⟨outcome, hstart, hverdict⟩ := h
    cases hbuild : EntityIndex.build octets file "" with
    | ok index => exact ⟨index, rfl⟩
    | error e =>
        rw [start_validate_of_error hfile hvalid hbuild] at hstart
        cases hstart
        cases hverdict
  · intro hindex
    cases herror : (ValidationReport.ofOctets octets file).error with
    | some e =>
        refine hgiven [e.message] ?_
        rw [problems, herror]
    | none =>
        obtain ⟨index, hbuild⟩ := hindex (Option.isNone_iff_eq_none.2 herror)
        have hpath : (ValidationReport.ofOctets octets file).path = file := rfl
        refine hgiven (index.violations.map Violation.message) ?_
        rw [problems, herror]
        dsimp only
        rw [hpath, indexOf, hbuild]
        rfl

end Cli

/-! ## Reports and indexes -/

/-- **What a report of a valid document is worth.**  The document has an index with the reported stats
just in case its attribute values decode.  A file with the document gets a verdict just in case this
holds or the document is not valid. -/
theorem report_serves_iff (octets : Octets) (path : String) :
    ((ValidationReport.ofOctets octets path).valid = true →
      ((∀ file revision, ∃ index, EntityIndex.build octets file revision = .ok index ∧
          (ValidationReport.ofOctets octets path).stats = index.stats) ↔
        Xml.AttributesDecode octets)) ∧
    ∀ tree : FileTree, tree.read path = .ok octets →
      ((∃ outcome, (Cli.Command.validate path).start.on tree = .finished outcome ∧
          Cli.Verdict path outcome) ↔
        ((ValidationReport.ofOctets octets path).valid = true → Xml.AttributesDecode octets)) := by
  constructor
  · intro hvalid
    rw [← WellFormed.exists_build_iff_of_check (ValidationReport.valid_iff.1 hvalid) path ""]
    constructor
    · intro hserves
      obtain ⟨index, hbuild, _⟩ := hserves path ""
      exact ⟨index, hbuild⟩
    · intro h file revision
      obtain ⟨index, hbuild⟩ := h
      obtain ⟨content, hcontent, _⟩ := IndexBuilder.exists_hasContent_of_build hbuild
      have hother := IndexBuilder.build_of_hasContent hcontent file revision
      exact ⟨_, hother, ValidationReport.stats_of_build hother⟩
  · intro tree hfile
    rw [Cli.verdict_iff hfile]
    refine forall_congr' fun hvalid => ?_
    exact WellFormed.exists_build_iff_of_check (ValidationReport.valid_iff.1 hvalid) path ""

/-- A file tree with one file. -/
def oneFile (octets : Octets) : FileTree := (FileTree.empty []).write ["a.xml"] octets 0

/-- The tree with a single file has the octets in it. -/
theorem read_oneFile (octets : Octets) : (oneFile octets).read "a.xml" = .ok octets := by
  cbv

/-- A reference that resolves. -/
theorem report_serves_escaped :
    (ValidationReport.ofOctets (Utf8.encode "<r a='&lt;'/>") "a.xml").valid = true ∧
      (∀ file revision, ∃ index,
        EntityIndex.build (Utf8.encode "<r a='&lt;'/>") file revision = .ok index ∧
          (ValidationReport.ofOctets (Utf8.encode "<r a='&lt;'/>") "a.xml").stats =
            index.stats) ∧
      ∃ outcome, (Cli.Command.validate "a.xml").start.on
          (oneFile (Utf8.encode "<r a='&lt;'/>")) = .finished outcome ∧
        Cli.Verdict "a.xml" outcome := by
  have hvalid : (ValidationReport.ofOctets (Utf8.encode "<r a='&lt;'/>") "a.xml").valid = true := by
    cbv
  have hvalues : Xml.AttributesDecode (Utf8.encode "<r a='&lt;'/>") := by
    decide +kernel
  obtain ⟨hindex, hverdict⟩ := report_serves_iff (Utf8.encode "<r a='&lt;'/>") "a.xml"
  refine ⟨hvalid, (hindex hvalid).2 hvalues, ?_⟩
  exact (hverdict (oneFile _) (read_oneFile _)).2 fun _ => hvalues

/-- **A valid document without an index.**  Its attribute refers to an entity that nobody declares, and
the program ends with the index error. -/
theorem report_of_unresolved_value :
    (ValidationReport.ofOctets (Utf8.encode "<r a='&x;'/>") "a.xml").valid = true ∧
      (∀ file revision index,
        EntityIndex.build (Utf8.encode "<r a='&x;'/>") file revision ≠ .ok index) ∧
      (Cli.Command.validate "a.xml").start.on (oneFile (Utf8.encode "<r a='&x;'/>")) =
        .finished ⟨1, "",
          "Error: xml error: at 1..2: unrecognized entity `x` (path: a.xml, position: 12)\n"⟩ := by
  have hvalid : (ValidationReport.ofOctets (Utf8.encode "<r a='&x;'/>") "a.xml").valid = true := by
    cbv
  have hvalues : ¬Xml.AttributesDecode (Utf8.encode "<r a='&x;'/>") := by
    decide +kernel
  have hcheck := ValidationReport.valid_iff.1 hvalid
  refine ⟨hvalid, ?_, ?_⟩
  · intro file revision index hbuild
    exact hvalues ((WellFormed.exists_build_iff_of_check hcheck file revision).1 ⟨index, hbuild⟩)
  · have hbuild : EntityIndex.build (Utf8.encode "<r a='&x;'/>") "a.xml" "" =
        .error ⟨.document (.reference (.unknownEntity 1 2 "x")), 12⟩ := by
      cbv
    have hfile := read_oneFile (Utf8.encode "<r a='&x;'/>")
    have houtcome : Cli.Outcome.failure ""
        (.xml ⟨.document (.reference (.unknownEntity 1 2 "x")), 12⟩ "a.xml") = ⟨1, "",
          "Error: xml error: at 1..2: unrecognized entity `x` (path: a.xml, position: 12)\n"⟩ := by
      decide +kernel
    exact (Cli.start_validate_of_error hfile hvalid hbuild).trans (congrArg _ houtcome)

end RegistryGraph
