import RegistryGraph.Proofs.Document.Table
import RegistryGraph.Proofs.Validation

/-!
# Which calls of tools fail

The tools take any JSON value as arguments.  What is wrong with the arguments is part of the answer, so
a call fails for two reasons at most: a declared XML source cannot be read, which only the validation
finds out, or a document cannot be made.  The second never happens, because the arguments are held
against the index before the document is begun.

* `Tool.exists_document`: every document that is asked for is made.
* `Tool.call_eq_error`: a failing call is a validation with an unreadable source.
* `Tool.exists_call_error`: such a validation fails.
-/

namespace RegistryGraph

/-- A declared XML source that the snapshot cannot deliver, and why. -/
structure ToolContext.Unreadable (ctx : ToolContext) (s : Source) (failure : Failure) : Prop where
  declared : s ∈ ctx.sources
  xml : s.isXml = true
  content : ctx.snapshot.content s.path = .error failure

namespace Tool

variable {ctx : ToolContext} {args : Json} {failure : Failure}

/-- Two steps that succeed have succeeded one by one. -/
theorem exists_of_bind_eq_ok {α β ε : Type} {x : Except ε α} {f : α → Except ε β} {b : β}
    (h : (x >>= f) = .ok b) : ∃ a, x = .ok a ∧ f a = .ok b := by
  cases x with
  | error fault => cases h
  | ok a => exact ⟨a, rfl, h⟩

/-! ## Documents -/

/-- An order names no unknown parent. -/
theorem unknownParent?_of_documentOrder {filter : DocumentFilter} {format : DocumentFormat}
    (h : documentOrder ctx args = .ok (filter, format)) :
    ctx.index.unknownParent? filter.parent = none := by
  obtain ⟨type, _, h⟩ := exists_of_bind_eq_ok h
  obtain ⟨parent, _, h⟩ := exists_of_bind_eq_ok h
  obtain ⟨name, _, h⟩ := exists_of_bind_eq_ok h
  split at h
  next => cases h
  next format' hformat =>
    split at h
    next => cases h
    next hknown =>
      cases h
      exact hknown

/-- **Every document that is asked for is made.** -/
theorem exists_document (ctx : ToolContext) (args : Json) :
    ∃ answer, document ctx args = .ok answer := by
  unfold document
  split
  next message _ => exact ⟨.refusal message, rfl⟩
  next filter format horder =>
    have hknown := unknownParent?_of_documentOrder horder
    obtain ⟨s, hs⟩ := EntityIndex.exists_document hknown ctx.server.name format
    rw [hs]
    exact ⟨.text s, rfl⟩

/-! ## Validations -/

/-- A list that fails has an element that fails in the same way. -/
theorem exists_of_mapM_eq_error {α β ε : Type} {f : α → Except ε β} {xs : List α} {fault : ε}
    (h : xs.mapM f = .error fault) : ∃ x ∈ xs, f x = .error fault := by
  induction xs with
  | nil => cases h
  | cons x rest ih =>
      rw [List.mapM_cons] at h
      cases hx : f x with
      | error found =>
          rw [hx] at h
          cases h
          exact ⟨x, List.mem_cons_self, hx⟩
      | ok y =>
          cases hrest : rest.mapM f with
          | error found =>
              rw [hx, hrest] at h
              cases h
              obtain ⟨z, hz, hfault⟩ := ih hrest
              exact ⟨z, List.mem_cons_of_mem _ hz, hfault⟩
          | ok ys =>
              rw [hx, hrest] at h
              cases h

/-- A validation fails because of a source that cannot be read. -/
theorem unreadable_of_validation (h : validation ctx = .error failure) :
    ∃ s, ctx.Unreadable s failure := by
  have hreports : sourceReports ctx = .error failure := by
    unfold validation at h
    cases hreports : sourceReports ctx with
    | ok reports =>
        rw [hreports] at h
        cases h
    | error found =>
        rw [hreports] at h
        cases h
        rfl
  obtain ⟨s, hs, hfault⟩ := exists_of_mapM_eq_error hreports
  obtain ⟨hdeclared, hxml⟩ := List.mem_filter.1 hs
  refine ⟨s, hdeclared, hxml, ?_⟩
  cases hcontent : ctx.snapshot.content s.path with
  | error found =>
      rw [hcontent] at hfault
      cases hfault
      rfl
  | ok octets =>
      rw [hcontent] at hfault
      cases hfault

/-- With a source that cannot be read there is no validation. -/
theorem validation_ne_ok {s : Source} (h : ctx.Unreadable s failure) (v : Json) :
    validation ctx ≠ .ok v := by
  intro hok
  obtain ⟨reports, hreports, _⟩ := exists_of_bind_eq_ok hok
  have hread := Xml.exists_forall₂_iff.1 ⟨reports, IndexBuilder.mapM_eq_ok_iff.1 hreports⟩
  obtain ⟨report, hreport⟩ := hread s (List.mem_filter.2 ⟨h.declared, h.xml⟩)
  rw [h.content] at hreport
  cases hreport

/-! ## Calls -/

/-- Every tool is found under its name. -/
theorem ofName?_name (tool : Tool) : ofName? tool.name = some tool := by
  cases tool <;> decide

/-- The tool found under a name has this name. -/
theorem name_of_ofName? {name : String} {tool : Tool} (h : ofName? name = some tool) :
    tool.name = name := by
  simpa using List.find?_some h

/-- The validation is the only tool that fails. -/
theorem answer_eq_error {tool : Tool} (h : tool.answer ctx args = .error failure) :
    tool = .validate ∧ ∃ s, ctx.Unreadable s failure := by
  cases tool with
  | help | identify | describeModel | search | getEntity | listEntities => cases h
  | validate =>
      refine ⟨rfl, unreadable_of_validation ?_⟩
      unfold answer at h
      cases hvalidation : validation ctx with
      | ok v =>
          rw [hvalidation] at h
          cases h
      | error found =>
          rw [hvalidation] at h
          cases h
          rfl
  | generateDocument =>
      obtain ⟨a, ha⟩ := exists_document ctx args
      change document ctx args = .error failure at h
      rw [ha] at h
      cases h

/-- **A failing call is a validation with an unreadable source.** -/
theorem call_eq_error {name : String} (h : call ctx name args = .error failure) :
    name = validate.name ∧ ∃ s, ctx.Unreadable s failure := by
  unfold call answerByName at h
  cases htool : ofName? name with
  | none =>
      rw [htool] at h
      cases h
  | some tool =>
      rw [htool] at h
      dsimp only at h
      cases hanswer : tool.answer ctx args with
      | ok a =>
          rw [hanswer] at h
          cases h
      | error found =>
          rw [hanswer] at h
          cases h
          obtain ⟨rfl, hunreadable⟩ := answer_eq_error hanswer
          exact ⟨(name_of_ofName? htool).symm, hunreadable⟩

/-- **Such a validation fails.** -/
theorem exists_call_error {s : Source} (h : ctx.Unreadable s failure) (args : Json) :
    ∃ found, call ctx validate.name args = .error found := by
  cases hvalidation : validation ctx with
  | ok v => exact absurd hvalidation (validation_ne_ok h v)
  | error found =>
      refine ⟨found, ?_⟩
      rw [call, answerByName, ofName?_name]
      dsimp only [answer]
      rw [hvalidation]
      rfl

end Tool

end RegistryGraph
