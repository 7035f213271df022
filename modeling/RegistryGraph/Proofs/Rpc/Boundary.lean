import RegistryGraph.Proofs.Rpc.Decisions
import RegistryGraph.Proofs.Tool.Outcome

/-!
# Where errors of the protocol end

A call of a tool that has a name is answered with what the tool says, also if it says that the
arguments are wrong.  Only a tool that fails makes the answer an error, and only the validation fails,
when a declared XML source cannot be read.

* `Dispatch.callTool_decided`: what calling a tool leads to.
* `Dispatch.code_ne_of_handle`: no answer reports an error inside the server.
* `Dispatch.tool_errors`: both together, for requests and for messages.
-/

namespace RegistryGraph.Rpc

/-- The request calls the tool with the given name. -/
structure Request.Calls (r : Request) (name : String) : Prop where
  method : r.method = "tools/call"
  named : ∃ params, r.params = some params ∧ params.get? "name" = some (.string name)
  name_ne : name ≠ ""

namespace Dispatch

variable {ctx : ToolContext} {stats : Statistics} {uptime : Nat} {r : Request} {name : String}

/-! ## Calls of tools -/

/-- A request that calls a tool is the command to call it. -/
theorem exists_ofRequest (h : r.Calls name) :
    ∃ call, Command.ofRequest r = .ok (.callTool call) ∧ call.tool = name := by
  obtain ⟨params, hparams, hname⟩ := h.named
  have hfull : name.isEmpty = false := by simpa using h.name_ne
  have hcall : ∃ call, ToolCall.ofParams r.params = .ok call ∧ call.tool = name := by
    rw [hparams]
    simp only [ToolCall.ofParams, hname, hfull, Bool.false_eq_true, if_false]
    exact ⟨_, rfl, rfl⟩
  obtain ⟨call, hok, htool⟩ := hcall
  refine ⟨call, ?_, htool⟩
  rw [Command.ofRequest, h.method, if_neg (by decide), if_neg (by decide), if_pos rfl, hok]
  rfl

/-- A call of a tool is no notification. -/
theorem isNotification_of_calls (h : r.Calls name) : r.isNotification = false := by
  rw [Request.isNotification, h.method]
  decide

/-- The context on which a tool is called. -/
def contextFor (ctx : ToolContext) (stats : Statistics) (uptime : Nat) (name : String) :
    ToolContext :=
  if name = Tool.identify.name then { ctx with serverStats := some (stats.toJson uptime) } else ctx

/-- The numbers handed to a tool change no source. -/
theorem unreadable_contextFor {s : Source} {failure : Failure} :
    (contextFor ctx stats uptime name).Unreadable s failure ↔ ctx.Unreadable s failure := by
  unfold contextFor
  split
  · exact ⟨fun h => ⟨h.declared, h.xml, h.content⟩, fun h => ⟨h.declared, h.xml, h.content⟩⟩
  · exact Iff.rfl

/-- A result always has a value. -/
theorem callTool_eq (ctx : ToolContext) (stats : Statistics) (uptime : Nat) (call : ToolCall) :
    callTool ctx stats uptime call =
      ((Tool.call (contextFor ctx stats uptime call.tool) call.tool call.arguments).mapError
        .toolFailed).map fun result => result.toJson.canonical := by
  unfold callTool contextFor
  dsimp only
  cases Tool.call _ call.tool call.arguments <;> rfl

/-- **What calling a tool leads to**: the failure of a source, if the tool is the validation, and a
result otherwise. -/
theorem callTool_decided (ctx : ToolContext) (stats : Statistics) (uptime : Nat)
    (call : ToolCall) :
    (call.tool = "validate" ∧ ∃ s failure, ctx.Unreadable s failure ∧
        callTool ctx stats uptime call = .error (.toolFailed failure)) ∨
      ¬(call.tool = "validate" ∧ ∃ s failure, ctx.Unreadable s failure) ∧
        ∃ result : ToolResult, callTool ctx stats uptime call = .ok result.toJson.canonical := by
  rw [callTool_eq]
  cases hcall : Tool.call (contextFor ctx stats uptime call.tool) call.tool call.arguments with
  | error failure =>
      obtain ⟨htool, s, hunreadable⟩ := Tool.call_eq_error hcall
      exact .inl ⟨htool, s, failure, unreadable_contextFor.1 hunreadable, rfl⟩
  | ok result =>
      refine .inr ⟨?_, result, rfl⟩
      rintro ⟨htool, s, failure, hunreadable⟩
      have hthere : (contextFor ctx stats uptime call.tool).Unreadable s failure :=
        unreadable_contextFor.2 hunreadable
      obtain ⟨found, hfails⟩ := Tool.exists_call_error hthere call.arguments
      rw [htool] at hcall hfails
      cases hcall.symm.trans hfails

/-! ## Codes of errors -/

/-- What is no command is either an unknown method or has invalid parameters. -/
theorem code_of_ofRequest {fault : Fault} (h : Command.ofRequest r = .error fault) :
    fault.code = .methodNotFound ∨ fault.code = .invalidParams := by
  unfold Command.ofRequest at h
  split at h
  · cases h
  · split at h
    · cases h
    · split at h
      · refine .inr ?_
        cases hcall : ToolCall.ofParams r.params with
        | ok call =>
            rw [hcall] at h
            cases h
        | error found =>
            rw [hcall] at h
            cases h
            unfold ToolCall.ofParams at hcall
            grind [Fault.code]
      · split at h
        · cases h
        · cases h
          exact .inl rfl

/-- What keeps a request from a result. -/
theorem code_of_outcome {fault : Fault}
    (h : (Command.ofRequest r).bind (execute ctx stats uptime) = .error fault) :
    fault.code = .methodNotFound ∨ fault.code = .invalidParams ∨ fault.code = .toolExecution := by
  cases hcommand : Command.ofRequest r with
  | error found =>
      rw [hcommand] at h
      cases h
      exact (code_of_ofRequest hcommand).imp_right .inl
  | ok command =>
      rw [hcommand] at h
      exact .inr (.inr (code_of_execute h))

/-- No response to a request reports an error inside the server. -/
theorem code_ne_of_respond {response : Response}
    (h : respond ctx stats uptime r = some response) : response.code? ≠ some (-32603) := by
  unfold respond at h
  split at h
  · cases h
  · cases h
    cases houtcome : (Command.ofRequest r).bind (execute ctx stats uptime) with
    | ok result => exact fun hcode => by cases hcode
    | error fault =>
        dsimp only [Response.code?]
        rcases code_of_outcome houtcome with hcode | hcode | hcode <;>
          rw [hcode] <;> decide

/-- **No answer to a message reports an error inside the server.** -/
theorem code_ne_of_handle {octets : Octets} {response : Response}
    (h : (handle ctx uptime stats octets).2 = some response) : response.code? ≠ some (-32603) := by
  have hread : Request.ReadFrom (Json.parseRaw octets).toOption (Request.parse octets) :=
    Request.readFrom_parse octets
  unfold handle at h
  generalize Request.parse octets = result at hread h
  cases hread with
  | rejected ground fault id hfirst hecho hcode =>
      cases h
      change some fault.code.number ≠ some (-32603)
      rw [← hcode]
      cases ground <;> decide
  | accepted r hfirst hecho hmethod hparams => exact code_ne_of_respond h

/-- **Errors of tools and errors of the protocol.**  A call of a named tool is answered with an error
just in case it is a validation and some declared XML source cannot be read; otherwise the answer holds
a result. The tables and the documents that the tools want are always made, and whatever a message says,
its answer reports no error inside the server. -/
theorem tool_errors (ctx : ToolContext) :
    (∀ uptime stats r name, r.Calls name →
      ∃ response, (handleRequest ctx uptime stats r).2 = some response ∧ response.id = r.id ∧
        ((name = "validate" ∧ ∃ s failure, ctx.Unreadable s failure ∧
            response.outcome = .error (.toolFailed failure) ∧
            response.code? = some (-32000)) ∨
          ¬(name = "validate" ∧ ∃ s failure, ctx.Unreadable s failure) ∧
            ∃ result : ToolResult, response.outcome = .ok result.toJson.canonical)) ∧
      (∀ filter, ∃ s, ctx.index.csv filter = .ok s) ∧
      (∀ args, ∃ answer, Tool.answer ctx args .generateDocument = .ok answer) ∧
      ∀ uptime stats octets response, (handle ctx uptime stats octets).2 = some response →
        response.code? ≠ some (-32603) := by
  refine ⟨?calls, fun filter => ⟨_, EntityIndex.csv_eq ctx.index filter⟩,
    Tool.exists_document ctx, fun _ _ _ _ => code_ne_of_handle⟩
  intro uptime stats r name h
  obtain ⟨call, hcommand, rfl⟩ := exists_ofRequest h
  have hresponse : (handleRequest ctx uptime stats r).2 =
      some ⟨r.id, callTool ctx (stats.countAll (openingOf r)) uptime call⟩ := by
    change respond ctx _ uptime r = _
    rw [respond, if_neg (by simp [isNotification_of_calls h]), hcommand]
    rfl
  refine ⟨_, hresponse, rfl, ?_⟩
  rcases callTool_decided ctx (stats.countAll (openingOf r)) uptime call with
    ⟨htool, s, failure, hunreadable, hfails⟩ | ⟨hreadable, result, hok⟩
  · refine .inl ⟨htool, s, failure, hunreadable, hfails, ?_⟩
    rw [Response.code?, hfails]
    rfl
  · exact .inr ⟨hreadable, result, hok⟩

/-! ## A repository that lacks one of its sources -/

/-- A context with two XML sources, the second of which is not at hand. -/
def secondAbsent : ToolContext where
  snapshot :=
    .ofParts "o/r" [] ⟨"1.0", ⟨"r", "", ""⟩, [⟨"a.xml", "", none, none⟩, ⟨"b.xml", "", none, none⟩]⟩
      (.ofPairs [("a.xml", Utf8.encode "<r/>")])
  index := .empty "a.xml" ""
  serverStats := none

/-- A call of a tool without arguments. -/
def plainCall (name : String) : Request :=
  ⟨.number (.integer 1), "tools/call", some (.object [("name", .string name)])⟩

/-- A plain call calls its tool. -/
theorem calls_plainCall {name : String} (h : name ≠ "") : (plainCall name).Calls name :=
  ⟨rfl, ⟨_, rfl, rfl⟩, h⟩

/-- The context with an absent second source has an unreadable one. -/
theorem exists_unreadable_secondAbsent : ∃ s failure, secondAbsent.Unreadable s failure := by
  refine ⟨⟨"b.xml", "", none, none⟩, _, ?_, by decide, rfl⟩
  exact List.mem_cons_of_mem _ List.mem_cons_self

/-- The validation fails, and the other tools do not mind. -/
theorem tool_errors_secondAbsent :
    (∃ response, (handleRequest secondAbsent 0 .zero (plainCall "validate")).2 = some response ∧
        response.code? = some (-32000)) ∧
      ∃ response, (handleRequest secondAbsent 0 .zero (plainCall "search")).2 = some response ∧
        ∃ result : ToolResult, response.outcome = .ok result.toJson.canonical := by
  have hcalls := (tool_errors secondAbsent).1
  constructor
  · obtain ⟨response, hresponse, _, houtcome⟩ :=
      hcalls 0 .zero (plainCall "validate") "validate" (calls_plainCall (by decide))
    refine ⟨response, hresponse, ?_⟩
    rcases houtcome with ⟨_, _, _, _, _, hcode⟩ | ⟨hreadable, _⟩
    · exact hcode
    · exact absurd ⟨rfl, exists_unreadable_secondAbsent⟩ hreadable
  · obtain ⟨response, hresponse, _, houtcome⟩ :=
      hcalls 0 .zero (plainCall "search") "search" (calls_plainCall (by decide))
    refine ⟨response, hresponse, ?_⟩
    rcases houtcome with ⟨hname, _⟩ | ⟨_, hresult⟩
    · exact absurd hname (by decide)
    · exact hresult

end Dispatch

end RegistryGraph.Rpc
