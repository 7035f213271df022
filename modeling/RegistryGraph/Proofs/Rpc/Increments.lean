import Mathlib
import RegistryGraph.Proofs.Rpc.Decisions

/-!
# What is counted for a message

Increments may be made in any order: the counters only depend on how often each increment is made.  For
a message one request is counted, the call of a tool if the message is a valid one, and one error if the
answer is one.

* `Statistics.countAll_perm`: the order of increments does not matter.
* `Statistics.sum_callsByTool`: the calls of the tools add up to all calls.
* `openingFor_eq`: what is counted before a message is answered.
-/

namespace RegistryGraph.Rpc

/-! ## Counters -/

/-- The tools whose calls are counted. -/
def Increment.tools (increments : List Increment) : List String :=
  increments.filterMap fun
    | .callOf tool => some tool
    | .request | .error | .toolCall => none

open Increment (tools)

namespace Statistics

variable (s : Statistics) (increments : List Increment)

/-- Increments are counted one list behind the other. -/
theorem countAll_append (more : List Increment) :
    s.countAll (increments ++ more) = (s.countAll increments).countAll more := List.foldl_append

/-- A counter for one increment. -/
theorem counter_countAll (counter : Statistics → Nat) (i : Increment)
    (h : ∀ s j, counter (s.count j) = counter s + if j = i then 1 else 0) :
    counter (s.countAll increments) = counter s + increments.count i := by
  induction increments generalizing s with
  | nil => rfl
  | cons j rest ih =>
      rw [countAll, List.foldl_cons, ← countAll, ih, h, List.count_cons]
      by_cases hsame : j = i
      · simp only [hsame, if_true, beq_self_eq_true]
        omega
      · simp [hsame]

/-- Counting adds the requests among the increments. -/
theorem requests_countAll :
    (s.countAll increments).requests = s.requests + increments.count .request :=
  counter_countAll s increments requests .request fun s j => by cases j <;> rfl

/-- Counting adds the errors among the increments. -/
theorem errors_countAll :
    (s.countAll increments).errors = s.errors + increments.count .error :=
  counter_countAll s increments errors .error fun s j => by cases j <;> rfl

/-- Counting adds the tool calls among the increments. -/
theorem toolCalls_countAll :
    (s.countAll increments).toolCalls = s.toolCalls + increments.count .toolCall :=
  counter_countAll s increments toolCalls .toolCall fun s j => by cases j <;> rfl

/-- A tool is in the table as soon as one of its calls has been counted. -/
theorem callsByTool_countAll (tool : String) :
    (s.countAll increments).callsByTool[tool]? =
      if tool ∈ tools increments then
        some (s.callsByTool.getD tool 0 + (tools increments).count tool)
      else s.callsByTool[tool]? := by
  induction increments generalizing s with
  | nil => rfl
  | cons i rest ih =>
      rw [countAll, List.foldl_cons, ← countAll, ih]
      cases i with
      | request | error | toolCall => rfl
      | callOf other =>
          have htools : tools (.callOf other :: rest) = other :: tools rest := rfl
          have hcalls : (s.count (.callOf other)).callsByTool =
              s.callsByTool.insert other (s.callsByTool.getD other 0 + 1) := rfl
          rw [htools, hcalls, Std.ExtTreeMap.getD_insert, Std.ExtTreeMap.getElem?_insert,
            List.count_cons]
          by_cases hsame : other = tool
          · subst hsame
            by_cases hmem : other ∈ tools rest
            · simp [hmem]
              omega
            · simp [hmem, List.count_eq_zero.2 hmem]
          · simp [hsame, Ne.symm hsame]

/-- **The order of increments does not matter.** -/
theorem countAll_perm {increments more : List Increment} (h : increments.Perm more) :
    s.countAll increments = s.countAll more := by
  have htools : (tools increments).Perm (tools more) := h.filterMap _
  have hcalls : (s.countAll increments).callsByTool = (s.countAll more).callsByTool := by
    apply Std.ExtTreeMap.ext_getElem?
    intro tool
    rw [callsByTool_countAll, callsByTool_countAll, htools.count_eq]
    simp only [htools.mem_iff]
  have hrequests : (s.countAll increments).requests = (s.countAll more).requests := by
    rw [requests_countAll, requests_countAll, h.count_eq]
  have herrors : (s.countAll increments).errors = (s.countAll more).errors := by
    rw [errors_countAll, errors_countAll, h.count_eq]
  have htoolCalls : (s.countAll increments).toolCalls = (s.countAll more).toolCalls := by
    rw [toolCalls_countAll, toolCalls_countAll, h.count_eq]
  calc s.countAll increments
      = ⟨(s.countAll increments).requests, (s.countAll increments).toolCalls,
          (s.countAll increments).errors, (s.countAll increments).callsByTool⟩ := rfl
    _ = s.countAll more := by rw [hrequests, herrors, htoolCalls, hcalls]

/-- Counted from zero, a tool's calls are those that name it. -/
theorem callsByTool_zero (tool : String) :
    (zero.countAll increments).callsByTool[tool]? =
      if tool ∈ tools increments then some ((tools increments).count tool) else none := by
  have hzero : zero.callsByTool.getD tool 0 = 0 := rfl
  rw [callsByTool_countAll, hzero, Nat.zero_add]
  rfl

end Statistics

/-! ## Messages -/

/-- The tool that a message calls, if the message is a valid call: no ground applies to it, its method
is `tools/call`, and its parameters give a name. -/
def calledTool? (octets : Octets) : Option String :=
  let message := (Json.parseRaw octets).toOption
  if Ground.first? message = none ∧ givenText message "method" = some "tools/call" then
    givenText (message.bind (·.last? "params")) "name"
  else none

/-- What is counted before a message is answered. -/
def openingFor (octets : Octets) : List Increment :=
  match Request.parse octets with
  | .ok r => Dispatch.openingOf r
  | .error _ => [.request]

/-- The increments for the call of a tool. -/
def Increment.ofCall : Option String → List Increment
  | some tool => [.toolCall, .callOf tool]
  | none => []

/-- The tool of a call is the one that its parameters name. -/
theorem ToolCall.name_of_ofParams {params : Option Json} {call : ToolCall}
    (h : ofParams (params.map Json.canonical) = .ok call) :
    givenText params "name" = some call.tool := by
  cases params with
  | none => cases h
  | some params =>
      rw [Option.map_some, ofParams, Json.get?_canonical] at h
      rw [givenText, Option.bind_some]
      cases hname : params.last? "name" with
      | none =>
          rw [hname] at h
          cases h
      | some name =>
          rw [hname] at h
          cases name with
          | string tool =>
              dsimp only [Option.map_some, Json.canonical] at h
              split at h
              · cases h
              · cases h
                rfl
          | null | bool b | number n | array items | object members => cases h

/-- A request has the command of a call only through its method. -/
theorem Command.ofRequest_eq_callTool {r : Request} {call : ToolCall}
    (h : ofRequest r = .ok (.callTool call)) :
    r.method = "tools/call" ∧ ToolCall.ofParams r.params = .ok call := by
  unfold ofRequest at h
  split at h
  · cases h
  split at h
  · cases h
  split at h
  next hmethod =>
    refine ⟨hmethod, ?_⟩
    cases hcall : ToolCall.ofParams r.params with
    | error fault =>
        rw [hcall] at h
        cases h
    | ok call' =>
        rw [hcall] at h
        cases h
        rfl
  next =>
    split at h <;> cases h

/-- A command of the method for calls is the call of a tool. -/
theorem Command.exists_callTool {r : Request} {c : Command} (h : ofRequest r = .ok c)
    (hmethod : r.method = "tools/call") : ∃ call, c = .callTool call := by
  rw [ofRequest, hmethod, if_neg (by decide), if_neg (by decide), if_pos rfl] at h
  cases hcall : ToolCall.ofParams r.params with
  | error fault =>
      rw [hcall] at h
      cases h
  | ok call =>
      rw [hcall] at h
      cases h
      exact ⟨call, rfl⟩

/-- A request that calls a tool is the valid call of this tool, and no other request is one. -/
theorem calledTool?_of_accepted {octets : Octets} {r : Request}
    (h : Request.parse octets = .ok r) :
    (∃ call, Command.ofRequest r = .ok (.callTool call) ∧ r.isNotification = false ∧
        calledTool? octets = some call.tool) ∨
      (∀ call, Command.ofRequest r ≠ .ok (.callTool call)) ∧ calledTool? octets = none := by
  have hread : Request.ReadFrom (Json.parseRaw octets).toOption (.ok r) :=
    h ▸ Request.readFrom_parse octets
  rw [calledTool?]
  generalize (Json.parseRaw octets).toOption = message at hread
  cases hread with
  | accepted _ hfirst _ hmethod hparams =>
      have hnotification : Ground.notification.appliesTo message = r.isNotification := by
        simp only [Ground.appliesTo, hmethod, Request.isNotification]
      have hdecided := Command.ofRequest_decided hmethod hparams
      cases hcommand : Command.ofRequest r with
      | error fault =>
          -- The ground for the fault applies, so the message is no valid call.
          refine .inr ⟨fun call hcalls => (by cases hcalls), if_neg ?_⟩
          rintro ⟨hnone, _⟩
          rw [hfirst, List.find?_cons] at hnone
          rcases hdecided with ⟨ground, _, hground, _⟩ | ⟨_, c, hc⟩
          · split at hnone
            · cases hnone
            · cases hground.symm.trans hnone
          · cases hcommand.symm.trans hc
      | ok c =>
          by_cases hcall : r.method = "tools/call"
          · obtain ⟨call, rfl⟩ := Command.exists_callTool hcommand hcall
            have hwanted : r.isNotification = false := by
              rw [Request.isNotification, hcall]
              decide
            have hnone : Ground.first? message = none := by
              rw [hfirst, List.find?_cons, hnotification, hwanted]
              rcases hdecided with ⟨_, fault, _, hfault, _⟩ | ⟨hnone, _⟩
              · cases hcommand.symm.trans hfault
              · exact hnone
            have hname : givenText (message.bind (·.last? "params")) "name" = some call.tool :=
              ToolCall.name_of_ofParams
                (hparams ▸ (Command.ofRequest_eq_callTool hcommand).2)
            refine .inl ⟨call, rfl, hwanted, ?_⟩
            rw [if_pos ⟨hnone, hcall ▸ hmethod⟩, hname]
          · refine .inr ⟨?_, if_neg ?_⟩
            · rintro call hcall'
              exact hcall (Command.ofRequest_eq_callTool (hcommand.trans hcall')).1
            · rintro ⟨_, hgiven⟩
              exact hcall (Option.some.inj (hmethod.symm.trans hgiven))

/-- A message that is not accepted calls nothing. -/
theorem calledTool?_of_rejected {octets : Octets} {response : Response}
    (h : Request.parse octets = .error response) :
    calledTool? octets = none ∧ response.isError = true := by
  have hread : Request.ReadFrom (Json.parseRaw octets).toOption (.error response) :=
    h ▸ Request.readFrom_parse octets
  rw [calledTool?]
  generalize (Json.parseRaw octets).toOption = message at hread
  cases hread with
  | rejected ground fault id hfirst _ _ =>
      refine ⟨if_neg ?_, rfl⟩
      rintro ⟨hnone, _⟩
      cases hfirst.symm.trans hnone

/-- **What is counted before a message is answered**: the message, and the call if it is a valid one. -/
theorem openingFor_eq (octets : Octets) :
    openingFor octets = .request :: Increment.ofCall (calledTool? octets) := by
  rw [openingFor]
  cases hparse : Request.parse octets with
  | error response =>
      rw [(calledTool?_of_rejected hparse).1]
      rfl
  | ok r =>
      dsimp only
      rw [Dispatch.openingOf]
      rcases calledTool?_of_accepted hparse with
        ⟨call, hcommand, hwanted, hcalled⟩ | ⟨hother, hcalled⟩
      · rw [hcalled, hcommand, hwanted]
        rfl
      · rw [hcalled]
        split
        · rfl
        · split
          next call hcommand => exact absurd hcommand (hother call)
          next => rfl

/-- The call of a tool: of repeated members the last counts. -/
example :
    calledTool?
        (Utf8.encode
          ("\x7b\"jsonrpc\":\"2.0\",\"id\":1,\"method\":\"tools/call\"," ++
            "\"params\":\x7b\"name\":\"ping\",\"name\":\"identify\"\x7d\x7d")) =
      some "identify" := by
  decide +kernel

end RegistryGraph.Rpc
