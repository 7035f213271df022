import RegistryGraph.Rpc.Dispatch

/-!
# What a request is answered

The answer to a request is given by the context on which it is handled.  Only the tool that identifies
the server looks at the statistics, and it adds them to what it says otherwise.

* `Dispatch.respond_of_not_asksIdentity`: any other request is answered the same at any moment.
* `Dispatch.respond_of_asksIdentity`: what the moment adds to an identity.
* `Dispatch.answers_of_handled`: what handling a request gives is an answer to it.
-/

namespace RegistryGraph.Rpc

/-- Whether the request calls the tool that identifies the server. -/
def Request.asksIdentity (r : Request) : Bool :=
  match Command.ofRequest r with
  | .ok (.callTool call) => call.tool = Tool.identify.name
  | _ => false

namespace Dispatch

variable {ctx : ToolContext} {r : Request} {response : Response}

/-- Only a notification gets no response. -/
theorem respond_eq_none_iff {stats : Statistics} {uptime : Nat} :
    respond ctx stats uptime r = none ↔ r.isNotification = true := by
  unfold respond
  cases r.isNotification <;> simp

/-- What gets a response is no notification. -/
theorem isNotification_of_respond {stats : Statistics} {uptime : Nat}
    (h : respond ctx stats uptime r = some response) : r.isNotification = false := by
  rw [Bool.eq_false_iff]
  intro hnotification
  rw [respond_eq_none_iff.2 hnotification] at h
  cases h

/-- Commands other than the identification do not see the moment. -/
theorem execute_of_not_identify {c : Command}
    (h : ∀ call, c = .callTool call → call.tool ≠ Tool.identify.name) (stats stats' : Statistics)
    (uptime uptime' : Nat) : execute ctx stats uptime c = execute ctx stats' uptime' c := by
  cases c with
  | greet => rfl
  | listTools => rfl
  | ping => rfl
  | callTool call =>
      have hne := h call rfl
      rw [execute, execute, callTool, callTool, if_neg hne, if_neg hne]

/-- What does not ask for the identity is answered the same at all counts and times. -/
theorem respond_of_not_asksIdentity (h : r.asksIdentity = false) (stats stats' : Statistics)
    (uptime uptime' : Nat) : respond ctx stats uptime r = respond ctx stats' uptime' r := by
  unfold respond
  cases hcommand : Command.ofRequest r with
  | error fault => rfl
  | ok c =>
      have hother : ∀ call, c = .callTool call → call.tool ≠ Tool.identify.name := by
        rintro call rfl htool
        unfold Request.asksIdentity at h
        rw [hcommand] at h
        exact of_decide_eq_false h htool
      have hsame : execute ctx stats uptime c = execute ctx stats' uptime' c :=
        execute_of_not_identify hother stats stats' uptime uptime'
      split
      · rfl
      · exact congrArg (fun outcome => some (⟨r.id, outcome⟩ : Response)) hsame

/-- The identity of a server at some moment, as the client is told. -/
def identityAnswer (ctx : ToolContext) (r : Request) (stats : Json) : Response :=
  ⟨r.id,
    .ok (ToolResult.json (Tool.identity { ctx with serverStats := some stats })).toJson.canonical⟩

/-- What asks for the identity is answered with the counts it has seen. -/
theorem respond_of_asksIdentity (h : r.asksIdentity = true) {stats : Statistics} {uptime : Nat}
    (hresponse : respond ctx stats uptime r = some response) :
    response = identityAnswer ctx r (stats.toJson uptime) := by
  have hwanted := isNotification_of_respond hresponse
  unfold Request.asksIdentity at h
  split at h
  next call hcommand =>
    have htool : call.tool = Tool.identify.name := of_decide_eq_true h
    have hknown : Tool.ofName? Tool.identify.name = some .identify := by decide
    rw [respond, if_neg (by simp [hwanted]), hcommand] at hresponse
    have hcall : callTool ctx stats uptime call = .ok (ToolResult.json
        (Tool.identity { ctx with serverStats := some (stats.toJson uptime) })).toJson.canonical := by
      rw [callTool, if_pos htool, htool, Tool.call, Tool.answerByName, hknown]
      rfl
    change some (⟨r.id, callTool ctx stats uptime call⟩ : Response) = some response at hresponse
    rw [hcall] at hresponse
    exact (Option.some.inj hresponse).symm
  next => cases h

/-- The response is what handling the request on the context gives at some moment.  It is the same at
every moment, except for the statistics in an identity. -/
structure Answers (ctx : ToolContext) (r : Request) (response : Response) : Prop where
  handled : ∃ uptime stats, (handleRequest ctx uptime stats r).2 = some response
  settled : r.asksIdentity = false →
    ∀ uptime stats, (handleRequest ctx uptime stats r).2 = some response
  identity : r.asksIdentity = true → ∃ stats, response = identityAnswer ctx r stats

/-- A request that is handled gets an answer to itself. -/
theorem answers_of_handled {uptime : Nat} {stats : Statistics}
    (h : (handleRequest ctx uptime stats r).2 = some response) : Answers ctx r response where
  handled := ⟨uptime, stats, h⟩
  settled := by
    intro hother uptime' stats'
    exact (respond_of_not_asksIdentity hother _ _ _ _).trans h
  identity := fun hidentity => ⟨_, respond_of_asksIdentity hidentity h⟩

end Dispatch

end RegistryGraph.Rpc
