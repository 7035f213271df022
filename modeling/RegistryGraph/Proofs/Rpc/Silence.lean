import RegistryGraph.Proofs.Rpc.Decisions

/-!
# Which messages get no answer

Whoever sends a message with an id waits for an answer with that id.  A message that is accepted as a
request gets one, unless its method says that it is a notification.  The method alone decides: the
handshake of a client ends with a notification that has a method of its own.

* `Dispatch.handle_eq_none_iff`: what is not answered is an accepted notification.
* `Dispatch.exists_answer_of_accepted`: any other accepted message is answered with its id.
* `Dispatch.silence_of_accepted`: both together.
-/

namespace RegistryGraph.Rpc

/-- The method that a message gives is the one of a notification. -/
def GivesNotification (message : Option Json) : Prop :=
  ∃ method, givenText message "method" = some method ∧
    ("notifications/".toList <+: method.toList ∨ method = "initialized")

namespace Dispatch

variable {ctx : ToolContext} {uptime : Nat} {stats : Statistics} {octets : Octets} {r : Request}

/-- The method of an accepted message is the method of the request. -/
theorem givesNotification_iff {message : Option Json} (h : Request.ReadFrom message (.ok r)) :
    GivesNotification message ↔ r.isNotification = true := by
  cases h with
  | accepted _ _ _ hmethod _ =>
      have hdecided : r.isNotification = true ↔
          ("notifications/".toList <+: r.method.toList ∨ r.method = "initialized") := by
        simp [Request.isNotification]
      rw [hdecided, GivesNotification]
      constructor
      · rintro ⟨method, hgiven, hform⟩
        cases hmethod.symm.trans hgiven
        exact hform
      · exact fun hform => ⟨r.method, hmethod, hform⟩

/-- **What is not answered** is an accepted notification. -/
theorem handle_eq_none_iff :
    (handle ctx uptime stats octets).2 = none ↔
      ∃ r, Request.parse octets = .ok r ∧ r.isNotification = true := by
  rw [handle]
  cases Request.parse octets with
  | error response => simp
  | ok r =>
      change respond ctx _ uptime r = none ↔ _
      rw [respond_eq_none_iff]
      simp

/-- What is accepted and no notification is answered with the id that it gives. -/
theorem exists_answer_of_accepted (haccepted : Request.parse octets = .ok r)
    (hwanted : r.isNotification = false) :
    ∃ response code, (handle ctx uptime stats octets).2 = some response ∧
      Carries response.toJson (givenId (Json.parseRaw octets).toOption) code := by
  have hread : Request.ReadFrom (Json.parseRaw octets).toOption (.ok r) :=
    haccepted ▸ Request.readFrom_parse octets
  cases hread with
  | accepted _ _ hecho _ _ =>
      have hanswer : ∃ response, (handle ctx uptime stats octets).2 = some response ∧
          response.id = r.id := by
        rw [handle, haccepted]
        change ∃ response, respond ctx _ uptime r = some response ∧ response.id = r.id
        rw [respond, if_neg (by simp [hwanted])]
        exact ⟨_, rfl, rfl⟩
      obtain ⟨response, hresponse, hid⟩ := hanswer
      refine ⟨response, response.code?, hresponse, ?_⟩
      rw [← hecho, ← hid]
      exact response.carries

/-- **Who waits for an answer gets it.**  An accepted message whose method is not the one of a
notification is answered with its id, whatever else it asks for.  Of the accepted messages without an
id, or with the id null, exactly those with the method of a notification are not answered. -/
theorem silence_of_accepted (ctx : ToolContext) (uptime : Nat) (stats : Statistics)
    (haccepted : Request.parse octets = .ok r) :
    let message := (Json.parseRaw octets).toOption
    (¬GivesNotification message →
      ∃ response code, (handle ctx uptime stats octets).2 = some response ∧
        Carries response.toJson (givenId message) code) ∧
      (givenId message = .null →
        ((handle ctx uptime stats octets).2 = none ↔ GivesNotification message)) := by
  intro message
  have hgives : GivesNotification message ↔ r.isNotification = true :=
    givesNotification_iff (haccepted ▸ Request.readFrom_parse octets)
  constructor
  · intro hother
    rw [hgives, Bool.not_eq_true] at hother
    exact exists_answer_of_accepted haccepted hother
  · intro _
    rw [handle_eq_none_iff, hgives, haccepted]
    simp

/-! ## Two messages that are not answered -/

/-- A context of a repository without sources. -/
def bareContext : ToolContext where
  snapshot := .ofParts "r" [] ⟨"1.0", ⟨"r", "", ""⟩, []⟩ ∅
  index := .empty "" ""
  serverStats := none

/-- What a client sends at the end of the handshake. -/
def handshakeEnd : Octets :=
  Utf8.encode "\x7b\"jsonrpc\":\"2.0\",\"method\":\"initialized\"\x7d"

/-- A message with an id and the method of a notification. -/
def numberedNotification : Octets :=
  Utf8.encode "\x7b\"jsonrpc\":\"2.0\",\"id\":1,\"method\":\"notifications/x\"\x7d"

/-- A message with an id and an unknown method. -/
def numberedQuestion : Octets :=
  Utf8.encode "\x7b\"jsonrpc\":\"2.0\",\"id\":1,\"method\":\"x\"\x7d"

/-- A message is accepted if its id and its method are read from it. -/
theorem exists_accepted_of_toOption {id : MessageId} {method : String}
    (h : (Request.parse octets).toOption.map (fun r => (r.id, r.method)) = some (id, method)) :
    ∃ r, Request.parse octets = .ok r ∧ r.id = id ∧ r.method = method := by
  cases hparse : Request.parse octets with
  | error response =>
      rw [hparse] at h
      cases h
  | ok r =>
      rw [hparse] at h
      cases h
      exact ⟨r, rfl, rfl, rfl⟩

/-- The end of the handshake is accepted, without an id. -/
theorem exists_parse_handshakeEnd :
    ∃ r, Request.parse handshakeEnd = .ok r ∧ r.id = .null ∧ r.method = "initialized" :=
  exists_accepted_of_toOption (by decide +kernel)

/-- The notification with an id is accepted, with its id. -/
theorem exists_parse_numberedNotification :
    ∃ r, Request.parse numberedNotification = .ok r ∧ r.id = .number (.integer 1) ∧
      r.method = "notifications/x" :=
  exists_accepted_of_toOption (by decide +kernel)

/-- The question is accepted, with its id. -/
theorem exists_parse_numberedQuestion :
    ∃ r, Request.parse numberedQuestion = .ok r ∧ r.id = .number (.integer 1) ∧ r.method = "x" :=
  exists_accepted_of_toOption (by decide +kernel)

/-- The question is answered with its id. -/
theorem silence_of_accepted_question :
    ∃ response code, (handle bareContext 0 .zero numberedQuestion).2 = some response ∧
      Carries response.toJson (.number (.integer 1)) code := by
  obtain ⟨r, hparse, hid, hmethod⟩ := exists_parse_numberedQuestion
  have hread : Request.ReadFrom (Json.parseRaw numberedQuestion).toOption (.ok r) :=
    hparse ▸ Request.readFrom_parse numberedQuestion
  have hother : ¬GivesNotification (Json.parseRaw numberedQuestion).toOption := by
    rw [givesNotification_iff hread, Request.isNotification, hmethod]
    decide
  have hgiven : givenId (Json.parseRaw numberedQuestion).toOption = .number (.integer 1) := by
    cases hread with
    | accepted _ _ hecho _ _ => rw [← hecho, hid, MessageId.toJson]
  rw [← hgiven]
  exact (silence_of_accepted bareContext 0 .zero hparse).1 hother

/-- The end of the handshake is not answered although it has another method, and a message with an id
is not answered either if it has the method of a notification. -/
theorem unanswered_messages :
    (∃ r, Request.parse handshakeEnd = .ok r ∧ r.id = .null ∧ r.method = "initialized" ∧
        (handle bareContext 0 .zero handshakeEnd).2 = none) ∧
      ∃ r, Request.parse numberedNotification = .ok r ∧ r.id = .number (.integer 1) ∧
        r.method = "notifications/x" ∧
        (handle bareContext 0 .zero numberedNotification).2 = none := by
  constructor
  · obtain ⟨r, hparse, hid, hmethod⟩ := exists_parse_handshakeEnd
    have hsilent : r.isNotification = true := by
      rw [Request.isNotification, hmethod]
      decide
    exact ⟨r, hparse, hid, hmethod, handle_eq_none_iff.2 ⟨r, hparse, hsilent⟩⟩
  · obtain ⟨r, hparse, hid, hmethod⟩ := exists_parse_numberedNotification
    have hsilent : r.isNotification = true := by
      rw [Request.isNotification, hmethod]
      decide
    exact ⟨r, hparse, hid, hmethod, handle_eq_none_iff.2 ⟨r, hparse, hsilent⟩⟩

end Dispatch

end RegistryGraph.Rpc
