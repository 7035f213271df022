import RegistryGraph.Proofs.Json.Members
import RegistryGraph.Proofs.Rpc.Answers

/-!
# How a message is decided

Octets can be no message at all, or one that asks for nothing that can be done, in several ways, and
in more than one way at once.  `Ground` lists these ways, each as a condition on the value that the
octets are read as; the first in the order of `Ground.inOrder` that applies decides the answer.

* `Request.readFrom_parse`: reading a message finds the grounds that concern its form.
* `Dispatch.settles_respond`: answering a request finds the others.
* `Dispatch.handle_decided`: what every message is answered.
-/

namespace RegistryGraph.Rpc

/-- What can decide how a message is answered. -/
inductive Ground where
  | notJson
  | notAnObject
  | badId
  | badVersion
  | noMethod
  | notification
  | unknownMethod
  | badCall
deriving DecidableEq, Repr

/-- The id that a message gives, which is null if it gives none. -/
def givenId (message : Option Json) : Json := (message.bind (·.last? "id")).getD .null

/-- A member of a message that is a text. -/
def givenText (message : Option Json) (key : String) : Option String :=
  (message.bind (·.last? key)).bind Json.asString?

namespace Ground

/-- The grounds in the order in which they count. -/
def inOrder : List Ground :=
  [.notJson, .notAnObject, .badId, .badVersion, .noMethod, .notification, .unknownMethod, .badCall]

/-- Whether a ground applies to the value that octets are read as, if they are JSON. -/
def appliesTo (message : Option Json) : Ground → Bool
  | .notJson => message.isNone
  | .notAnObject =>
    match message with
    | some (.object _) | none => false
    | some _ => true
  | .badId =>
    match givenId message with
    | .bool _ | .array _ | .object _ => true
    | .null | .string _ | .number _ => false
  | .badVersion => givenText message "jsonrpc" ≠ some "2.0"
  | .noMethod => givenText message "method" = none
  | .notification =>
    match givenText message "method" with
    | some method =>
      "notifications/".toList.isPrefixOf method.toList || method = "initialized"
    | none => false
  | .unknownMethod =>
    match givenText message "method" with
    | some method => method ∉ ["initialize", "tools/list", "tools/call", "ping"]
    | none => false
  | .badCall =>
    -- Absent parameters, and parameters that are no object, give no name.
    givenText message "method" = some "tools/call" ∧
      (givenText (message.bind (·.last? "params")) "name").getD "" = ""

/-- The first ground that applies. -/
def first? (message : Option Json) : Option Ground := inOrder.find? (appliesTo message)

/-- The code of the error; a notification is no error. -/
def code? : Ground → Option Int
  | .notJson => some (-32700)
  | .notAnObject | .badId | .badVersion | .noMethod => some (-32600)
  | .notification => none
  | .unknownMethod => some (-32601)
  | .badCall => some (-32602)

/-- The id of the error, which is null as long as the id of the message is not known. -/
def answerId (message : Option Json) : Ground → Json
  | .notJson | .notAnObject | .badId => .null
  | .badVersion | .noMethod | .notification | .unknownMethod | .badCall => givenId message

end Ground

/-- What a response carries as a JSON value: an id, and either a result or an error with a code. -/
inductive Carries : Json → Json → Option Int → Prop where
  | result (id payload : Json) :
    Carries (.object [("jsonrpc", .string "2.0"), ("id", id), ("result", payload)]) id none
  | error (id : Json) (code : Int) (text : String) :
    Carries
      (.object
        [("jsonrpc", .string "2.0"), ("id", id),
          ("error", .object [("code", .number (.integer code)), ("message", .string text)])])
      id (some code)

/-- The code of the error that a response reports. -/
def Response.code? (r : Response) : Option Int :=
  match r.outcome with
  | .ok _ => none
  | .error fault => some fault.code.number

/-- A response carries its id, and a result or the code of its error. -/
theorem Response.carries (r : Response) : Carries r.toJson r.id.toJson r.code? := by
  obtain ⟨id, outcome⟩ := r
  cases outcome with
  | ok result => exact .result id.toJson result
  | error fault => exact .error id.toJson fault.code.number fault.message

/-! ## Reading a message -/

/-- Canonical form does not change what can be an id. -/
theorem MessageId.ofJson?_canonical (v : Json) : ofJson? v.canonical = ofJson? v := by
  cases v <;> rfl

/-- An id is echoed as it was given. -/
theorem MessageId.toJson_of_ofJson? {v : Json} {id : MessageId} (h : ofJson? v = some id) :
    id.toJson = v := by
  cases v <;> cases h <;> rfl

/-- What cannot be an id. -/
theorem MessageId.ofJson?_givenId (message : Option Json) :
    (ofJson? (givenId message)).isNone = Ground.badId.appliesTo message := by
  dsimp only [Ground.appliesTo]
  cases givenId message <;> rfl

/-- What stands under a key of a message that has been read. -/
theorem member?_of_canonical {raw : Json} {members : List (String × Json)}
    (h : raw.canonical = .object members) (key : String) :
    Json.member? members key = (raw.last? key).map Json.canonical := by
  rw [← Json.get?_canonical, h]
  rfl

/-- The text under a key of a message is the one that the message gives. -/
theorem text_of_canonical {raw : Json} {members : List (String × Json)}
    (h : raw.canonical = .object members) (key : String) :
    (Json.member? members key).bind Json.asString? = givenText (some raw) key := by
  rw [member?_of_canonical h, givenText, Option.bind_some]
  cases raw.last? key with
  | none => rfl
  | some v => exact Json.asString?_canonical v

/-- The id of a message is the one that the message gives. -/
theorem ofJson?_of_canonical {raw : Json} {members : List (String × Json)}
    (h : raw.canonical = .object members) :
    MessageId.ofJson? ((Json.member? members "id").getD .null) =
      MessageId.ofJson? (givenId (some raw)) := by
  rw [member?_of_canonical h, givenId, Option.bind_some]
  cases raw.last? "id" with
  | none => rfl
  | some v => exact MessageId.ofJson?_canonical v

/-- What reading makes of a message: an error, if the form of the message is a ground for one, or a
request with what the message gives. -/
inductive Request.ReadFrom (message : Option Json) : Except Response Request → Prop where
  | rejected (ground : Ground) (fault : Fault) (id : MessageId)
    (first : Ground.first? message = some ground) (echo : id.toJson = ground.answerId message)
    (code : ground.code? = some fault.code.number) : ReadFrom message (.error ⟨id, .error fault⟩)
  | accepted (r : Request)
    (first : Ground.first? message =
      [.notification, .unknownMethod, .badCall].find? (Ground.appliesTo message))
    (echo : r.id.toJson = givenId message) (method : givenText message "method" = some r.method)
    (params : r.params = (message.bind (·.last? "params")).map Json.canonical) :
    ReadFrom message (.ok r)

/-- What is an object has passed the first two grounds. -/
theorem Ground.first?_of_object {raw : Json} {members : List (String × Json)}
    (h : raw.canonical = .object members) :
    first? (some raw) =
      [.badId, .badVersion, .noMethod, .notification, .unknownMethod, .badCall].find?
        (appliesTo (some raw)) := by
  have hjson : ¬ Ground.notJson.appliesTo (some raw) = true := by simp [appliesTo]
  have hobject : ¬ Ground.notAnObject.appliesTo (some raw) = true := by
    cases raw <;> first | exact Bool.false_ne_true | cases h
  rw [first?, inOrder, List.find?_cons_of_neg hjson, List.find?_cons_of_neg hobject]

/-- **Reading an object.** -/
theorem Request.readFrom_ofMembers {raw : Json} {members : List (String × Json)}
    (hcanonical : raw.canonical = .object members) :
    ReadFrom (some raw) (ofMembers members) := by
  have hfirst := Ground.first?_of_object hcanonical
  have hid := MessageId.ofJson?_givenId (some raw)
  rw [ofMembers, ofJson?_of_canonical hcanonical, text_of_canonical hcanonical,
    text_of_canonical hcanonical]
  cases hgiven : MessageId.ofJson? (givenId (some raw)) with
  | none =>
      have hbad : Ground.badId.appliesTo (some raw) = true := by
        rw [← hid, hgiven]
        rfl
      rw [List.find?_cons_of_pos hbad] at hfirst
      exact .rejected .badId .badId .null hfirst rfl rfl
  | some id =>
      have hecho : id.toJson = givenId (some raw) := MessageId.toJson_of_ofJson? hgiven
      have hgood : ¬ Ground.badId.appliesTo (some raw) = true := by
        rw [← hid, hgiven]
        exact Bool.false_ne_true
      rw [List.find?_cons_of_neg hgood] at hfirst
      dsimp only
      by_cases hversion : givenText (some raw) "jsonrpc" = some version
      · have hcurrent : ¬ Ground.badVersion.appliesTo (some raw) = true := by
          simp [Ground.appliesTo, hversion, version]
        rw [List.find?_cons_of_neg hcurrent] at hfirst
        rw [if_neg (not_not.2 hversion)]
        cases hmethod : givenText (some raw) "method" with
        | none =>
            have hnone : Ground.noMethod.appliesTo (some raw) = true := by
              simp [Ground.appliesTo, hmethod]
            rw [List.find?_cons_of_pos hnone] at hfirst
            exact .rejected .noMethod .noMethod id hfirst hecho rfl
        | some method =>
            have hsome : ¬ Ground.noMethod.appliesTo (some raw) = true := by
              simp [Ground.appliesTo, hmethod]
            rw [List.find?_cons_of_neg hsome] at hfirst
            exact .accepted _ hfirst hecho hmethod (member?_of_canonical hcanonical "params")
      · have hother : Ground.badVersion.appliesTo (some raw) = true := by
          simpa [Ground.appliesTo, version] using hversion
        rw [List.find?_cons_of_pos hother] at hfirst
        rw [if_pos hversion]
        exact .rejected .badVersion (.badVersion _) id hfirst hecho rfl

/-- **Reading octets.** -/
theorem Request.readFrom_parse (octets : Octets) :
    ReadFrom (Json.parseRaw octets).toOption (parse octets) := by
  rw [parse, Json.parse]
  cases Json.parseRaw octets with
  | error e => exact .rejected .notJson (.notJson e) .null rfl rfl rfl
  | ok raw =>
      dsimp only [Except.map, Except.toOption]
      cases hcanonical : raw.canonical with
      | object members => exact readFrom_ofMembers hcanonical
      | null | bool b | number n | string t | array items =>
          have hother : Ground.notAnObject.appliesTo (some raw) = true := by
            cases raw <;> first | rfl | cases hcanonical
          have hjson : ¬ Ground.notJson.appliesTo (some raw) = true := by simp [Ground.appliesTo]
          refine .rejected .notAnObject .notAnObject .null ?_ rfl rfl
          rw [Ground.first?, Ground.inOrder, List.find?_cons_of_neg hjson,
            List.find?_cons_of_pos hother]

/-! ## Answering a request -/

/-- The name of the tool that the parameters of a call give. -/
theorem ToolCall.ofParams_canonical (params : Option Json) :
    let name := (givenText params "name").getD ""
    (name = "" ∧ ∃ fault, ofParams (params.map Json.canonical) = .error fault ∧
      fault.code = .invalidParams) ∨
    name ≠ "" ∧ ∃ call, ofParams (params.map Json.canonical) = .ok call := by
  cases params with
  | none => exact .inl ⟨rfl, .noParams, rfl, rfl⟩
  | some params =>
      dsimp only [Option.map_some, ofParams]
      rw [Json.get?_canonical, givenText, Option.bind_some]
      cases params.last? "name" with
      | none => exact .inl ⟨rfl, .noToolName, rfl, rfl⟩
      | some name =>
          cases name with
          | string tool =>
              by_cases hempty : tool = ""
              · subst hempty
                exact .inl ⟨rfl, .noToolName, rfl, rfl⟩
              · refine .inr ⟨hempty, ?_⟩
                have hnot : tool.isEmpty = false := by simpa using hempty
                simp [Json.canonical, hnot]
          | null | bool b | number n | array items | object members =>
              exact .inl ⟨rfl, .noToolName, rfl, rfl⟩

/-- A command fails only if its tool does. -/
theorem Dispatch.code_of_execute {ctx : ToolContext} {stats : Statistics} {uptime : Nat}
    {c : Command} {fault : Fault} (h : execute ctx stats uptime c = .error fault) :
    fault.code = .toolExecution := by
  cases c with
  | greet | listTools | ping => cases h
  | callTool call =>
      rw [execute, callTool] at h
      split at h
      · cases h
      · cases h
        rfl

/-- The grounds on which a request that is no notification is not carried out. -/
theorem Command.ofRequest_decided {message : Option Json} {r : Request}
    (hmethod : givenText message "method" = some r.method)
    (hparams : r.params = (message.bind (·.last? "params")).map Json.canonical) :
    let ground := [.unknownMethod, .badCall].find? (Ground.appliesTo message)
    (∃ g fault, ground = some g ∧ ofRequest r = .error fault ∧ g.code? = some fault.code.number ∧
      g.answerId message = givenId message) ∨
    ground = none ∧ ∃ c, ofRequest r = .ok c := by
  have hunknown : Ground.unknownMethod.appliesTo message =
      decide (r.method ∉ ["initialize", "tools/list", "tools/call", "ping"]) := by
    simp only [Ground.appliesTo, hmethod]
  by_cases hcall : r.method = "tools/call"
  · have hknown : Ground.unknownMethod.appliesTo message = false := by
      rw [hunknown, hcall]
      decide
    have hofRequest : ofRequest r = (ToolCall.ofParams r.params).map .callTool := by
      rw [ofRequest, hcall, if_neg (by decide), if_neg (by decide), if_pos rfl]
    have hbad : Ground.badCall.appliesTo message =
        decide ((givenText (message.bind (·.last? "params")) "name").getD "" = "") := by
      simp [Ground.appliesTo, hmethod, hcall]
    rw [hofRequest, hparams]
    rcases ToolCall.ofParams_canonical (message.bind (·.last? "params")) with
      ⟨hname, fault, hfault, hcode⟩ | ⟨hname, call, hok⟩
    · refine .inl ⟨.badCall, fault, ?_, ?_, ?_, rfl⟩
      · simp [hknown, hbad, hname]
      · rw [hfault]
        rfl
      · rw [hcode]
        rfl
    · refine .inr ⟨?_, .callTool call, ?_⟩
      · simp [hknown, hbad, hname]
      · rw [hok]
        rfl
  · have hnocall : Ground.badCall.appliesTo message = false := by
      simp [Ground.appliesTo, hmethod, hcall]
    by_cases hother : r.method ∈ ["initialize", "tools/list", "tools/call", "ping"]
    · refine .inr ⟨by simp [hunknown, hother, hnocall], ?_⟩
      rw [ofRequest, if_neg hcall]
      simp only [List.mem_cons, List.not_mem_nil, or_false, hcall, false_or] at hother
      rcases hother with h | h | h
      · exact ⟨.greet, by rw [if_pos h]⟩
      · exact ⟨.listTools, by rw [h, if_neg (by decide), if_pos rfl]⟩
      · exact ⟨.ping, by rw [h, if_neg (by decide), if_neg (by decide), if_pos rfl]⟩
    · refine .inl ⟨.unknownMethod, .unknownMethod r.method, ?_, ?_, rfl, rfl⟩
      · simp [hunknown, hother]
      · simp only [List.mem_cons, List.not_mem_nil, or_false, not_or] at hother
        obtain ⟨hgreet, hlist, _, hping⟩ := hother
        rw [ofRequest, if_neg hgreet, if_neg hlist, if_neg hcall, if_neg hping]

/-- What becomes of a message, given the first ground that applies to it. -/
inductive Ground.Settles (message : Option Json) : Option Ground → Option Response → Prop where
  /-- A notification gets no answer. -/
  | silence : Settles message (some .notification) none
  /-- Any other ground gives its error. -/
  | fault {ground : Ground} {code : Int} {response : Response} (is_error : ground.code? = some code)
    (carries : Carries response.toJson (ground.answerId message) (some code)) :
    Settles message (some ground) (some response)
  /-- Where there is no ground, the answer has the id of the message, and is a result or the failure
  of a tool. -/
  | answer {response : Response}
    (carries : Carries response.toJson (givenId message) none ∨
      Carries response.toJson (givenId message) (some (-32000))) :
    Settles message none (some response)

/-- A fault with the code and the id of a ground settles the message on this ground. -/
theorem Ground.settles_fault {message : Option Json} {ground : Ground} {id : MessageId}
    {fault : Fault} (hid : id.toJson = ground.answerId message)
    (hcode : ground.code? = some fault.code.number) :
    Settles message (some ground) (some ⟨id, .error fault⟩) :=
  .fault hcode (hid ▸ Response.carries ⟨id, .error fault⟩)

/-- **Answering.** -/
theorem Dispatch.settles_respond {message : Option Json} {r : Request} (ctx : ToolContext)
    (stats : Statistics) (uptime : Nat) (hid : r.id.toJson = givenId message)
    (hmethod : givenText message "method" = some r.method)
    (hparams : r.params = (message.bind (·.last? "params")).map Json.canonical) :
    Ground.Settles message
      ([.notification, .unknownMethod, .badCall].find? (Ground.appliesTo message))
      (respond ctx stats uptime r) := by
  have hnotification : Ground.notification.appliesTo message = r.isNotification := by
    simp only [Ground.appliesTo, hmethod, Request.isNotification]
  rw [respond]
  cases hwanted : r.isNotification with
  | true =>
      rw [List.find?_cons_of_pos (hnotification.trans hwanted), if_pos rfl]
      exact .silence
  | false =>
      rw [List.find?_cons_of_neg (by rw [hnotification, hwanted]; simp), if_neg (by simp)]
      rcases Command.ofRequest_decided hmethod hparams with
        ⟨ground, fault, hfirst, hfault, hcode, hecho⟩ | ⟨hnone, c, hcommand⟩
      · rw [hfirst, hfault]
        exact Ground.settles_fault (hid.trans hecho.symm) hcode
      · have hbind :
            (Except.ok c).bind (execute ctx stats uptime) = execute ctx stats uptime c := rfl
        rw [hnone, hcommand, hbind]
        refine .answer ?_
        rw [← hid]
        cases hexecute : execute ctx stats uptime c with
        | ok result => exact .inl (Response.carries ⟨r.id, .ok result⟩)
        | error fault =>
            have hcode : Response.code? ⟨r.id, .error fault⟩ = some (-32000) := by
              dsimp only [Response.code?]
              rw [code_of_execute hexecute]
              rfl
            exact .inr (hcode ▸ Response.carries ⟨r.id, .error fault⟩)

/-- **Every message is decided by the first ground that applies to it**, whatever else is wrong with
it, and whatever the context and the moment are. -/
theorem Dispatch.handle_decided (ctx : ToolContext) (uptime : Nat) (stats : Statistics)
    (octets : Octets) :
    let message := (Json.parseRaw octets).toOption
    Ground.Settles message (Ground.first? message) (handle ctx uptime stats octets).2 := by
  intro message
  have hread : Request.ReadFrom message (Request.parse octets) := Request.readFrom_parse octets
  rw [handle]
  generalize Request.parse octets = result at hread
  cases hread with
  | rejected ground fault id hfirst hecho hcode =>
      rw [hfirst]
      exact Ground.settles_fault hecho hcode
  | accepted r hfirst hecho hmethod hparams =>
      rw [hfirst]
      exact settles_respond ctx _ uptime hecho hmethod hparams

/-- The first ground decides, and the last of repeated members counts. -/
example :
    Ground.first?
      (some (.object [("id", .string "a"), ("jsonrpc", .string "1.0"), ("id", .array [])])) =
        some .badId := by
  decide

end RegistryGraph.Rpc
