import RegistryGraph.Failure

/-!
# Messages of the protocol

A client sends requests, a server answers with responses.  `Request.parse` reads a request from octets;
whatever is wrong with them becomes a response.  `Request.toJson` and `Response.toJson` are the forms in
which messages travel.
-/

namespace RegistryGraph.Rpc

/-- The version that every message carries. -/
def version : String := "2.0"

/-- What a request is known by. -/
inductive MessageId where
  | null
  | text (s : String)
  | number (n : Json.Number)
deriving DecidableEq, Repr

namespace MessageId

/-- The id as a JSON value. -/
def toJson : MessageId → Json
  | .null => .null
  | .text s => .string s
  | .number n => .number n

/-- The id that a JSON value can be. -/
def ofJson? : Json → Option MessageId
  | .null => some .null
  | .string s => some (.text s)
  | .number n => some (.number n)
  | _ => none

end MessageId

/-- The groups of errors that clients tell apart. -/
inductive ErrorCode where
  | parseError
  | invalidRequest
  | methodNotFound
  | invalidParams
  | internalError
  | toolExecution
deriving DecidableEq, Repr

/-- The number of a group of errors. -/
def ErrorCode.number : ErrorCode → Int
  | .parseError => -32700
  | .invalidRequest => -32600
  | .methodNotFound => -32601
  | .invalidParams => -32602
  | .internalError => -32603
  | .toolExecution => -32000

/-- Why a request gets no result. -/
inductive Fault where
  | notJson (error : Json.Error)
  | notAnObject
  | badId
  /-- The version that the message gives as a text, if it does. -/
  | badVersion (found : Option String)
  | noMethod
  | unknownMethod (method : String)
  | noParams
  | noToolName
  | toolFailed (failure : Failure)
  /-- The tool has a result, but the result has no value. -/
  | noValue (fault : JsonFault)
deriving Repr

namespace Fault

/-- The group of a fault. -/
def code : Fault → ErrorCode
  | .notJson _ => .parseError
  | .notAnObject | .badId | .badVersion _ | .noMethod => .invalidRequest
  | .unknownMethod _ => .methodNotFound
  | .noParams | .noToolName => .invalidParams
  | .toolFailed _ => .toolExecution
  | .noValue _ => .internalError

/-- The wording of a fault. -/
def message : Fault → String
  | .notJson error => s!"failed to parse JSON-RPC request: {error.message}"
  | .notAnObject => "request must be a JSON object"
  | .badId => "id must be a string, number or null"
  | .badVersion found => "unsupported jsonrpc version: " ++ found.getD "<missing>"
  | .noMethod => "missing method"
  | .unknownMethod method => s!"method not found: {method}"
  | .noParams => "missing params for tools/call"
  | .noToolName => "missing 'name' in tools/call params"
  | .toolFailed failure => s!"tool execution failed: {failure.message}"
  | .noValue fault => s!"failed to serialize tool result: {fault.message}"

/-- The fault as a JSON value. -/
def toJson (f : Fault) : Json :=
  .object [("code", .number (.integer f.code.number)), ("message", .string f.message)]

end Fault

/-- An answer to the request with the same id. -/
structure Response where
  id : MessageId
  outcome : Except Fault Json

namespace Response

/-- Whether the response reports a fault. -/
def isError (r : Response) : Bool :=
  match r.outcome with
  | .ok _ => false
  | .error _ => true

/-- The response as a JSON value. -/
def toJson (r : Response) : Json :=
  .object
    [("jsonrpc", .string version), ("id", r.id.toJson),
      match r.outcome with
      | .ok result => ("result", result)
      | .error fault => ("error", fault.toJson)]

/-- The response as it is sent. -/
def serialize (r : Response) : String := r.toJson.compact

end Response

/-- What a client asks for. -/
structure Request where
  id : MessageId
  method : String
  params : Option Json
deriving Repr

namespace Request

/-- Whether the request wants no answer. -/
def isNotification (r : Request) : Bool :=
  "notifications/".toList.isPrefixOf r.method.toList || r.method = "initialized"

/-- The request as a JSON value. -/
def toJson (r : Request) : Json :=
  .object
    ([("jsonrpc", .string version), ("id", r.id.toJson), ("method", .string r.method)] ++
      match r.params with
      | some params => [("params", params)]
      | none => [])

/-- The request as it is sent. -/
def serialize (r : Request) : String := r.toJson.compact

/-- The request in the members of an object, or the response to what is no request. -/
def ofMembers (members : List (String × Json)) : Except Response Request :=
  match MessageId.ofJson? ((Json.member? members "id").getD .null) with
  | none => .error ⟨.null, .error .badId⟩
  | some id =>
    let found := (Json.member? members "jsonrpc").bind Json.asString?
    if found ≠ some version then .error ⟨id, .error (.badVersion found)⟩
    else
      match (Json.member? members "method").bind Json.asString? with
      | none => .error ⟨id, .error .noMethod⟩
      | some method => .ok ⟨id, method, Json.member? members "params"⟩

/-- The request that some octets hold, or the response to what is no request. -/
def parse (octets : Octets) : Except Response Request :=
  match Json.parse octets with
  | .error error => .error ⟨.null, .error (.notJson error)⟩
  | .ok (.object members) => ofMembers members
  | .ok _ => .error ⟨.null, .error .notAnObject⟩

end Request

end RegistryGraph.Rpc
