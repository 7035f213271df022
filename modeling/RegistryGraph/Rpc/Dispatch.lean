import RegistryGraph.Rpc.Message
import RegistryGraph.Rpc.Statistics
import RegistryGraph.Tool.Call

/-!
# Answering messages

`Dispatch.handle` answers one message on a context.  It counts what the message asks for, answers, and
counts the error if the answer is one; `openingOf` and `closing` are these increments.  A notification
gets no answer.
-/

namespace RegistryGraph.Rpc

/-- A call of a tool. -/
structure ToolCall where
  tool : String
  arguments : Json
deriving Repr

/-- The call that the parameters of a request describe. -/
def ToolCall.ofParams : Option Json → Except Fault ToolCall
  | none => .error .noParams
  | some params =>
    match params.get? "name" with
    | some (.string tool) =>
      if tool.isEmpty then .error .noToolName
      else
        .ok ⟨tool,
          match params.get? "arguments" with
          | some .null | none => .object []
          | some arguments => arguments⟩
    | _ => .error .noToolName

/-- What a request asks for. -/
inductive Command where
  | greet
  | listTools
  | callTool (call : ToolCall)
  | ping
deriving Repr

namespace Command

/-- The command of a request. -/
def ofRequest (r : Request) : Except Fault Command :=
  if r.method = "initialize" then .ok .greet
  else if r.method = "tools/list" then .ok .listTools
  else if r.method = "tools/call" then (ToolCall.ofParams r.params).map .callTool
  else if r.method = "ping" then .ok .ping
  else .error (.unknownMethod r.method)

end Command

namespace Dispatch

/-- The increments before the answer. -/
def openingOf (r : Request) : List Increment :=
  .request ::
    if r.isNotification then []
    else
      match Command.ofRequest r with
      | .ok (.callTool call) => [.toolCall, .callOf call.tool]
      | _ => []

/-- The increments after the answer. -/
def closing : Option Response → List Increment
  | some response => if response.isError then [.error] else []
  | none => []

/-- What a server says about itself first. -/
def greeting (ctx : ToolContext) : Json :=
  .record
    [("protocolVersion", .string protocolVersion),
      ("capabilities", .record [("tools", .object [])]),
      ("serverInfo",
        .record [("name", .string ctx.server.name), ("version", .string programVersion)]),
      ("instructions", .string ctx.server.instructions)]

/-- Calls a tool; the one that reports statistics sees those of the moment. -/
def callTool (ctx : ToolContext) (stats : Statistics) (uptime : Nat) (call : ToolCall) :
    Except Fault Json :=
  let ctx :=
    if call.tool = Tool.identify.name then { ctx with serverStats := some (stats.toJson uptime) }
    else ctx
  match Tool.call ctx call.tool call.arguments with
  | .ok result => result.toValue.mapError fun fault => .noValue (.shape fault)
  | .error failure => .error (.toolFailed failure)

/-- Carries out a command. -/
def execute (ctx : ToolContext) (stats : Statistics) (uptime : Nat) :
    Command → Except Fault Json
  | .greet => .ok (greeting ctx)
  | .listTools => .ok (.record [("tools", .array (Tool.all.map Tool.definition))])
  | .callTool call => callTool ctx stats uptime call
  | .ping => .ok (.object [])

/-- The answer to a request. -/
def respond (ctx : ToolContext) (stats : Statistics) (uptime : Nat) (r : Request) :
    Option Response :=
  if r.isNotification then none
  else some ⟨r.id, (Command.ofRequest r).bind (execute ctx stats uptime)⟩

/-- Answers a request. -/
def handleRequest (ctx : ToolContext) (uptime : Nat) (stats : Statistics) (r : Request) :
    Statistics × Option Response :=
  let stats := stats.countAll (openingOf r)
  let response := respond ctx stats uptime r
  (stats.countAll (closing response), response)

/-- Answers a message. -/
def handle (ctx : ToolContext) (uptime : Nat) (stats : Statistics) (message : Octets) :
    Statistics × Option Response :=
  match Request.parse message with
  | .ok r => handleRequest ctx uptime stats r
  | .error response => (stats.countAll [.request, .error], some response)

end Dispatch

end RegistryGraph.Rpc
