import RegistryGraph.Http.Message
import RegistryGraph.Service.Loop

/-!
# Answering HTTP requests

Every repository has one address, `/owner/repo/mcp`.  A client opens a stream of events there with `GET`.
With `POST` it sends a request: to its session, if it names one, and then the answer goes into the stream;
otherwise the answer is the response itself.

`Service.respond` answers a request.  A refusal leaves sessions and streams as they were.
-/

namespace RegistryGraph

/-- What a path leads to. -/
inductive Route where
  /-- Whether the service is alive. -/
  | health
  /-- A repository, by the parts of its name as they are encoded in the path. -/
  | repository (owner repo : String)
deriving DecidableEq, Repr

/-- The route of a path. -/
def Route.ofPath? (path : String) : Option Route :=
  match Path.segments path with
  | ["", "healthz"] => some .health
  | ["", owner, repo, "mcp"] =>
    if owner.isEmpty || repo.isEmpty then none else some (.repository owner repo)
  | _ => none

/-- The name of a repository from its encoded parts, or which part encodes no text. -/
def RepoName.decode (owner repo : String) : Except String RepoName :=
  match Percent.decode owner, Percent.decode repo with
  | .ok owner, .ok repo => .ok ⟨owner, repo⟩
  | .error _, _ => .error "owner"
  | .ok _, .error _ => .error "repo"

/-- Why a request gets nothing but a refusal. -/
inductive Refusal where
  | methodNotAllowed
  /-- The body is not declared as JSON. -/
  | notJson
  /-- The client does not accept JSON. -/
  | notAcceptable
  | body (fault : BodyFault)
  | unknownRepository
  | repository (failure : Failure)
  | tooManySessions
  | unknownSession
  | sessionUnavailable
  /-- What is posted to a session is no request; the response says why. -/
  | malformed (response : Rpc.Response)

/-- The methods that the address of a repository allows. -/
def allowedMethods : String := "GET, POST, OPTIONS"

/-- The response to a request that is refused. -/
def Refusal.response : Refusal → HttpResponse
  | .methodNotAllowed =>
    (HttpResponse.plain 405 "method not allowed").withHeaders [("allow", allowedMethods)]
  | .notJson => .plain 415 "Content-Type must be application/json"
  | .notAcceptable => .plain 406 "client must accept application/json"
  | .body .tooLarge => .plain 413 "request body too large"
  | .body .broken => .plain 400 "failed to read request body"
  | .unknownRepository => .plain 404 "repository not found"
  | .repository failure => .plain 500 s!"failed to load repository: {failure.message}"
  | .tooManySessions => .plain 503 "too many sessions"
  | .unknownSession => .plain 404 "unknown session"
  | .sessionUnavailable => .plain 410 "session unavailable"
  | .malformed response => .json 400 response.serialize

namespace HttpRequest

/-- The header field that carries the id of a session. -/
def sessionHeader : String := "mcp-session-id"

/-- The field of a query that carries the id of a session. -/
def sessionField : String := "sessionId"

/-- The id of the session that a request names, in a header field or else in its query. -/
def sessionId? (r : HttpRequest) : Option String :=
  let id? :=
    match (r.header? sessionHeader).bind headerText? with
    | some id => some (String.ofList id)
    | none => r.target.field? sessionField
  id?.filter fun id => !id.isEmpty

/-- Whether the body of a request is declared as JSON. -/
def isJson (r : HttpRequest) : Bool :=
  match (r.header? "content-type").bind headerText? with
  | some value => mediaType value = "application/json"
  | none => false

/-- Whether the client of a request accepts JSON; a client that does not say accepts anything. -/
def acceptsJson (r : HttpRequest) : Bool :=
  match r.header? "accept" with
  | none => true
  | some value =>
    match headerText? value with
    | none => false
    | some cs =>
      (Text.trimChars cs).isEmpty ||
        (Text.pieces ',' cs).any fun range =>
          ["application/json", "application/*", "*/*"].contains (mediaType range)

end HttpRequest

namespace Service

/-- The context of a repository, or why there is none. -/
def contextOf (s : Service) (t : FileTree) (name : RepoName) :
    Service × Except Refusal ToolContext :=
  match s.store.directory? t name with
  | none => (s, .error .unknownRepository)
  | some _ =>
    let (s, outcome) := s.loadContext t name
    (s, outcome.mapError .repository)

/-- The address to which the client of a session posts. -/
def postAddress (path id : String) : String := path ++ "?" ++ HttpRequest.sessionField ++ "=" ++ id

/-- Opens a stream of events on a repository that was asked for with `path`. -/
def openStream (s : Service) (t : FileTree) (name : RepoName) (path : String) :
    Service × Except Refusal HttpResponse :=
  let (s, outcome) := s.contextOf t name
  match outcome with
  | .error refusal => (s, .error refusal)
  | .ok context =>
    match s.sessions.register? name.text with
    | none => (s, .error .tooManySessions)
    | some (sessions, number) =>
      let id := s.sessions.nextId
      let stream : EventStream :=
        { id, context, address := postAddress path id, phase := .announcing, buffer := [],
          connected := true }
      ({ s with sessions, streams := s.streams ++ [stream] },
        .ok
          ⟨200,
            [("content-type", "text/event-stream"), ("cache-control", "no-cache"),
              ("connection", "keep-alive"), ("x-accel-buffering", "no"),
              (HttpRequest.sessionHeader, id)],
            .stream number⟩)

/-- The body of a request. -/
def bodyOf (s : Service) (r : HttpRequest) : Except Refusal Octets :=
  (collectBody s.settings.maxBodySize [] r.body).mapError .body

/-- Queues the request in a body on a session, which must have been opened on the same repository. -/
def postToSession (s : Service) (name : RepoName) (id : String) (r : HttpRequest) :
    Service × Except Refusal HttpResponse :=
  match (s.sessions.find? id).bind s.sessions.session? with
  | none => (s, .error .unknownSession)
  | some session =>
    if session.repo ≠ name.text then (s, .error .unknownSession)
    else
      match s.bodyOf r with
      | .error refusal => (s, .error refusal)
      | .ok octets =>
        match Rpc.Request.parse octets with
        | .error response => (s, .error (.malformed response))
        | .ok request =>
          let (sessions, delivery) := s.sessions.send id request
          let s := { s with sessions }
          match delivery with
          | .accepted => (s, .ok (.bare 202))
          | .notFound => (s, .error .unknownSession)
          | .full | .closed => (s, .error .sessionUnavailable)

/-- Answers the message in a body. A notification is accepted without an answer. -/
def postMessage (s : Service) (t : FileTree) (uptime : Nat) (name : RepoName) (r : HttpRequest) :
    Service × Except Refusal HttpResponse :=
  if !r.isJson then (s, .error .notJson)
  else if !r.acceptsJson then (s, .error .notAcceptable)
  else
    match s.bodyOf r with
    | .error refusal => (s, .error refusal)
    | .ok octets =>
      let (s, outcome) := s.contextOf t name
      match outcome with
      | .error refusal => (s, .error refusal)
      | .ok context =>
        let (statistics, response) := Rpc.Dispatch.handle context uptime s.statistics octets
        ({ s with statistics },
          .ok
            (match response with
              | some response => .json 200 response.serialize
              | none => .bare 202))

/-- Answers a request for a repository. -/
def respondAt (s : Service) (t : FileTree) (uptime : Nat) (name : RepoName) (r : HttpRequest) :
    Service × Except Refusal HttpResponse :=
  match r.method with
  | "OPTIONS" => (s, .ok (.bare 204))
  | "GET" => s.openStream t name r.target.path
  | "POST" =>
    match r.sessionId? with
    | some id => s.postToSession name id r
    | none => s.postMessage t uptime name r
  | _ => (s, .error .methodNotAllowed)

/-- The header fields that let pages of other sites use the service. -/
def sharingHeaders : List (String × String) :=
  [("access-control-allow-origin", "*"), ("access-control-allow-methods", allowedMethods),
    ("access-control-allow-headers", "Content-Type, Accept, Mcp-Session-Id"),
    ("access-control-expose-headers", "Mcp-Session-Id")]

/-- Tells that the service is alive. -/
def health (method : String) : HttpResponse :=
  match method with
  | "GET" | "HEAD" => .json 200 (Json.record [("status", .string "ok")]).compact
  | _ => (HttpResponse.bare 405).withHeaders [("allow", "GET,HEAD")]

/-- Answers a request that leads to a route. -/
def respondOn (s : Service) (t : FileTree) (uptime : Nat) (r : HttpRequest) :
    Option Route → Service × HttpResponse
  | none => (s, .bare 404)
  | some .health => (s, health r.method)
  | some (.repository owner repo) =>
    match RepoName.decode owner repo with
    | .error part => (s, .plain 400 ("Invalid URL: Invalid UTF-8 in `" ++ part ++ "`"))
    | .ok name =>
      let (s, outcome) := s.respondAt t uptime name r
      let response :=
        match outcome with
        | .ok response => response
        | .error refusal => refusal.response
      (s, response.withHeaders sharingHeaders)

/-- Answers a request. -/
def respond (s : Service) (t : FileTree) (uptime : Nat) (r : HttpRequest) :
    Service × HttpResponse :=
  let (s, response) := s.respondOn t uptime r (Route.ofPath? r.target.path)
  (s, if r.method = "HEAD" then response.withoutBody else response)

end Service

end RegistryGraph
