import Mathlib.Logic.Relation
import RegistryGraph.Proofs.Service.Isolation

/-!
# Requests that are answered step by step

A service answers many requests at a time.  Between the steps in which one of them is answered, that is
whenever it waits for a part of a body, for the files of a repository or for a lock, all kinds of things
happen to the service.  An `Exchange` is how far the answering of a request has come, and `Exchange.step`
takes the next step.

* `Exchange.leads_respond`: if nothing happens in between, the steps are `Service.respond`.
-/

namespace RegistryGraph

open Service (responseOf sharingHeaders)

/-- How far the answering of a request has come. -/
inductive Exchange where
  /-- Nothing has been done. -/
  | begun
  /-- The body is read: for the session with an id that has been found, or as a message. -/
  | reading (name : RepoName) (id? : Option String) (arrived : Octets) (rest : List BodyPart)
  /-- There is a request for a session, which is looked up once more. -/
  | finding (id : String) (request : Rpc.Request)
  /-- There is a request for the session with a number. -/
  | posting (number : Nat) (request : Rpc.Request)
  /-- The context of a repository is loaded: for a message, or for a stream. -/
  | loading (name : RepoName) (message? : Option Octets)
  | opening (name : RepoName) (context : ToolContext)
  | handling (context : ToolContext) (message : Octets)
  | answered (response : HttpResponse)

namespace Service

/-- Opens a stream on a context that has been loaded. -/
def openOn (s : Service) (name : RepoName) (path : String) (context : ToolContext) :
    Service × Except Refusal HttpResponse :=
  match s.sessions.register? name.text with
  | none => (s, .error .tooManySessions)
  | some (sessions, number) =>
    let id := s.sessions.nextId
    ({ s with sessions, streams := s.streams ++ [.fresh id context path] },
      .ok
        ⟨200,
          [("content-type", "text/event-stream"), ("cache-control", "no-cache"),
            ("connection", "keep-alive"), ("x-accel-buffering", "no"),
            (HttpRequest.sessionHeader, id)],
          .stream number⟩)

/-- Answers a message on a context that has been loaded. -/
def handleOn (s : Service) (uptime : Nat) (context : ToolContext) (message : Octets) :
    Service × Except Refusal HttpResponse :=
  let (statistics, response) := Rpc.Dispatch.handle context uptime s.statistics message
  ({ s with statistics },
    .ok
      (match response with
        | some response => .json 200 response.serialize
        | none => .bare 202))

/-- Posts a request to the session with a number. -/
def postTo (s : Service) (number : Nat) (request : Rpc.Request) :
    Service × Except Refusal HttpResponse :=
  let (sessions, delivery) := s.sessions.post number request
  ({ s with sessions },
    match delivery with
    | .accepted => .ok (.bare 202)
    | .notFound => .error .unknownSession
    | .full | .closed => .error .sessionUnavailable)

end Service

namespace Exchange

/-- A request is answered with a response, without its body if only the head is asked for. -/
def deliver (r : HttpRequest) (response : HttpResponse) : Exchange :=
  .answered (if r.method = "HEAD" then response.withoutBody else response)

/-- A request for a repository comes to an end. -/
def conclude (r : HttpRequest) (outcome : Except Refusal HttpResponse) : Exchange :=
  deliver r ((responseOf outcome).withHeaders sharingHeaders)

/-- What is done first about a request for a repository. -/
def admission (s : Service) (r : HttpRequest) (name : RepoName) : Exchange :=
  match r.method with
  | "OPTIONS" => conclude r (.ok (.bare 204))
  | "GET" => .loading name none
  | "POST" =>
    match r.sessionId? with
    | some id =>
      if s.admits name id then .reading name (some id) [] r.body
      else conclude r (.error .unknownSession)
    | none =>
      if !r.isJson then conclude r (.error .notJson)
      else if !r.acceptsJson then conclude r (.error .notAcceptable)
      else .reading name none [] r.body
  | _ => conclude r (.error .methodNotAllowed)

/-- What is done with a body that has been read. -/
def received (r : HttpRequest) (name : RepoName) (octets : Octets) : Option String → Exchange
  | none => .loading name (some octets)
  | some id =>
    match Rpc.Request.parse octets with
    | .error response => conclude r (.error (.malformed response))
    | .ok request => .finding id request

/-- What is done with a context that has been loaded. -/
def loaded (r : HttpRequest) (name : RepoName) (message? : Option Octets) :
    Except Refusal ToolContext → Exchange
  | .error refusal => conclude r (.error refusal)
  | .ok context =>
    match message? with
    | none => .opening name context
    | some message => .handling context message

/-- The next step in answering a request, on the files as they are at that time. -/
def step (t : FileTree) (uptime : Nat) (r : HttpRequest) (s : Service) : Exchange → Service × Exchange
  | .begun =>
    match Route.ofPath? r.target.path with
    | none => (s, deliver r (.bare 404))
    | some .health => (s, deliver r (Service.health r.method))
    | some (.repository owner repo) =>
      match RepoName.decode owner repo with
      | .error part =>
        (s, deliver r (.plain 400 ("Invalid URL: Invalid UTF-8 in `" ++ part ++ "`")))
      | .ok name => (s, admission s r name)
  | .reading name id? arrived [] => (s, received r name arrived id?)
  | .reading _ _ _ (.failure :: _) => (s, conclude r (.error (.body .broken)))
  | .reading name id? arrived (.data octets :: rest) =>
    if s.settings.maxBodySize < arrived.length + octets.length then
      (s, conclude r (.error (.body .tooLarge)))
    else (s, .reading name id? (arrived ++ octets) rest)
  | .finding id request =>
    match s.sessions.find? id with
    | none => (s, conclude r (.error .unknownSession))
    | some number => (s, .posting number request)
  | .posting number request =>
    ((s.postTo number request).1, conclude r (s.postTo number request).2)
  | .loading name message? =>
    ((s.contextOf t name).1, loaded r name message? (s.contextOf t name).2)
  | .opening name context =>
    ((s.openOn name r.target.path context).1, conclude r (s.openOn name r.target.path context).2)
  | .handling context message =>
    ((s.handleOn uptime context message).1, conclude r (s.handleOn uptime context message).2)
  | .answered response => (s, .answered response)

/-! ## Steps without anything in between -/

/-- What a service and an exchange come to if nothing else happens. -/
def Leads (t : FileTree) (uptime : Nat) (r : HttpRequest) :
    Service × Exchange → Service × Exchange → Prop :=
  Relation.ReflTransGen fun w w' => w.2.step t uptime r w.1 = w'

variable {t : FileTree} {uptime : Nat} {r : HttpRequest} {name : RepoName}

/-- A step leads to what it makes. -/
theorem Leads.one (s : Service) (exchange : Exchange) :
    Leads t uptime r (s, exchange) (exchange.step t uptime r s) :=
  .single rfl

/-- Reading a body part by part is collecting it. -/
theorem leads_reading (s : Service) (id? : Option String) (arrived : Octets)
    (parts : List BodyPart) :
    Leads t uptime r (s, .reading name id? arrived parts)
      (s, match collectBody s.settings.maxBodySize arrived parts with
        | .error fault => conclude r (.error (.body fault))
        | .ok octets => received r name octets id?) := by
  induction parts generalizing arrived with
  | nil => exact .one s _
  | cons part rest ih =>
      cases part with
      | failure => exact .one s _
      | data octets =>
          have hstep : Leads t uptime r (s, .reading name id? arrived (.data octets :: rest)) _ :=
            .one s _
          rw [step] at hstep
          rw [collectBody]
          by_cases hlarge : s.settings.maxBodySize < arrived.length + octets.length
          · rw [if_pos hlarge] at hstep ⊢
            exact hstep
          · rw [if_neg hlarge] at hstep ⊢
            exact hstep.trans (ih (arrived ++ octets))

/-- An exchange that loads for a stream leads to what opening one does. -/
theorem leads_openStream (s : Service) :
    Leads t uptime r (s, .loading name none)
      ((s.openStream t name r.target.path).1, conclude r (s.openStream t name r.target.path).2) := by
  refine (Leads.one s (.loading name none)).trans ?_
  rw [step, Service.openStream]
  rcases s.contextOf t name with ⟨s', refusal | context⟩
  · exact .refl
  · refine (Leads.one s' (.opening name context)).trans ?_
    rw [step, Service.openOn]
    dsimp only
    cases s'.sessions.register? name.text <;> exact .refl

/-- The body of a request as it is read from the start. -/
theorem leads_bodyOf (s : Service) (id? : Option String) :
    Leads t uptime r (s, .reading name id? [] r.body)
      (s, match s.bodyOf r with
        | .error refusal => conclude r (.error refusal)
        | .ok octets => received r name octets id?) := by
  have hread : Leads t uptime r (s, .reading name id? [] r.body) _ :=
    leads_reading s id? [] r.body
  rw [Service.bodyOf]
  cases hbody : collectBody s.settings.maxBodySize [] r.body with
  | error fault => rwa [hbody] at hread
  | ok octets => rwa [hbody] at hread

/-- An exchange that reads for a session leads to what posting to it does. -/
theorem leads_postToSession (s : Service) {id : String} (h : s.admits name id = true) :
    Leads t uptime r (s, .reading name (some id) [] r.body)
      ((s.postToSession name id r).1, conclude r (s.postToSession name id r).2) := by
  have hread : Leads t uptime r (s, .reading name (some id) [] r.body) _ :=
    leads_bodyOf s (some id)
  rw [Service.admits] at h
  rw [Service.postToSession]
  cases hsession : (s.sessions.find? id).bind s.sessions.session? with
  | none =>
      rw [hsession] at h
      cases h
  | some session =>
      rw [hsession] at h
      dsimp only
      rw [if_neg (not_not.2 (of_decide_eq_true h))]
      cases hbody : s.bodyOf r with
      | error refusal => rwa [hbody] at hread
      | ok octets =>
          rw [hbody] at hread
          dsimp only [received] at hread ⊢
          cases hparse : Rpc.Request.parse octets with
          | error response => rwa [hparse] at hread
          | ok request =>
              rw [hparse] at hread
              obtain ⟨number, hfind, _⟩ := Option.bind_eq_some_iff.1 hsession
              have hsend : s.sessions.send id request = s.sessions.post number request := by
                rw [SessionRegistry.send, hfind]
              have hfound : Leads t uptime r (s, .finding id request) _ := .one s _
              rw [step, hfind] at hfound
              refine hread.trans (hfound.trans ((Leads.one s (.posting number request)).trans ?_))
              dsimp only
              rw [step, Service.postTo, hsend]
              rcases s.sessions.post number request with ⟨sessions, delivery⟩
              cases delivery <;> exact .refl

/-- An exchange that reads a message leads to what answering it does. -/
theorem leads_postMessage (s : Service) (hjson : r.isJson = true) (haccepts : r.acceptsJson = true) :
    Leads t uptime r (s, .reading name none [] r.body)
      ((s.postMessage t uptime name r).1, conclude r (s.postMessage t uptime name r).2) := by
  have hread : Leads t uptime r (s, .reading name none [] r.body) _ := leads_bodyOf s none
  rw [Service.postMessage, if_neg (by simp [hjson]), if_neg (by simp [haccepts])]
  cases hbody : s.bodyOf r with
  | error refusal => rwa [hbody] at hread
  | ok octets =>
      rw [hbody] at hread
      refine hread.trans ((Leads.one s (.loading name (some octets))).trans ?_)
      rw [step]
      dsimp only
      rcases s.contextOf t name with ⟨s', refusal | context⟩
      · exact .refl
      · exact Leads.one s' (.handling context octets)

/-- An exchange with a repository leads to what responding does. -/
theorem leads_respondAt (s : Service) :
    Leads t uptime r (s, admission s r name)
      ((s.respondAt t uptime name r).1, conclude r (s.respondAt t uptime name r).2) := by
  rw [Service.respondAt]
  split
  next hoptions =>
    simp only [admission, hoptions]
    exact .refl
  next hget =>
    simp only [admission, hget]
    exact leads_openStream s
  next hpost =>
    simp only [admission, hpost]
    cases r.sessionId? with
    | some id =>
        dsimp only
        cases hadmits : s.admits name id with
        | true => exact leads_postToSession s hadmits
        | false =>
            rw [Service.postToSession_of_not_admits hadmits]
            exact .refl
    | none =>
        dsimp only
        cases hjson : r.isJson with
        | false =>
            rw [Service.postMessage, hjson]
            exact .refl
        | true =>
            cases haccepts : r.acceptsJson with
            | false =>
                rw [Service.postMessage, hjson, haccepts]
                exact .refl
            | true => exact leads_postMessage s hjson haccepts
  next hoptions hget hpost =>
    have hother : admission s r name = conclude r (.error .methodNotAllowed) := by
      rw [admission]
      split
      · next h => exact absurd h hoptions
      · next h => exact absurd h hget
      · next h => exact absurd h hpost
      · rfl
    rw [hother]
    exact .refl

/-- **The steps are the answer.**  If nothing happens in between, an exchange does what
`Service.respond` does. -/
theorem leads_respond (t : FileTree) (uptime : Nat) (r : HttpRequest) (s : Service) :
    Leads t uptime r (s, .begun)
      ((s.respond t uptime r).1, .answered (s.respond t uptime r).2) := by
  have hbegin : Leads t uptime r (s, .begun) _ := .one s _
  rw [step] at hbegin
  rw [Service.respond]
  cases hroute : Route.ofPath? r.target.path with
  | none => rwa [hroute] at hbegin
  | some route =>
      rw [hroute] at hbegin
      cases route with
      | health => exact hbegin
      | repository owner repo =>
          rw [Service.respondOn]
          dsimp only at hbegin ⊢
          cases hname : RepoName.decode owner repo with
          | error part => rwa [hname] at hbegin
          | ok name =>
              rw [hname] at hbegin
              exact hbegin.trans (leads_respondAt s)

end Exchange

end RegistryGraph
