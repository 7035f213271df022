import RegistryGraph.Proofs.Session.Registry
import RegistryGraph.Service.Answer

/-!
# What requests do to sessions

A request to a service leaves the sessions and streams as they are, opens one more, or queues a request
on a session; `Service.handled_respond` says which, and what the response looks like in each case.

* `Service.handled_respond`: what a request does.
* `Service.admits_handled`: which of these open a session.
* `Service.respond_of_context`: when a stream is opened.
-/

namespace RegistryGraph

/-- The repository that the path of a request leads to. -/
def HttpRequest.repository? (r : HttpRequest) : Option RepoName :=
  match Route.ofPath? r.target.path with
  | some (.repository owner repo) => (RepoName.decode owner repo).toOption
  | _ => none

/-- A stream that has just been opened. -/
def EventStream.fresh (id : String) (context : ToolContext) (path : String) : EventStream :=
  ⟨id, context, Service.postAddress path id, .announcing, [], true⟩

namespace Service

variable {s s' : Service} {t : FileTree} {uptime : Nat} {name : RepoName} {r : HttpRequest}
  {response : HttpResponse}

/-- **What a request does to the sessions and streams.**  It leaves them as they are, opens a session
with a stream, or queues a request on a session. -/
inductive Handled (s : Service) (t : FileTree) (r : HttpRequest) :
    Service → HttpResponse → Prop where
  | kept {s' : Service} {response : HttpResponse} (sessions_eq : s'.sessions = s.sessions)
      (streams_eq : s'.streams = s.streams) (unopened : ∀ n, response.body ≠ .stream n)
      (unqueued : r.method = "POST" → r.sessionId?.isSome → response.status ≠ 202) :
      Handled s t r s' response
  | opened {s' : Service} {response : HttpResponse} {name : RepoName} {context : ToolContext}
      {sessions : SessionRegistry} {number : Nat} (get : r.method = "GET")
      (leads : r.repository? = some name) (loaded : (s.contextOf t name).2 = .ok context)
      (registered : s.sessions.register? name.text = some (sessions, number))
      (sessions_eq : s'.sessions = sessions)
      (streams_eq : s'.streams =
        s.streams ++ [.fresh (s.sessions.nextId) context r.target.path])
      (status_eq : response.status = 200) (body_eq : response.body = .stream number)
      (tells : (HttpRequest.sessionHeader, s.sessions.nextId) ∈ response.headers) :
      Handled s t r s' response
  | queued {s' : Service} {response : HttpResponse} {id : String} {number : Nat} {octets : Octets}
      {request : Rpc.Request} (post : r.method = "POST") (names : r.sessionId? = some id)
      (found : s.sessions.find? id = some number) (body_ok : s.bodyOf r = .ok octets)
      (parsed : Rpc.Request.parse octets = .ok request)
      (accepted : s.sessions.post number request = (s'.sessions, .accepted))
      (streams_eq : s'.streams = s.streams) (unopened : ∀ n, response.body ≠ .stream n)
      (status_eq : response.status = 202) : Handled s t r s' response

/-- The response that an outcome stands for. -/
def responseOf : Except Refusal HttpResponse → HttpResponse
  | .ok response => response
  | .error refusal => refusal.response

/-- A refusal is no acceptance and opens no stream. -/
theorem kept_of_refusal (s : Service) (refusal : Refusal)
    (hsessions : s'.sessions = s.sessions) (hstreams : s'.streams = s.streams) :
    Handled s t r s' (responseOf (.error refusal)) := by
  refine .kept hsessions hstreams ?_ ?_
  · intro n hbody
    cases refusal with
    | body fault => cases fault <;> cases hbody
    | _ => cases hbody
  · intro _ _
    change refusal.response.status ≠ 202
    cases refusal with
    | body fault => cases fault <;> decide
    | repository failure => exact (by decide : (500 : Nat) ≠ 202)
    | malformed response => exact (by decide : (400 : Nat) ≠ 202)
    | methodNotAllowed | notJson | notAcceptable | unknownRepository | tooManySessions
    | unknownSession | sessionUnavailable => decide

/-- Finding a context touches neither sessions nor streams. -/
theorem contextOf_keeps (s : Service) (t : FileTree) (name : RepoName) :
    (s.contextOf t name).1.sessions = s.sessions ∧ (s.contextOf t name).1.streams = s.streams := by
  unfold contextOf
  split
  · exact ⟨rfl, rfl⟩
  · unfold loadContext
    dsimp only
    split <;> exact ⟨rfl, rfl⟩

/-- Opening a stream is one of the things that a request does. -/
theorem handled_openStream (hget : r.method = "GET") (hname : r.repository? = some name) :
    Handled s t r (s.openStream t name r.target.path).1
      (responseOf (s.openStream t name r.target.path).2) := by
  obtain ⟨hsessions, hstreams⟩ := contextOf_keeps s t name
  unfold openStream
  cases hcontext : s.contextOf t name with
  | mk s₁ outcome =>
      rw [hcontext] at hsessions hstreams
      dsimp only at hsessions hstreams ⊢
      cases outcome with
      | error refusal => exact kept_of_refusal s refusal hsessions hstreams
      | ok context =>
          dsimp only
          cases hregister : s₁.sessions.register? name.text with
          | none => exact kept_of_refusal s .tooManySessions hsessions hstreams
          | some registered =>
              obtain ⟨sessions, number⟩ := registered
              rw [hsessions] at hregister
              refine .opened hget hname (by rw [hcontext]) hregister rfl ?_ rfl rfl ?_
              · rw [← hstreams, ← hsessions]
                rfl
              · rw [← hsessions]
                simp [responseOf]

/-- Posting to a session is one of the things that a request does. -/
theorem handled_postToSession {id : String} (hpost : r.method = "POST")
    (hid : r.sessionId? = some id) :
    Handled s t r (s.postToSession name id r).1 (responseOf (s.postToSession name id r).2) := by
  unfold postToSession
  cases hsession : (s.sessions.find? id).bind s.sessions.session? with
  | none => exact kept_of_refusal s .unknownSession rfl rfl
  | some session =>
      obtain ⟨number, hfind, _⟩ := Option.bind_eq_some_iff.1 hsession
      dsimp only
      split
      · exact kept_of_refusal s .unknownSession rfl rfl
      · cases hbody : s.bodyOf r with
        | error refusal => exact kept_of_refusal s refusal rfl rfl
        | ok octets =>
            dsimp only
            cases hparse : Rpc.Request.parse octets with
            | error response => exact kept_of_refusal s (.malformed response) rfl rfl
            | ok request =>
                have hsend : s.sessions.send id request = s.sessions.post number request := by
                  rw [SessionRegistry.send, hfind]
                dsimp only
                rw [hsend]
                have hrefused : (s.sessions.post number request).2 ≠ .accepted →
                    (s.sessions.post number request).1 = s.sessions :=
                  SessionRegistry.post_of_not_accepted
                cases hdelivery : s.sessions.post number request with
                | mk sessions delivery =>
                    rw [hdelivery] at hrefused
                    cases delivery with
                    | accepted =>
                        exact .queued hpost hid hfind hbody hparse hdelivery rfl nofun rfl
                    | notFound =>
                        exact kept_of_refusal s .unknownSession (hrefused nofun) rfl
                    | full => exact kept_of_refusal s .sessionUnavailable (hrefused nofun) rfl
                    | closed => exact kept_of_refusal s .sessionUnavailable (hrefused nofun) rfl

/-- Answering a message is one of the things that a request does. -/
theorem handled_postMessage (hid : r.sessionId? = none) :
    Handled s t r (s.postMessage t uptime name r).1
      (responseOf (s.postMessage t uptime name r).2) := by
  have hunqueued : ∀ {response : HttpResponse}, r.method = "POST" → r.sessionId?.isSome →
      response.status ≠ 202 := by
    intro _ _ hsome
    rw [hid] at hsome
    cases hsome
  obtain ⟨hsessions, hstreams⟩ := contextOf_keeps s t name
  unfold postMessage
  split
  · exact kept_of_refusal s .notJson rfl rfl
  · split
    · exact kept_of_refusal s .notAcceptable rfl rfl
    · cases s.bodyOf r with
      | error refusal => exact kept_of_refusal s refusal rfl rfl
      | ok octets =>
          dsimp only
          cases hcontext : s.contextOf t name with
          | mk s₁ outcome =>
              rw [hcontext] at hsessions hstreams
              cases outcome with
              | error refusal => exact kept_of_refusal s refusal hsessions hstreams
              | ok context =>
                  refine .kept hsessions hstreams ?_ hunqueued
                  intro n hbody
                  dsimp only [responseOf] at hbody
                  split at hbody <;> cases hbody

/-- Whatever is done about a request for a repository is one of the things that a request does. -/
theorem handled_respondAt (hname : r.repository? = some name) :
    Handled s t r (s.respondAt t uptime name r).1
      (responseOf (s.respondAt t uptime name r).2) := by
  unfold respondAt
  split
  next hoptions =>
    refine .kept rfl rfl nofun ?_
    intro _ _
    exact (by decide : (204 : Nat) ≠ 202)
  next hget => exact handled_openStream hget hname
  next hpost =>
    split
    next id hid => exact handled_postToSession hpost hid
    next hid => exact handled_postMessage hid
  next => exact kept_of_refusal s .methodNotAllowed rfl rfl

/-- Headers do not change what a request does. -/
theorem Handled.withHeaders (h : Handled s t r s' response) (headers : List (String × String)) :
    Handled s t r s' (response.withHeaders headers) := by
  cases h with
  | kept hsessions hstreams hunopened hunqueued =>
      exact .kept hsessions hstreams hunopened hunqueued
  | opened hget hleads hloaded hregistered hsessions hstreams hstatus hbody htells =>
      exact .opened hget hleads hloaded hregistered hsessions hstreams hstatus hbody
        (List.mem_append_left _ htells)
  | queued hpost hnames hfound hbody hparsed haccepted hstreams hunopened hstatus =>
      exact .queued hpost hnames hfound hbody hparsed haccepted hstreams hunopened hstatus

/-- A request is handled on every route. -/
theorem handled_respondOn {route : Option Route} (hroute : Route.ofPath? r.target.path = route) :
    Handled s t r (s.respondOn t uptime r route).1 (s.respondOn t uptime r route).2 := by
  cases route with
  | none =>
      refine .kept rfl rfl nofun ?_
      intro _ _
      exact (by decide : (404 : Nat) ≠ 202)
  | some route =>
      cases route with
      | health =>
          refine .kept rfl rfl ?_ ?_
          · intro n hbody
            unfold respondOn health at hbody
            dsimp only at hbody
            split at hbody <;> cases hbody
          · intro hpost _
            change (health r.method).status ≠ 202
            rw [hpost]
            decide
      | repository owner repo =>
          unfold respondOn
          dsimp only
          cases hdecode : RepoName.decode owner repo with
          | error part =>
              refine .kept rfl rfl nofun ?_
              intro _ _
              exact (by decide : (400 : Nat) ≠ 202)
          | ok name =>
              have hname : r.repository? = some name := by
                rw [HttpRequest.repository?, hroute]
                dsimp only
                rw [hdecode]
                rfl
              exact (handled_respondAt hname).withHeaders sharingHeaders

/-- **A request is handled.** -/
theorem handled_respond (s : Service) (t : FileTree) (uptime : Nat) (r : HttpRequest) :
    Handled s t r (s.respond t uptime r).1 (s.respond t uptime r).2 := by
  have hon : Handled s t r (s.respondOn t uptime r (Route.ofPath? r.target.path)).1
      (s.respondOn t uptime r (Route.ofPath? r.target.path)).2 := handled_respondOn rfl
  unfold respond
  generalize s.respondOn t uptime r (Route.ofPath? r.target.path) = outcome at hon ⊢
  obtain ⟨s', response⟩ := outcome
  dsimp only at hon ⊢
  split
  next hhead =>
    cases hon with
    | kept hsessions hstreams _ hunqueued => exact .kept hsessions hstreams nofun hunqueued
    | opened hget =>
        rw [hhead] at hget
        exact absurd hget (by decide)
    | queued hpost =>
        rw [hhead] at hpost
        exact absurd hpost (by decide)
  next => exact hon

/-- **What a request, or one step of it, does to sessions and streams**, and which response is given.
Either no session is opened or closed and no stream touched, or one of each is opened. -/
inductive Admits (s : Service) (r : HttpRequest) (s' : Service) (response? : Option HttpResponse) :
    Prop where
  | keeps (same : s'.sessions = s.sessions ∨
        ∃ number request, s'.sessions = (s.sessions.post number request).1)
      (streams_eq : s'.streams = s.streams)
      (unopened : ∀ response, response? = some response → ∀ n, response.body ≠ .stream n)
  | opens {repo path : String} {context : ToolContext} {sessions : SessionRegistry} {number : Nat}
      {response : HttpResponse} (get : r.method = "GET")
      (registered : s.sessions.register? repo = some (sessions, number))
      (sessions_eq : s'.sessions = sessions)
      (streams_eq : s'.streams = s.streams ++ [.fresh (s.sessions.nextId) context path])
      (given : response? = some response) (status_eq : response.status = 200)
      (body_eq : response.body = .stream number)

/-- A request that is handled at once is admitted. -/
theorem admits_handled {t : FileTree} {r : HttpRequest} {response : HttpResponse}
    (h : s.Handled t r s' response) : s.Admits r s' (some response) := by
  cases h with
  | kept hsessions hstreams hunopened =>
      exact .keeps (.inl hsessions) hstreams fun _ hgiven => Option.some.inj hgiven ▸ hunopened
  | opened hget _ _ hregistered hsessions hstreams hstatus hbody =>
      exact .opens hget hregistered hsessions hstreams rfl hstatus hbody
  | @queued id number octets request _ _ _ _ _ haccepted hstreams hunopened =>
      have hsessions : s'.sessions = (s.sessions.post number request).1 := by rw [haccepted]
      exact .keeps (.inr ⟨number, request, hsessions⟩) hstreams fun _ hgiven =>
        Option.some.inj hgiven ▸ hunopened

/-- What a path leads to, if it leads to a repository. -/
theorem route_of_repository? (hname : r.repository? = some name) :
    ∃ owner repo, Route.ofPath? r.target.path = some (.repository owner repo) ∧
      RepoName.decode owner repo = .ok name := by
  rw [HttpRequest.repository?] at hname
  cases hroute : Route.ofPath? r.target.path with
  | none => rw [hroute] at hname; cases hname
  | some route =>
      cases route with
      | health => rw [hroute] at hname; cases hname
      | repository owner repo =>
          rw [hroute] at hname
          dsimp only at hname
          cases hdecode : RepoName.decode owner repo with
          | error part => rw [hdecode] at hname; cases hname
          | ok name' =>
              rw [hdecode] at hname
              obtain rfl : name' = name := Option.some.inj hname
              exact ⟨owner, repo, rfl, hdecode⟩

/-- A request for a repository is answered there, and pages of other sites may see the answer. -/
theorem respond_of_repository (hname : r.repository? = some name) (hhead : r.method ≠ "HEAD") :
    s.respond t uptime r =
      ((s.respondAt t uptime name r).1,
        (responseOf (s.respondAt t uptime name r).2).withHeaders sharingHeaders) := by
  obtain ⟨owner, repo, hroute, hdecode⟩ := route_of_repository? hname
  rw [respond, hroute]
  simp only [respondOn, hdecode]
  rw [if_neg hhead]
  rfl

/-- A request for the events of a repository opens a stream, if there is a context and room for one more
session. -/
theorem respond_of_context {s₁ : Service} {owner repo : String} {context : ToolContext}
    {sessions : SessionRegistry} {number : Nat} (hget : r.method = "GET")
    (hroute : Route.ofPath? r.target.path = some (.repository owner repo))
    (hname : RepoName.decode owner repo = .ok name)
    (hcontext : s.contextOf t name = (s₁, .ok context))
    (hregister : s₁.sessions.register? name.text = some (sessions, number)) :
    (s.respond t uptime r).1 =
        { s₁ with
          sessions
          streams :=
            s₁.streams ++ [.fresh (s₁.sessions.nextId) context r.target.path] } ∧
      (s.respond t uptime r).2.body = .stream number := by
  unfold respond
  rw [hroute]
  unfold respondOn
  dsimp only
  rw [hname]
  dsimp only
  unfold respondAt
  rw [hget]
  simp only [openStream, hcontext, hregister]
  exact ⟨rfl, rfl⟩

/-- Every session has a stream with its number, and the stream has the draw with that number for its id. -/
structure Sound (s : Service) : Prop where
  sessions : s.sessions.Sound
  length_eq : s.streams.length = s.sessions.sessions.length
  id_eq : ∀ n stream, s.streams[n]? = some stream → stream.id = s.sessions.ids.draw n

/-- A service that has not answered anything is sound. -/
theorem sound_start (settings : Settings) (root : String) (supply : IdSupply) :
    (start settings root supply).Sound where
  sessions :=
    SessionRegistry.sound_ofLimits supply settings.maxSessions settings.queueCapacity
  length_eq := rfl
  id_eq := by
    intro n stream hstream
    simp [start] at hstream

end Service

end RegistryGraph
