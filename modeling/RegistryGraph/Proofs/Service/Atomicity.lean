import RegistryGraph.Proofs.Service.Exchange

/-!
# Requests take effect once or not at all

While requests are answered step by step, loops serve their streams, clients come and go, and sessions are
unregistered.  Of all the steps in which one request is answered, at most one touches the registry: the
last step of a request that is posted to a session and accepted, which puts it at the end of what waits
there, or the last step of a request for a stream, which opens one session.  A request that is answered
in any other way has left the registry and everything that waits as it was, in each of its steps.

* `SessionRegistry.Moves`: what can happen to a registry.
* `Exchange.does_step`: what one step does.
* `SharedService.atomic_run`: what the steps of a request do altogether.
-/

namespace RegistryGraph

/-! ## Moves of a registry -/

/-- What happens to a registry at one time. -/
inductive SessionRegistry.Moves (r : SessionRegistry) : SessionRegistry → Prop where
  | stay : Moves r r
  | post (number : Nat) (request : Rpc.Request) : Moves r (r.post number request).1
  | register {repo : String} {r' : SessionRegistry} {number : Nat}
      (registered : r.register? repo = some (r', number)) : Moves r r'
  | unregister (id : String) : Moves r (r.unregister id)
  | receive (number : Nat) : Moves r (r.receive number).1

namespace SessionRegistry

variable {r r' : SessionRegistry} {n : Nat} {session : Session} {id repo : String}

/-- A registry that stays as it is moves in one of the possible ways. -/
theorem Moves.of_eq (h : r' = r) : r.Moves r' := h ▸ .stay

/-- What happens to a registry keeps it linked. -/
theorem Moves.linked (h : r.Moves r') (hlinked : r.Linked) : r'.Linked := by
  cases h with
  | stay => exact hlinked
  | post number request => exact hlinked.post number request
  | register hregister => exact hlinked.register hregister
  | unregister id => exact hlinked.unregister id
  | receive number => exact hlinked.receive number

/-- A session keeps its id and its repository. -/
theorem Moves.session? (h : r.Moves r') (hsession : r.session? n = some session) :
    ∃ session', r'.session? n = some session' ∧ session'.id = session.id ∧
      session'.repo = session.repo := by
  cases h with
  | stay => exact ⟨session, hsession, rfl, rfl⟩
  | post number request =>
      refine ⟨_, by rw [session?_post_eq, hsession, Option.map_some], ?_⟩
      obtain ⟨hid, hrepo, _⟩ := Session.post_frame r.inboxLimit request session
      split
      · exact ⟨hid, hrepo⟩
      · exact ⟨rfl, rfl⟩
  | register hregister =>
      have hnumber := (register?_eq_some hregister).1
      have hlt : n < r.sessions.length := (List.getElem?_eq_some_iff.1 hsession).1
      exact ⟨session, by rw [session?_register hregister, if_neg (by omega), hsession], rfl, rfl⟩
  | unregister id =>
      rcases session?_unregister id hsession with hsame | hclosed
      · exact ⟨session, hsame, rfl, rfl⟩
      · exact ⟨session.close, hclosed, rfl, rfl⟩
  | receive number =>
      refine ⟨_, by rw [session?_receive, hsession, Option.map_some], ?_⟩
      obtain ⟨hid, hrepo, _⟩ := Session.receive_frame session
      split
      · exact ⟨hid, hrepo⟩
      · exact ⟨rfl, rfl⟩

/-- What happens to a registry does not change where its ids come from. -/
theorem Moves.freshlyLinked (h : r.Moves r') (hlinked : r.FreshlyLinked) : r'.FreshlyLinked := by
  have hids : r'.ids = r.ids := by
    cases h with
    | stay => rfl
    | post number request => exact (post_keeps r number request).1
    | register hregister => exact (register?_eq_some hregister).2.1.1
    | unregister id => exact (unregister_keeps r id).1
    | receive number => exact (receive_keeps r number).1
  exact ⟨h.linked hlinked.toLinked, by rw [hids]; exact hlinked.fresh⟩

/-- Whether there is, or was, a session with an id on a repository. -/
def Knows (r : SessionRegistry) (id repo : String) : Prop :=
  ∃ n session, r.session? n = some session ∧ session.id = id ∧ session.repo = repo

/-- What happens to a registry makes it forget no session. -/
theorem Knows.moves (h : r.Knows id repo) (hmoves : r.Moves r') : r'.Knows id repo := by
  obtain ⟨n, session, hsession, rfl, rfl⟩ := h
  obtain ⟨session', hsession', hid, hrepo⟩ := hmoves.session? hsession
  exact ⟨n, session', hsession', hid, hrepo⟩

end SessionRegistry

namespace Service

variable {s s' : Service}

/-- A step of a stream's loop moves the registry. -/
theorem moves_loopStep? {uptime n : Nat} {step : LoopStep}
    (h : s.loopStep? uptime n step = some s') : s.sessions.Moves s'.sessions := by
  rw [loopStep?, Option.bind_eq_some_iff] at h
  obtain ⟨stream, _, h⟩ := h
  split at h
  · cases h
    exact .stay
  · rw [serveNext?] at h
    split at h
    next sessions request hreceive =>
      cases h
      have hsessions : sessions = (s.sessions.receive n).1 := by rw [hreceive]
      exact hsessions ▸ .receive n
    next => cases h
  · cases h
    exact .stay
  · rw [Option.ite_none_right_eq_some] at h
    cases h.2
    exact .stay
  · dsimp only at h
    rw [Option.ite_none_right_eq_some] at h
    cases h.2
    exact .unregister stream.id
  · cases h

/-- A request that is handled moves the registry. -/
theorem moves_handled {t : FileTree} {r : HttpRequest} {response : HttpResponse}
    (h : s.Handled t r s' response) : s.sessions.Moves s'.sessions := by
  cases h with
  | kept hsessions => exact .of_eq hsessions
  | opened _ _ _ hregistered hsessions => exact .register (hsessions ▸ hregistered)
  | @queued id number octets request _ _ _ _ _ haccepted =>
      have hsessions : s'.sessions = (s.sessions.post number request).1 := by rw [haccepted]
      exact hsessions ▸ .post number request

/-- **Everything that happens to a service** moves its registry. -/
theorem moves_after (s : Service) (e : ServiceEvent) : s.sessions.Moves (s.after e).sessions := by
  cases e with
  | request t uptime r => exact moves_handled (handled_respond s t uptime r)
  | post number request => exact .post number request
  | loop number uptime step =>
      rw [after]
      cases hstep : s.loopStep? uptime number step with
      | none => exact .stay
      | some s' => exact moves_loopStep? hstep
  | take number =>
      rw [after]
      cases htake : s.takeEvent? number with
      | none => exact .stay
      | some taken =>
          obtain ⟨stream, rest, _, _, hs⟩ := takeEvent?_eq_some htake
          rw [Option.map_some, Option.getD_some, hs]
          exact .stay
  | unregister id => exact .unregister id
  | disconnect number => exact .stay

end Service

/-! ## What a step does to the registry -/

/-- A registry before and after a step. -/
structure Turn where
  before : SessionRegistry
  after : SessionRegistry

/-- Whether a request is one for a repository, properly encoded or not. -/
def HttpRequest.IsAtEndpoint (r : HttpRequest) : Prop :=
  ∃ owner repo, Route.ofPath? r.target.path = some (.repository owner repo)

/-- A request that leads to a repository is one for a repository. -/
theorem HttpRequest.isAtEndpoint_of_repository? {r : HttpRequest} {name : RepoName}
    (h : r.repository? = some name) : r.IsAtEndpoint := by
  obtain ⟨owner, repo, hroute, _⟩ := Service.route_of_repository? h
  exact ⟨owner, repo, hroute⟩

namespace Turn

variable {r : HttpRequest} {id : String} {turn : Turn}

/-- The request in a body is put at the end of what waits in the session with an id, which is one on the
repository that the path leads to. -/
def Queues (r : HttpRequest) (id : String) (turn : Turn) : Prop :=
  ∃ (name : RepoName) (number : Nat) (session : Session) (parts : List Octets)
      (request : Rpc.Request), r.repository? = some name ∧
    turn.before.find? id = some number ∧ turn.before.session? number = some session ∧
    session.repo = name.text ∧
    r.body = parts.map BodyPart.data ∧ Rpc.Request.parse parts.flatten = .ok request ∧
    turn.after = turn.before.replace number { session with waiting := session.waiting ++ [request] }

/-- One session is opened, on the repository that the path leads to and with an id that is new. -/
def Opens (r : HttpRequest) (id : String) (turn : Turn) : Prop :=
  ∃ name, r.repository? = some name ∧ turn.before.find? id = none ∧
    turn.after.size = turn.before.size + 1 ∧
    turn.after = { turn.before with
      drawn := turn.before.nextDraw + 1
      sessions := turn.before.sessions ++ [.fresh id name.text]
      registered := turn.before.registered.insert id turn.before.sessions.length }

/-- A queue that gets longer is not as it was. -/
theorem Queues.ne (h : turn.Queues r id) : turn.after ≠ turn.before := by
  obtain ⟨_, number, session, _, request, _, _, hsession, _, _, _, hafter⟩ := h
  intro hsame
  have hnow := SessionRegistry.session?_replace_self hsession
    { session with waiting := session.waiting ++ [request] }
  rw [← hafter, hsame, hsession] at hnow
  have hwaiting := congrArg (·.waiting.length) (Option.some.inj hnow)
  simp at hwaiting

end Turn

/-- What the step that answers a request does. -/
inductive Concludes (r : HttpRequest) (turn : Turn) (response : HttpResponse) : Prop where
  | queued {id : String} (post : r.method = "POST") (names : r.sessionId? = some id)
      (queues : turn.Queues r id) (status_eq : response.status = 202)
  | opened {id : String} (get : r.method = "GET") (opens : turn.Opens r id)
      (status_eq : response.status = 200)
      (tells : (HttpRequest.sessionHeader, id) ∈ response.headers)
  | declined (same : turn.after = turn.before)
      (posted : r.IsAtEndpoint → r.method = "POST" → r.sessionId?.isSome = true →
        response.status ∈ [400, 404, 410, 413])
      (got : r.IsAtEndpoint → r.method = "GET" → response.status ∈ [400, 404, 500, 503])

namespace Exchange

/-- Whether there is no answer yet. -/
def IsOpen : Exchange → Prop
  | .answered _ => False
  | _ => True

/-- What a step does. -/
inductive Proceeds (r : HttpRequest) (turn : Turn) : Exchange → Exchange → Prop where
  | waits {exchange exchange' : Exchange} (is_open : exchange.IsOpen) (still_open : exchange'.IsOpen)
      (same : turn.after = turn.before) : Proceeds r turn exchange exchange'
  | concludes {exchange : Exchange} {response : HttpResponse} (is_open : exchange.IsOpen)
      (concludes : Concludes r turn response) : Proceeds r turn exchange (.answered response)
  | rests {response : HttpResponse} (same : turn.after = turn.before) :
      Proceeds r turn (.answered response) (.answered response)

/-- What the request for a session that has been read is, and that the session is one on the repository. -/
def Posts (registry : SessionRegistry) (r : HttpRequest) (id : String) (request : Rpc.Request) :
    Prop :=
  r.method = "POST" ∧ r.sessionId? = some id ∧
    (∃ name, r.repository? = some name ∧ registry.Knows id name.text) ∧
    ∃ parts : List Octets, r.body = parts.map BodyPart.data ∧ Rpc.Request.parse parts.flatten = .ok request

/-- How an exchange has come to where it is. -/
def Founded (registry : SessionRegistry) (r : HttpRequest) : Exchange → Prop
  | .begun | .answered _ => True
  | .reading name id? arrived rest =>
    r.repository? = some name ∧ r.method = "POST" ∧ r.sessionId? = id? ∧
      (∀ id, id? = some id → registry.Knows id name.text) ∧
      ∃ parts : List Octets, r.body = parts.map BodyPart.data ++ rest ∧ arrived = parts.flatten
  | .finding id request => Posts registry r id request
  | .posting number request => ∃ id, Posts registry r id request ∧
    ∃ session, registry.session? number = some session ∧ session.id = id
  | .loading name message? =>
    r.repository? = some name ∧
      (r.method = "GET" ∧ message? = none ∨ r.method = "POST" ∧ r.sessionId? = none ∧ message?.isSome)
  | .opening name _ => r.repository? = some name ∧ r.method = "GET"
  | .handling _ _ => r.method = "POST" ∧ r.sessionId? = none

variable {registry registry' : SessionRegistry} {r : HttpRequest} {exchange : Exchange}

/-- A request that was read for a session stays one for it. -/
theorem Posts.moves {id : String} {request : Rpc.Request} (h : Posts registry r id request)
    (hmoves : registry.Moves registry') : Posts registry' r id request := by
  obtain ⟨hpost, hid, ⟨name, hname, hknows⟩, hbody⟩ := h
  exact ⟨hpost, hid, ⟨name, hname, hknows.moves hmoves⟩, hbody⟩

/-- What happens to the registry does not take away what an exchange is founded on. -/
theorem Founded.moves (h : exchange.Founded registry r) (hmoves : registry.Moves registry') :
    exchange.Founded registry' r := by
  cases exchange with
  | reading name id? arrived rest =>
      obtain ⟨hname, hpost, hid, hknows, hbody⟩ := h
      exact ⟨hname, hpost, hid, fun id hsome => (hknows id hsome).moves hmoves, hbody⟩
  | finding id request => exact Posts.moves h hmoves
  | posting number request =>
      obtain ⟨id, hposts, session, hsession, hid⟩ := h
      obtain ⟨session', hsession', hid', _⟩ := hmoves.session? hsession
      exact ⟨id, hposts.moves hmoves, session', hsession', hid'.trans hid⟩
  | begun | loading name message? | opening name context | handling context message
  | answered response => exact h

/-! ## Steps -/

/-- What a step from an exchange that is not answered has to do. -/
def Does (r : HttpRequest) (s : Service) (exchange : Exchange) (outcome : Service × Exchange) :
    Prop :=
  s.sessions.Moves outcome.1.sessions ∧ outcome.2.Founded outcome.1.sessions r ∧
    Proceeds r ⟨s.sessions, outcome.1.sessions⟩ exchange outcome.2

variable {s s' : Service} {t : FileTree} {uptime : Nat} {name : RepoName}

/-- Delivering a response answers with its status and its headers. -/
theorem deliver_eq (r : HttpRequest) (response : HttpResponse) : ∃ response',
    deliver r response = .answered response' ∧ response'.status = response.status ∧
      response'.headers = response.headers := by
  rw [deliver]
  split
  · exact ⟨_, rfl, rfl, rfl⟩
  · exact ⟨_, rfl, rfl, rfl⟩

/-- A step that still waits does what it has to if it leaves the sessions alone. -/
theorem does_of_waits {exchange' : Exchange} (hopen : exchange.IsOpen) (hstill : exchange'.IsOpen)
    (hsessions : s'.sessions = s.sessions) (hfounded : exchange'.Founded s.sessions r) :
    Does r s exchange (s', exchange') := by
  refine ⟨.of_eq hsessions, ?_, .waits hopen hstill hsessions⟩
  rwa [hsessions]

/-- A step that answers does what it has to if the answer concludes the request. -/
theorem does_of_deliver {response : HttpResponse} (hopen : exchange.IsOpen)
    (hmoves : s.sessions.Moves s'.sessions)
    (h : ∀ response' : HttpResponse, response'.status = response.status →
      response'.headers = response.headers → Concludes r ⟨s.sessions, s'.sessions⟩ response') :
    Does r s exchange (s', deliver r response) := by
  obtain ⟨response', hdeliver, hstatus, hheaders⟩ := deliver_eq r response
  rw [hdeliver]
  exact ⟨hmoves, trivial, .concludes hopen (h response' hstatus hheaders)⟩

/-- A step that declines does what it has to if it leaves the sessions alone. -/
theorem does_of_declined {response : HttpResponse} (hopen : exchange.IsOpen)
    (hsessions : s'.sessions = s.sessions)
    (hposted : r.IsAtEndpoint → r.method = "POST" → r.sessionId?.isSome = true →
      response.status ∈ [400, 404, 410, 413])
    (hgot : r.IsAtEndpoint → r.method = "GET" → response.status ∈ [400, 404, 500, 503]) :
    Does r s exchange (s', deliver r response) := by
  refine does_of_deliver hopen (.of_eq hsessions) fun response' hstatus _ => ?_
  rw [← hstatus] at hposted hgot
  exact .declined hsessions hposted hgot

/-- A request that is posted to a session is refused. -/
theorem does_of_refused {refusal : Refusal} (hopen : exchange.IsOpen)
    (hsessions : s'.sessions = s.sessions) (hpost : r.method = "POST")
    (hstatus : refusal.response.status ∈ [400, 404, 410, 413]) :
    Does r s exchange (s', conclude r (.error refusal)) := by
  refine does_of_declined hopen hsessions (fun _ _ _ => hstatus) ?_
  intro _ hget
  exact absurd (hpost.symm.trans hget) (by decide)

/-- A message is answered, or refused. -/
theorem does_of_message {outcome : Except Refusal HttpResponse} (hopen : exchange.IsOpen)
    (hsessions : s'.sessions = s.sessions) (hpost : r.method = "POST") (hid : r.sessionId? = none) :
    Does r s exchange (s', conclude r outcome) := by
  refine does_of_declined hopen hsessions ?_ ?_
  · intro _ _ hsome
    rw [hid] at hsome
    cases hsome
  · intro _ hget
    exact absurd (hpost.symm.trans hget) (by decide)

/-- A request for a stream is refused. -/
theorem does_of_unopened {refusal : Refusal} (hopen : exchange.IsOpen)
    (hsessions : s'.sessions = s.sessions) (hget : r.method = "GET")
    (hstatus : refusal.response.status ∈ [400, 404, 500, 503]) :
    Does r s exchange (s', conclude r (.error refusal)) := by
  refine does_of_declined hopen hsessions ?_ fun _ _ => hstatus
  intro _ hpost
  exact absurd (hget.symm.trans hpost) (by decide)

/-- What is done first about a request does what it has to. -/
theorem does_admission (hlinked : s.sessions.FreshlyLinked) (hname : r.repository? = some name) :
    Does r s .begun (s, admission s r name) := by
  rw [admission]
  split
  next hoptions =>
    refine does_of_declined trivial rfl ?_ ?_
    · intro _ hpost
      exact absurd (hoptions.symm.trans hpost) (by decide)
    · intro _ hget
      exact absurd (hoptions.symm.trans hget) (by decide)
  next hget => exact does_of_waits trivial trivial rfl ⟨hname, .inl ⟨hget, rfl⟩⟩
  next hpost =>
    split
    next id hid =>
      split
      next hadmits =>
        refine does_of_waits trivial trivial rfl ⟨hname, hpost, hid, ?_, [], rfl, rfl⟩
        intro id' hsome
        obtain rfl := Option.some.inj hsome
        rw [Service.admits] at hadmits
        cases hfound : (s.sessions.find? id).bind s.sessions.session? with
        | none =>
            rw [hfound] at hadmits
            cases hadmits
        | some session =>
            rw [hfound] at hadmits
            obtain ⟨n, hfind, hsession⟩ := Option.bind_eq_some_iff.1 hfound
            obtain ⟨session', hsession', hid', _⟩ := hlinked.found id n hfind
            obtain rfl := Option.some.inj (hsession.symm.trans hsession')
            exact ⟨n, session, hsession, hid', of_decide_eq_true hadmits⟩
      next => exact does_of_refused trivial rfl hpost (by decide)
    next hid =>
      split
      · exact does_of_message trivial rfl hpost hid
      · split
        · exact does_of_message trivial rfl hpost hid
        · exact does_of_waits trivial trivial rfl ⟨hname, hpost, hid, fun _ h => (by cases h), [], rfl, rfl⟩
  next _ hget hpost =>
    exact does_of_declined trivial rfl (fun _ h => absurd h hpost) fun _ h => absurd h hget

/-- The request is put at the end of the queue, or refused. -/
theorem does_posting {number : Nat} {request : Rpc.Request} (hlinked : s.sessions.FreshlyLinked)
    (hfounded : (posting number request).Founded s.sessions r) :
    Does r s (.posting number request) (step t uptime r s (.posting number request)) := by
  obtain ⟨id, ⟨hpost, hid, ⟨name, hname, m, known, hknown, hknownId, hrepo⟩, parts, hbody, hparsed⟩,
    session, hsession, hsessionId⟩ := hfounded
  rw [step, Service.postTo]
  have hrefused : (s.sessions.post number request).2 ≠ .accepted →
      (s.sessions.post number request).1 = s.sessions :=
    SessionRegistry.post_of_not_accepted
  have haccepted : (s.sessions.post number request).2 = .accepted →
      Turn.Queues r id ⟨s.sessions, (s.sessions.post number request).1⟩ := by
    intro haccepted
    obtain ⟨session', hsession', hclosed, hpost⟩ := SessionRegistry.post_of_accepted haccepted
    obtain rfl := Option.some.inj (hsession.symm.trans hsession')
    -- No id is drawn twice, so this is the session that was found at first.
    obtain rfl := hlinked.number_unique_of_fresh hlinked.fresh hknown hsession
      (hknownId.trans hsessionId.symm)
    obtain rfl := Option.some.inj (hknown.symm.trans hsession)
    have hfind := (hlinked.find?_iff hsession).2 ⟨rfl, hclosed⟩
    rw [hsessionId] at hfind
    exact ⟨name, m, _, parts, request, hname, hfind, hsession, hrepo, hbody, hparsed, hpost⟩
  have hmoves := SessionRegistry.Moves.post (r := s.sessions) number request
  generalize s.sessions.post number request = posted at hrefused haccepted hmoves
  obtain ⟨sessions, delivery⟩ := posted
  dsimp only at hrefused
  cases delivery with
  | accepted =>
      exact does_of_deliver trivial hmoves fun response hstatus _ =>
        .queued hpost hid (haccepted rfl) hstatus
  | notFound => exact does_of_refused trivial (hrefused (by decide)) hpost (by decide)
  | full => exact does_of_refused trivial (hrefused (by decide)) hpost (by decide)
  | closed => exact does_of_refused trivial (hrefused (by decide)) hpost (by decide)

/-- A session is opened, or none at the limit. -/
theorem does_opening {context : ToolContext}
    (hfounded : (opening name context).Founded s.sessions r) :
    Does r s (.opening name context) (step t uptime r s (.opening name context)) := by
  obtain ⟨hname, hget⟩ := hfounded
  rw [step, Service.openOn]
  cases hregister : s.sessions.register? name.text with
  | none => exact does_of_unopened trivial rfl hget (by decide)
  | some registered =>
      obtain ⟨sessions, number⟩ := registered
      have hopens : Turn.Opens r s.sessions.nextId ⟨s.sessions, sessions⟩ := by
        refine ⟨name, hname, (SessionRegistry.nextDraw_spec s.sessions).2.1,
          (SessionRegistry.size_register hregister).2.2, ?_⟩
        rw [SessionRegistry.register?] at hregister
        split at hregister
        · cases hregister
        · cases hregister
          rfl
      refine does_of_deliver trivial (.register hregister) fun response hstatus hheaders => ?_
      refine .opened hget hopens hstatus ?_
      rw [hheaders]
      simp [Service.responseOf, HttpResponse.withHeaders]

/-- A context is refused with one of four statuses. -/
theorem contextOf_eq_error {refusal : Refusal} (h : (s.contextOf t name).2 = .error refusal) :
    refusal.response.status ∈ [400, 404, 500, 503] := by
  rw [Service.contextOf] at h
  split at h
  · cases h
    decide
  · dsimp only at h
    cases hload : (s.loadContext t name).2 with
    | ok context =>
        rw [hload] at h
        cases h
    | error failure =>
        rw [hload] at h
        cases h
        exact (by decide : (500 : Nat) ∈ [400, 404, 500, 503])

/-- The context is loaded, or there is none. -/
theorem does_loading {message? : Option Octets}
    (hfounded : (loading name message?).Founded s.sessions r) :
    Does r s (.loading name message?) (step t uptime r s (.loading name message?)) := by
  obtain ⟨hname, hpurpose⟩ := hfounded
  have hsessions := (Service.contextOf_keeps s t name).1
  rw [step]
  cases hcontext : (s.contextOf t name).2 with
  | error refusal =>
      rcases hpurpose with ⟨hget, _⟩ | ⟨hpost, hid, _⟩
      · exact does_of_unopened trivial hsessions hget (contextOf_eq_error hcontext)
      · exact does_of_message trivial hsessions hpost hid
  | ok context =>
      rcases hpurpose with ⟨hget, rfl⟩ | ⟨hpost, hid, hsome⟩
      · exact does_of_waits trivial trivial hsessions ⟨hname, hget⟩
      · obtain ⟨message, rfl⟩ := Option.isSome_iff_exists.1 hsome
        exact does_of_waits trivial trivial hsessions ⟨hpost, hid⟩

/-- A part of a body is read, or the end of it. -/
theorem does_reading {id? : Option String} {arrived : Octets} {rest : List BodyPart}
    (hfounded : (reading name id? arrived rest).Founded s.sessions r) :
    Does r s (.reading name id? arrived rest) (step t uptime r s (.reading name id? arrived rest)) := by
  obtain ⟨hname, hpost, hid, hknows, parts, hbody, rfl⟩ := hfounded
  have hrefused : ∀ refusal : Refusal, refusal.response.status ∈ [400, 404, 410, 413] →
      Does r s (.reading name id? parts.flatten rest) (s, conclude r (.error refusal)) :=
    fun _ => does_of_refused trivial rfl hpost
  cases rest with
  | nil =>
      rw [List.append_nil] at hbody
      rw [step]
      cases id? with
      | none => exact does_of_waits trivial trivial rfl ⟨hname, .inr ⟨hpost, hid, rfl⟩⟩
      | some id =>
          dsimp only [received]
          cases hparse : Rpc.Request.parse parts.flatten with
          | error response => exact hrefused _ List.mem_cons_self
          | ok request =>
              exact does_of_waits trivial trivial rfl
                ⟨hpost, hid, ⟨name, hname, hknows id rfl⟩, parts, hbody, hparse⟩
  | cons part rest =>
      cases part with
      | failure => exact hrefused _ (by decide)
      | data octets =>
          rw [step]
          split
          · exact hrefused _ (by decide)
          · refine does_of_waits trivial trivial rfl
              ⟨hname, hpost, hid, hknows, parts ++ [octets], ?_, ?_⟩
            · rw [hbody, List.map_append, List.append_assoc]
              rfl
            · rw [List.flatten_append, List.flatten_singleton]

/-- A request for a session has been read, and the session is looked up. -/
theorem does_finding {id : String} {request : Rpc.Request} (hlinked : s.sessions.FreshlyLinked)
    (hfounded : (finding id request).Founded s.sessions r) :
    Does r s (.finding id request) (step t uptime r s (.finding id request)) := by
  rw [step]
  cases hfind : s.sessions.find? id with
  | none => exact does_of_refused trivial rfl hfounded.1 (by decide)
  | some number =>
      obtain ⟨session, hsession, hid, _⟩ := hlinked.found id number hfind
      exact does_of_waits trivial trivial rfl ⟨id, hfounded, session, hsession, hid⟩

/-- The first step of an exchange does what it has to. -/
theorem does_begun (hlinked : s.sessions.FreshlyLinked) :
    Does r s .begun (step t uptime r s .begun) := by
  have helsewhere : ∀ response, ¬r.IsAtEndpoint → Does r s .begun (s, deliver r response) :=
    fun _ hnot => does_of_declined trivial rfl (fun hat => absurd hat hnot) fun hat => absurd hat hnot
  rw [step]
  cases hroute : Route.ofPath? r.target.path with
  | none => exact helsewhere _ (by simp [HttpRequest.IsAtEndpoint, hroute])
  | some route =>
      cases route with
      | health => exact helsewhere _ (by simp [HttpRequest.IsAtEndpoint, hroute])
      | repository owner repo =>
          dsimp only
          cases hdecode : RepoName.decode owner repo with
          | error part =>
              exact does_of_declined trivial rfl (fun _ _ _ => List.mem_cons_self) fun _ _ =>
                List.mem_cons_self
          | ok name =>
              have hname : r.repository? = some name := by
                rw [HttpRequest.repository?, hroute]
                dsimp only
                rw [hdecode]
                rfl
              exact does_admission hlinked hname

/-- **What one step does**, wherever the exchange has come to. -/
theorem does_step (hlinked : s.sessions.FreshlyLinked) (hfounded : exchange.Founded s.sessions r) :
    Does r s exchange (exchange.step t uptime r s) := by
  cases exchange with
  | begun => exact does_begun hlinked
  | reading name id? arrived rest => exact does_reading hfounded
  | finding id request => exact does_finding hlinked hfounded
  | posting number request => exact does_posting hlinked hfounded
  | loading name message? => exact does_loading hfounded
  | opening name context => exact does_opening hfounded
  | handling context message => exact does_of_message trivial rfl hfounded.1 hfounded.2
  | answered response => exact ⟨.stay, trivial, .rests rfl⟩

end Exchange

/-! ## What the steps do altogether -/

/-- Whether no step has touched the registry. -/
def Untouched (turns : List Turn) : Prop := ∀ turn ∈ turns, turn.after = turn.before

/-- Whether one step has done something, and no other has touched the registry. -/
def Once (P : Turn → Prop) (turns : List Turn) : Prop :=
  ∃ earlier turn later, turns = earlier ++ turn :: later ∧ P turn ∧ Untouched (earlier ++ later)

/-- A step that leaves the registry alone leaves it untouched. -/
theorem Untouched.concat {turns : List Turn} (h : Untouched turns) {turn : Turn}
    (hsame : turn.after = turn.before) : Untouched (turns ++ [turn]) := by
  intro turn' hturn'
  rcases List.mem_append.1 hturn' with hold | hnew
  · exact h turn' hold
  · rw [List.mem_singleton.1 hnew, hsame]

/-- A step that does something behind steps that did not touch the registry does it once. -/
theorem Untouched.once {turns : List Turn} (h : Untouched turns) {turn : Turn} {P : Turn → Prop}
    (hP : P turn) : Once P (turns ++ [turn]) :=
  ⟨turns, turn, [], rfl, hP, by rwa [List.append_nil]⟩

/-- What was done once is not done again by a step that leaves the registry alone. -/
theorem Once.concat {turns : List Turn} {P : Turn → Prop} (h : Once P turns) {turn : Turn}
    (hsame : turn.after = turn.before) : Once P (turns ++ [turn]) := by
  obtain ⟨earlier, turn', later, rfl, hP, hrest⟩ := h
  refine ⟨earlier, turn', later ++ [turn], ?_, hP, ?_⟩
  · rw [List.append_assoc, List.cons_append]
  · rw [← List.append_assoc]
    exact hrest.concat hsame

/-- What the steps in which a request was answered have done to the registry. -/
structure Settled (r : HttpRequest) (response : HttpResponse) (turns : List Turn) : Prop where
  posted : ∀ id, r.IsAtEndpoint → r.method = "POST" → r.sessionId? = some id →
    response.status = 202 ∧ Once (Turn.Queues r id) turns ∨
      response.status ∈ [400, 404, 410, 413] ∧ Untouched turns
  accepted_iff : ∀ id, r.IsAtEndpoint → r.method = "POST" → r.sessionId? = some id →
    (response.status = 202 ↔ ∃ turn ∈ turns, turn.Queues r id)
  got : r.IsAtEndpoint → r.method = "GET" →
    (response.status = 200 ∧ ∃ id, (HttpRequest.sessionHeader, id) ∈ response.headers ∧
        Once (Turn.Opens r id) turns) ∨
      response.status ∈ [400, 404, 500, 503] ∧ Untouched turns
  /-- Every other request, whatever the outcome. -/
  other : r.method ≠ "GET" → (r.method = "POST" → r.sessionId? = none) → Untouched turns
  elsewhere : ¬r.IsAtEndpoint → Untouched turns

namespace Settled

variable {r : HttpRequest} {response : HttpResponse} {turns : List Turn} {turn : Turn}

/-- The two ways to post to a session tell apart whether the request was put into the queue. -/
theorem accepted_iff_of_posted {id : String}
    (h : response.status = 202 ∧ Once (Turn.Queues r id) turns ∨
      response.status ∈ [400, 404, 410, 413] ∧ Untouched turns) :
    response.status = 202 ↔ ∃ turn ∈ turns, turn.Queues r id := by
  rcases h with ⟨hstatus, earlier, turn, later, rfl, hqueues, _⟩ | ⟨hstatus, huntouched⟩
  · refine iff_of_true hstatus ⟨turn, ?_, hqueues⟩
    exact List.mem_append_right _ List.mem_cons_self
  · refine iff_of_false ?_ ?_
    · intro haccepted
      rw [haccepted] at hstatus
      revert hstatus
      decide
    · rintro ⟨turn, hturn, hqueues⟩
      exact hqueues.ne (huntouched turn hturn)

/-- The last step settles a request. -/
theorem of_concludes (hturns : Untouched turns) (h : Concludes r turn response) :
    Settled r response (turns ++ [turn]) := by
  cases h with
  | @queued id hpost hid hqueues hstatus =>
      have hat : r.IsAtEndpoint := by
        obtain ⟨name, _, _, _, _, hname, _⟩ := hqueues
        exact HttpRequest.isAtEndpoint_of_repository? hname
      have hposted : response.status = 202 ∧ Once (Turn.Queues r id) (turns ++ [turn]) :=
        ⟨hstatus, hturns.once hqueues⟩
      constructor
      case posted =>
        intro id' _ _ hid'
        obtain rfl := Option.some.inj (hid.symm.trans hid')
        exact .inl hposted
      case accepted_iff =>
        intro id' _ _ hid'
        obtain rfl := Option.some.inj (hid.symm.trans hid')
        exact accepted_iff_of_posted (.inl hposted)
      case got =>
        intro _ hget
        exact absurd (hpost.symm.trans hget) (by decide)
      case other =>
        intro _ hnone
        rw [hid] at hnone
        cases hnone hpost
      case elsewhere => exact fun hnot => absurd hat hnot
  | @opened id hget hopens hstatus htells =>
      have hnot : r.method ≠ "POST" := by
        rw [hget]
        decide
      have hat : r.IsAtEndpoint := by
        obtain ⟨name, hname, _⟩ := hopens
        exact HttpRequest.isAtEndpoint_of_repository? hname
      constructor
      case posted => exact fun _ _ hpost => absurd hpost hnot
      case accepted_iff => exact fun _ _ hpost => absurd hpost hnot
      case got => exact fun _ _ => .inl ⟨hstatus, id, htells, hturns.once hopens⟩
      case other => exact fun hother => absurd hget hother
      case elsewhere => exact fun hnot => absurd hat hnot
  | declined hsame hposted hgot =>
      have huntouched := hturns.concat hsame
      have hrefused : ∀ id, r.IsAtEndpoint → r.method = "POST" → r.sessionId? = some id →
          response.status = 202 ∧ Once (Turn.Queues r id) (turns ++ [turn]) ∨
            response.status ∈ [400, 404, 410, 413] ∧ Untouched (turns ++ [turn]) := by
        intro id hat hpost hid
        exact .inr ⟨hposted hat hpost (by rw [hid]; rfl), huntouched⟩
      constructor
      case posted => exact hrefused
      case accepted_iff =>
        exact fun id hat hpost hid => accepted_iff_of_posted (hrefused id hat hpost hid)
      case got => exact fun hat hget => .inr ⟨hgot hat hget, huntouched⟩
      case other => exact fun _ _ => huntouched
      case elsewhere => exact fun _ => huntouched

/-- Steps after the answer change nothing about it. -/
theorem concat (h : Settled r response turns) (hsame : turn.after = turn.before) :
    Settled r response (turns ++ [turn]) := by
  have hposted : ∀ id, r.IsAtEndpoint → r.method = "POST" → r.sessionId? = some id →
      response.status = 202 ∧ Once (Turn.Queues r id) (turns ++ [turn]) ∨
        response.status ∈ [400, 404, 410, 413] ∧ Untouched (turns ++ [turn]) := by
    intro id hat hpost hid
    rcases h.posted id hat hpost hid with ⟨hstatus, honce⟩ | ⟨hstatus, huntouched⟩
    · exact .inl ⟨hstatus, honce.concat hsame⟩
    · exact .inr ⟨hstatus, huntouched.concat hsame⟩
  constructor
  case posted => exact hposted
  case accepted_iff =>
    exact fun id hat hpost hid => accepted_iff_of_posted (hposted id hat hpost hid)
  case got =>
    intro hat hget
    rcases h.got hat hget with ⟨hstatus, id, htells, honce⟩ | ⟨hstatus, huntouched⟩
    · exact .inl ⟨hstatus, id, htells, honce.concat hsame⟩
    · exact .inr ⟨hstatus, huntouched.concat hsame⟩
  case other => exact fun hget hpost => (h.other hget hpost).concat hsame
  case elsewhere => exact fun hnot => (h.elsewhere hnot).concat hsame

end Settled

/-- What the steps of an exchange so far have done. -/
def Exchange.Accounts (r : HttpRequest) (exchange : Exchange) (turns : List Turn) : Prop :=
  (exchange.IsOpen → Untouched turns) ∧
    ∀ response, exchange = .answered response → Settled r response turns

/-- One more step in the account. -/
theorem Exchange.Accounts.concat {r : HttpRequest} {exchange exchange' : Exchange} {turns : List Turn}
    {turn : Turn} (h : exchange.Accounts r turns) (hproceeds : Proceeds r turn exchange exchange') :
    exchange'.Accounts r (turns ++ [turn]) := by
  cases hproceeds with
  | waits hopen hstill hsame =>
      refine ⟨fun _ => (h.1 hopen).concat hsame, ?_⟩
      intro response hanswered
      subst hanswered
      exact hstill.elim
  | concludes hopen hconcludes =>
      refine ⟨False.elim, ?_⟩
      intro response hanswered
      obtain rfl := Exchange.answered.inj hanswered
      exact .of_concludes (h.1 hopen) hconcludes
  | rests hsame =>
      refine ⟨False.elim, ?_⟩
      intro response hanswered
      exact (h.2 response hanswered).concat hsame

/-! ## Runs -/

/-- What happens to a service that answers requests step by step. -/
inductive SharedServiceEvent where
  /-- The answering of request number `i` takes a step. -/
  | proceed (i : Nat) (t : FileTree) (uptime : Nat)
  | other (e : ServiceEvent)

/-- A service and the requests that it answers, by their numbers. -/
structure SharedService where
  service : Service
  exchange : Nat → Exchange
  /-- What the registry was like before and after each step of an exchange, the oldest first. -/
  turns : Nat → List Turn

namespace SharedService

/-- A service that has not answered anything. -/
def start (settings : Settings) (root : String) (ids : IdGenerator) : SharedService :=
  ⟨.start settings root ids, fun _ => .begun, fun _ => []⟩

/-- What an event does; exchange number `i` answers the request `requests i`. -/
def next (requests : Nat → HttpRequest) (w : SharedService) : SharedServiceEvent → SharedService
  | .proceed i t uptime =>
    let (service, exchange) := (w.exchange i).step t uptime (requests i) w.service
    { service
      exchange := Function.update w.exchange i exchange
      turns :=
        Function.update w.turns i (w.turns i ++ [⟨w.service.sessions, service.sessions⟩]) }
  | .other e => { w with service := w.service.after e }

/-- What events do, one after the other. -/
def run (requests : Nat → HttpRequest) (w : SharedService) (events : List SharedServiceEvent) :
    SharedService :=
  events.foldl (next requests) w

/-- The registry is sound, and every exchange is founded on it and accounts for its steps. -/
structure Accountable (requests : Nat → HttpRequest) (w : SharedService) : Prop where
  linked : w.service.sessions.FreshlyLinked
  founded : ∀ i, (w.exchange i).Founded w.service.sessions (requests i)
  accounts : ∀ i, (w.exchange i).Accounts (requests i) (w.turns i)

variable {requests : Nat → HttpRequest} {w : SharedService}

/-- A service that has not answered anything is accountable. -/
theorem accountable_start (settings : Settings) (root : String) (supply : IdSupply) :
    Accountable requests (start settings root supply) where
  linked :=
    { SessionRegistry.linked_ofLimits supply settings.maxSessions settings.queueCapacity with
      fresh := supply.injective }
  founded _ := trivial
  accounts _ := ⟨fun _ _ hturn => absurd hturn List.not_mem_nil, fun _ hanswered => by cases hanswered⟩

/-- **One event.** -/
theorem Accountable.next (h : Accountable requests w) (e : SharedServiceEvent) :
    Accountable requests (w.next requests e) := by
  cases e with
  | proceed i t uptime =>
      have hdoes : Exchange.Does (requests i) w.service (w.exchange i)
          ((w.exchange i).step t uptime (requests i) w.service) :=
        Exchange.does_step h.linked (h.founded i)
      obtain ⟨hmoves, hfounded, hproceeds⟩ := hdoes
      constructor
      case linked => exact hmoves.freshlyLinked h.linked
      case founded =>
        intro j
        by_cases hj : j = i
        · subst hj
          simpa only [SharedService.next, Function.update_self] using hfounded
        · simpa only [SharedService.next, Function.update_of_ne hj] using (h.founded j).moves hmoves
      case accounts =>
        intro j
        by_cases hj : j = i
        · subst hj
          simpa only [SharedService.next, Function.update_self] using (h.accounts j).concat hproceeds
        · simpa only [SharedService.next, Function.update_of_ne hj] using h.accounts j
  | other e =>
      have hmoves := Service.moves_after w.service e
      exact ⟨hmoves.freshlyLinked h.linked, fun i => (h.founded i).moves hmoves, h.accounts⟩

/-- **A whole run.** -/
theorem Accountable.run (h : Accountable requests w) (events : List SharedServiceEvent) :
    Accountable requests (w.run requests events) := by
  induction events generalizing w with
  | nil => exact h
  | cons e rest ih => exact ih (h.next e)

/-- A request that is answered without anything in between concludes at once. -/
theorem concludes_respond {s : Service} (hlinked : s.sessions.FreshlyLinked) (t : FileTree) (uptime : Nat)
    (r : HttpRequest) :
    Concludes r ⟨s.sessions, (s.respond t uptime r).1.sessions⟩ (s.respond t uptime r).2 := by
  -- As long as there is no answer, nothing has been done.
  have hfar : ∀ w, Exchange.Leads t uptime r (s, .begun) w →
      w.2.IsOpen ∧ w.1.sessions = s.sessions ∧ w.2.Founded s.sessions r ∨
        ∃ response, w.2 = .answered response ∧ Concludes r ⟨s.sessions, w.1.sessions⟩ response := by
    intro w hleads
    induction hleads with
    | refl => exact .inl ⟨trivial, rfl, trivial⟩
    | @tail w w' _ hstep ih =>
        subst hstep
        rcases ih with ⟨hopen, hsessions, hfounded⟩ | ⟨response, hanswered, hconcludes⟩
        · rw [← hsessions] at hlinked hfounded ⊢
          have hdoes : Exchange.Does r w.1 w.2 (w.2.step t uptime r w.1) :=
            Exchange.does_step hlinked hfounded
          obtain ⟨_, hfounded', hproceeds⟩ := hdoes
          generalize w.2 = exchange at hopen hproceeds hfounded'
          generalize Exchange.step t uptime r w.1 exchange = outcome at hproceeds hfounded' ⊢
          obtain ⟨s', exchange'⟩ := outcome
          cases hproceeds with
          | waits _ hstill hsame =>
              refine .inl ⟨hstill, hsame, ?_⟩
              rwa [show s'.sessions = w.1.sessions from hsame] at hfounded'
          | concludes _ hconcludes => exact .inr ⟨_, rfl, hconcludes⟩
          | rests => exact hopen.elim
        · rw [hanswered]
          exact .inr ⟨response, rfl, hconcludes⟩
  rcases hfar _ (Exchange.leads_respond t uptime r s) with ⟨hopen, _⟩ | ⟨response, hanswered, h⟩
  · exact hopen.elim
  · obtain rfl := Exchange.answered.inj hanswered
    exact h

/-- Request number `i` takes effect once or not at all. -/
structure Atomic (requests : Nat → HttpRequest) (w : SharedService) (i : Nat) : Prop where
  undecided : (w.exchange i).IsOpen → Untouched (w.turns i)
  settled : ∀ response, w.exchange i = .answered response →
    Settled (requests i) response (w.turns i)
  /-- If nothing happens in between, the steps are those of `Service.respond`. -/
  uninterrupted : ∀ t uptime, Exchange.Leads t uptime (requests i) (w.service, .begun)
    ((w.service.respond t uptime (requests i)).1,
      .answered (w.service.respond t uptime (requests i)).2)
  /-- Then they are as good as one. -/
  at_once : ∀ t uptime, Settled (requests i) (w.service.respond t uptime (requests i)).2
    [⟨w.service.sessions, (w.service.respond t uptime (requests i)).1.sessions⟩]

/-- **Requests take effect once or not at all**, however their steps and all else that happens are
interleaved. -/
theorem atomic_run (settings : Settings) (root : String) (supply : IdSupply)
    (requests : Nat → HttpRequest) (events : List SharedServiceEvent) (i : Nat) :
    Atomic requests ((start settings root supply).run requests events) i := by
  have h : Accountable requests ((start settings root supply).run requests events) :=
    (accountable_start settings root supply).run events
  obtain ⟨hopen, hsettled⟩ := h.accounts i
  constructor
  case undecided => exact hopen
  case settled => exact hsettled
  case uninterrupted => exact fun t uptime => Exchange.leads_respond t uptime _ _
  case at_once =>
    intro t uptime
    have hnone : Untouched [] := fun _ hturn => absurd hturn List.not_mem_nil
    exact .of_concludes hnone (concludes_respond h.linked t uptime _)

end SharedService

end RegistryGraph
