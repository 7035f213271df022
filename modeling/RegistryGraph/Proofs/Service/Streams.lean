import RegistryGraph.Proofs.Rpc.Answers
import RegistryGraph.Proofs.Service.Requests

/-!
# A service in motion

Requests are answered, loops take steps, clients take events or go away, and sessions are unregistered,
in any order.  Seen from one stream and its session, every such event is one of a few steps.

* `Service.loopStep?_eq_some`: what a step of a loop does.
* `Service.Sound.after`: every event keeps streams and sessions in step.
* `Service.streamStep_after`: an event, seen from one stream.
-/

namespace RegistryGraph

/-- What happens to a service. -/
inductive ServiceEvent where
  /-- A request is answered, on the files as they are at that time. -/
  | request (t : FileTree) (uptime : Nat) (r : HttpRequest)
  /-- A request is posted to a session that was looked up before. -/
  | post (number : Nat) (request : Rpc.Request)
  /-- The loop of a stream takes a step. -/
  | loop (number uptime : Nat) (step : LoopStep)
  /-- The client of a stream takes an event. -/
  | take (number : Nat)
  | unregister (id : String)
  /-- The client of a stream goes away. -/
  | disconnect (number : Nat)

/-- **What can happen to one stream and its session.**  The lists are the requests that are accepted on
the session, and the events that the client takes. -/
inductive StreamStep (stream : EventStream) (session : Session) :
    List Rpc.Request → List Event → EventStream → Session → Prop where
  | stay : StreamStep stream session [] [] stream session
  | queue (request : Rpc.Request) (is_open : session.closed = false) :
      StreamStep stream session [request] [] stream
        { session with waiting := session.waiting ++ [request] }
  | shut : StreamStep stream session [] [] stream session.close
  | announce (announcing : stream.phase = .announcing) :
      StreamStep stream session [] []
        { stream with phase := .sending (.endpoint stream.address) } session
  | answer {request : Rpc.Request} {rest : List Rpc.Request} {response : Rpc.Response}
      {uptime : Nat} {stats : Rpc.Statistics} (serving : stream.phase = .serving)
      (waiting : session.waiting = request :: rest)
      (handled : (Rpc.Dispatch.handleRequest stream.context uptime stats request).2 =
        some response) :
      StreamStep stream session [] [] { stream with phase := .sending (.message response) }
        { session with waiting := rest }
  | skip {request : Rpc.Request} {rest : List Rpc.Request} (serving : stream.phase = .serving)
      (waiting : session.waiting = request :: rest) (unwanted : request.isNotification = true) :
      StreamStep stream session [] [] stream { session with waiting := rest }
  | tick (serving : stream.phase = .serving) :
      StreamStep stream session [] [] { stream with phase := .sending .keepalive } session
  | send {event : Event} (sending : stream.phase = .sending event) :
      StreamStep stream session [] []
        { stream with phase := .serving, buffer := stream.buffer ++ [event] } session
  | finish {session' : Session} (session_eq : session' = session ∨ session' = session.close)
      (is_over : stream.connected = false ∨
        stream.phase = .serving ∧ session.closed = true ∧ session.waiting = []) :
      StreamStep stream session [] [] { stream with phase := .ended } session'
  | take {event : Event} {rest : List Event} (buffer : stream.buffer = event :: rest) :
      StreamStep stream session [] [event] { stream with buffer := rest } session
  | leave : StreamStep stream session [] [] { stream with connected := false, buffer := [] } session

namespace Service

/-- The service after an event; an impossible step does nothing. -/
def after (s : Service) : ServiceEvent → Service
  | .request t uptime r => (s.respond t uptime r).1
  | .post number request => { s with sessions := (s.sessions.post number request).1 }
  | .loop number uptime step => (s.loopStep? uptime number step).getD s
  | .take number => ((s.takeEvent? number).map Prod.fst).getD s
  | .unregister id => { s with sessions := s.sessions.unregister id }
  | .disconnect number => s.disconnect number

/-- The service after events, one after the other. -/
def run (s : Service) (events : List ServiceEvent) : Service := events.foldl after s

/-- The requests that an event brings to the session with a number and an id, if they are accepted. -/
def acceptedBy (s : Service) (number : Nat) (id : String) : ServiceEvent → List Rpc.Request
  | .request t uptime r =>
    if r.method = "POST" ∧ r.sessionId? = some id ∧ (s.respond t uptime r).2.status = 202 then
      ((s.bodyOf r).toOption.bind fun octets => (Rpc.Request.parse octets).toOption).toList
    else []
  | .post number' request =>
    if number' = number ∧ (s.sessions.post number' request).2 = .accepted then [request] else []
  | .loop .. | .take _ | .unregister _ | .disconnect _ => []

/-- The events that the client of the stream with a number takes. -/
def takenBy (s : Service) (number : Nat) : ServiceEvent → List Event
  | .take number' => if number' = number then ((s.takeEvent? number).map Prod.snd).toList else []
  | .request .. | .post .. | .loop .. | .unregister _ | .disconnect _ => []

/-- The stream and the session with a number. -/
def Shows (s : Service) (n : Nat) (stream : EventStream) (session : Session) : Prop :=
  s.streams[n]? = some stream ∧ s.sessions.session? n = some session

variable {s s' : Service} {n : Nat} {stream : EventStream} {session : Session}

/-- A number shows one stream and one session. -/
theorem Shows.unique (h : s.Shows n stream session) {stream' : EventStream} {session' : Session}
    (h' : s.Shows n stream' session') : stream' = stream ∧ session' = session :=
  ⟨Option.some.inj (h'.1.symm.trans h.1), Option.some.inj (h'.2.symm.trans h.2)⟩

/-- Every stream is shown with a session. -/
theorem Sound.exists_shows (h : s.Sound) (hstream : s.streams[n]? = some stream) :
    ∃ session, s.Shows n stream session := by
  have hlt : n < s.sessions.sessions.length := h.length_eq ▸ (List.getElem?_eq_some_iff.1 hstream).1
  exact ⟨_, hstream, List.getElem?_eq_getElem hlt⟩

/-- A loop receives the request that has waited longest. -/
theorem receive_eq (hshows : s.Shows n stream session) (hreceiving : session.receiving = true) :
    s.sessions.receive n =
      match session.waiting with
      | request :: rest =>
        (s.sessions.replace n { session with waiting := rest }, some (.request request))
      | [] => (s.sessions, some (if session.closed then .disconnected else .empty)) := by
  rw [SessionRegistry.receive, hshows.2]
  dsimp only
  rw [Session.receive, if_pos hreceiving]
  cases session.waiting with
  | nil =>
      dsimp only
      rw [SessionRegistry.replace_eq_self hshows.2]
  | cons request rest => rfl

/-- A session is drained when it is closed and nothing waits in it. -/
theorem isDrained_iff (hshows : s.Shows n stream session) (hreceiving : session.receiving = true) :
    s.isDrained n = true ↔ session.closed = true ∧ session.waiting = [] := by
  rw [isDrained, receive_eq hshows hreceiving]
  cases session.waiting with
  | nil => cases session.closed <;> simp
  | cons request rest => simp

/-- Serving takes the first request that waits and answers it on the stream. -/
theorem serveNext?_eq_some {uptime : Nat} (hshows : s.Shows n stream session)
    (hreceiving : session.receiving = true) (h : s.serveNext? uptime n stream = some s') :
    ∃ request rest phase, session.waiting = request :: rest ∧
      s'.sessions = s.sessions.replace n { session with waiting := rest } ∧
      s'.streams = s.streams.set n { stream with phase } ∧
      ((∃ response, phase = .sending (.message response) ∧
          (Rpc.Dispatch.handleRequest stream.context uptime s.statistics request).2 =
            some response) ∨
        phase = .serving ∧ request.isNotification = true) := by
  rw [serveNext?, receive_eq hshows hreceiving] at h
  cases hwaiting : session.waiting with
  | nil =>
      rw [hwaiting] at h
      cases hclosed : session.closed <;> rw [hclosed] at h <;> cases h
  | cons request rest =>
      rw [hwaiting] at h
      dsimp only at h
      cases hhandled : Rpc.Dispatch.handleRequest stream.context uptime s.statistics request with
      | mk stats outcome =>
          rw [hhandled] at h
          cases outcome with
          | some response =>
              cases h
              exact ⟨request, rest, _, rfl, rfl, rfl, .inl ⟨response, rfl, by rw [hhandled]⟩⟩
          | none =>
              cases h
              have hnone := congrArg Prod.snd hhandled
              exact ⟨request, rest, _, rfl, rfl, rfl,
                .inr ⟨rfl, Rpc.Dispatch.respond_eq_none_iff.1 hnone⟩⟩

/-- **What a step of a loop does.** -/
theorem loopStep?_eq_some {uptime : Nat} {step : LoopStep} (hsound : s.Sound)
    (h : s.loopStep? uptime n step = some s') :
    ∃ stream session stream' session', s.Shows n stream session ∧
      StreamStep stream session [] [] stream' session' ∧ s'.streams = s.streams.set n stream' ∧
      (s'.sessions = s.sessions.replace n session' ∨
        s'.sessions = s.sessions.unregister stream.id ∧ s'.sessions.session? n = some session') := by
  rw [loopStep?, Option.bind_eq_some_iff] at h
  obtain ⟨stream, hstream, h⟩ := h
  obtain ⟨session, hshows⟩ := hsound.exists_shows hstream
  have hreceiving := hsound.sessions.receiving n session hshows.2
  have hkept : s.sessions = s.sessions.replace n session :=
    (SessionRegistry.replace_eq_self hshows.2).symm
  refine ⟨stream, session, ?_⟩
  cases step with
  | announce =>
      cases hphase : stream.phase with
      | announcing =>
          rw [hphase] at h
          cases h
          exact ⟨_, session, hshows, .announce hphase, rfl, .inl hkept⟩
      | serving | sending event | ended => rw [hphase] at h; cases h
  | serve =>
      cases hphase : stream.phase with
      | serving =>
          rw [hphase] at h
          obtain ⟨request, rest, phase, hwaiting, hsessions, hstreams, hserved⟩ :=
            serveNext?_eq_some hshows hreceiving h
          rcases hserved with ⟨response, rfl, hhandled⟩ | ⟨rfl, hnotification⟩
          · exact ⟨_, _, hshows, .answer hphase hwaiting hhandled, hstreams, .inl hsessions⟩
          · rw [← hphase] at hstreams
            exact ⟨_, _, hshows, .skip hphase hwaiting hnotification, hstreams, .inl hsessions⟩
      | announcing | sending event | ended => rw [hphase] at h; cases h
  | tick =>
      cases hphase : stream.phase with
      | serving =>
          rw [hphase] at h
          cases h
          exact ⟨_, session, hshows, .tick hphase, rfl, .inl hkept⟩
      | announcing | sending event | ended => rw [hphase] at h; cases h
  | send =>
      cases hphase : stream.phase with
      | sending event =>
          rw [hphase] at h
          dsimp only at h
          split at h
          · cases h
            exact ⟨_, session, hshows, .send hphase, rfl, .inl hkept⟩
          · cases h
      | announcing | serving | ended => rw [hphase] at h; cases h
  | close =>
      dsimp only at h
      rw [Option.ite_none_right_eq_some] at h
      obtain ⟨hisOver, h⟩ := h
      have hover : stream.connected = false ∨
          stream.phase = .serving ∧ session.closed = true ∧ session.waiting = [] := by
        cases hphase : stream.phase with
        | serving =>
            rw [hphase] at hisOver
            rcases Bool.or_eq_true_iff.1 hisOver with hgone | hdrained
            · exact .inl (by simpa using hgone)
            · exact .inr ⟨rfl, (isDrained_iff hshows hreceiving).1 hdrained⟩
        | sending event =>
            rw [hphase] at hisOver
            exact .inl (by simpa using hisOver)
        | announcing | ended => rw [hphase] at hisOver; cases hisOver
      cases h
      rcases SessionRegistry.session?_unregister stream.id hshows.2 with hsame | hclosed
      · exact ⟨_, _, hshows, .finish (.inl rfl) hover, rfl, .inr ⟨rfl, hsame⟩⟩
      · exact ⟨_, _, hshows, .finish (.inr rfl) hover, rfl, .inr ⟨rfl, hclosed⟩⟩

end Service

/-- A step keeps what a stream and its session are, and opens no closed session again. -/
theorem StreamStep.keeps {stream stream' : EventStream} {session session' : Session}
    {accepted : List Rpc.Request} {taken : List Event}
    (h : StreamStep stream session accepted taken stream' session') :
    stream'.id = stream.id ∧ stream'.context = stream.context ∧ stream'.address = stream.address ∧
      session'.receiving = session.receiving ∧ (session.closed = true → session'.closed = true) := by
  cases h with
  | finish hsession _ =>
      rcases hsession with rfl | rfl
      · exact ⟨rfl, rfl, rfl, rfl, id⟩
      · exact ⟨rfl, rfl, rfl, rfl, fun _ => rfl⟩
  | shut => exact ⟨rfl, rfl, rfl, rfl, fun _ => rfl⟩
  | _ => exact ⟨rfl, rfl, rfl, rfl, id⟩

namespace Service

variable {s s' : Service} {n : Nat} {stream : EventStream} {session : Session}

/-- Two lists that agree on what a function tells have such members at the same places. -/
theorem exists_of_map_eq {α β : Type} {f : α → β} {l l' : List α} {a' : α} (h : l'.map f = l.map f)
    (hget : l'[n]? = some a') : ∃ a, l[n]? = some a ∧ f a = f a' := by
  have hmapped : (l.map f)[n]? = some (f a') := by
    rw [← h, List.getElem?_map, hget]
    rfl
  rwa [List.getElem?_map, Option.map_eq_some_iff] at hmapped

/-- A service stays sound if its streams and sessions keep their ids and their number. -/
theorem Sound.of_keeps (h : s.Sound) (hsessions : s'.sessions.Sound)
    (hdraws : s'.sessions.ids = s.sessions.ids)
    (hlength : s'.sessions.sessions.length = s.sessions.sessions.length)
    (hids : s'.streams.map (·.id) = s.streams.map (·.id)) : s'.Sound where
  sessions := hsessions
  length_eq := by
    have hstreams := congrArg List.length hids
    rw [List.length_map, List.length_map] at hstreams
    rw [hstreams, hlength, h.length_eq]
  id_eq := by
    intro n stream hstream
    obtain ⟨old, hold, hid⟩ := exists_of_map_eq hids hstream
    rw [hdraws, ← hid]
    exact h.id_eq n old hold

/-- A member is replaced by one of which a function tells the same. -/
theorem map_set_of_eq {α β : Type} {f : α → β} {l : List α} {a a' : α} (h : l[n]? = some a)
    (hf : f a' = f a) : (l.set n a').map f = l.map f := by
  refine List.ext_getElem? ?_
  intro m
  rw [List.getElem?_map, List.getElem?_map]
  by_cases hm : n = m
  · subst hm
    rw [List.getElem?_set_self (List.getElem?_eq_some_iff.1 h).1, h]
    exact congrArg some hf
  · rw [List.getElem?_set_ne hm]

/-- The client takes the first event in the buffer. -/
theorem takeEvent?_eq_some {event : Event} (h : s.takeEvent? n = some (s', event)) :
    ∃ stream rest, s.streams[n]? = some stream ∧ stream.buffer = event :: rest ∧
      s' = s.setStream n { stream with buffer := rest } := by
  rw [takeEvent?, Option.bind_eq_some_iff] at h
  obtain ⟨stream, hstream, h⟩ := h
  split at h
  next event rest hbuffer =>
    cases h
    exact ⟨stream, rest, hstream, hbuffer, rfl⟩
  next => cases h

/-- A step of a loop keeps the service sound. -/
theorem Sound.loopStep? {uptime : Nat} {step : LoopStep} (h : s.Sound)
    (hstep : s.loopStep? uptime n step = some s') : s'.Sound := by
  obtain ⟨stream, session, stream', session', hshows, hstep, hstreams, hsessions⟩ :=
    loopStep?_eq_some h hstep
  obtain ⟨hid, _, _, hreceiving, hclosed⟩ := hstep.keeps
  have hids : s'.streams.map (·.id) = s.streams.map (·.id) := by
    rw [hstreams]
    exact map_set_of_eq hshows.1 hid
  rcases hsessions with hsessions | ⟨hsessions, _⟩
  · exact h.of_keeps (hsessions ▸ h.sessions.replace hshows.2 hreceiving hclosed) (by rw [hsessions]; rfl)
      (by rw [hsessions]; exact List.length_set) hids
  · exact h.of_keeps (hsessions ▸ h.sessions.unregister stream.id)
      (by rw [hsessions, (SessionRegistry.unregister_keeps _ _).1])
      (by rw [hsessions, SessionRegistry.length_sessions_unregister]) hids

/-- Taking an event keeps the service sound. -/
theorem Sound.takeEvent? {event : Event} (h : s.Sound)
    (htake : s.takeEvent? n = some (s', event)) : s'.Sound := by
  obtain ⟨stream, rest, hstream, _, rfl⟩ := takeEvent?_eq_some htake
  exact h.of_keeps h.sessions rfl rfl (map_set_of_eq hstream rfl)

/-- A client that leaves keeps the service sound. -/
theorem Sound.disconnect (h : s.Sound) (n : Nat) : (s.disconnect n).Sound := by
  refine h.of_keeps h.sessions rfl rfl ?_
  refine List.ext_getElem? ?_
  intro m
  rw [Service.disconnect, List.getElem?_map, List.getElem?_map, List.getElem?_modify]
  cases s.streams[m]? with
  | none => rfl
  | some stream => by_cases hm : n = m <;> simp [hm]

/-- What a request does keeps the service sound. -/
theorem Sound.admits {r : HttpRequest} {response? : Option HttpResponse} (h : s.Sound)
    (hadmits : s.Admits r s' response?) : s'.Sound := by
  cases hadmits with
  | keeps hsessions hstreams _ =>
      rcases hsessions with hsessions | ⟨number, request, hsessions⟩
      · exact h.of_keeps (hsessions ▸ h.sessions) (by rw [hsessions]) (by rw [hsessions])
          (by rw [hstreams])
      · obtain ⟨hids, _, hlength⟩ := SessionRegistry.post_keeps s.sessions number request
        exact h.of_keeps (hsessions ▸ h.sessions.post number request) (hsessions ▸ hids)
          (hsessions ▸ hlength) (by rw [hstreams])
  | opens _ hregistered hsessions hstreams =>
      have hid := h.sessions.id_eq_of_register hregistered
      obtain ⟨hnumber, ⟨hids, _⟩, happend⟩ := SessionRegistry.register?_eq_some hregistered
      rw [← hsessions] at hids happend
      constructor
      case sessions => exact hsessions ▸ h.sessions.register hregistered
      case length_eq =>
        rw [hstreams, happend, List.length_append, List.length_append, h.length_eq]
        rfl
      case id_eq =>
        intro m stream hstream
        rw [hids]
        rw [hstreams] at hstream
        by_cases hm : m < s.streams.length
        · rw [List.getElem?_append_left hm] at hstream
          exact h.id_eq m stream hstream
        · rw [List.getElem?_append_right (Nat.le_of_not_lt hm), List.getElem?_singleton] at hstream
          split at hstream
          next hzero =>
            cases hstream
            have hlast : m = s.sessions.sessions.length := by
              have := h.length_eq
              omega
            rw [EventStream.fresh, hid, hnumber, hlast]
          next => cases hstream

/-- A request that is handled keeps the service sound. -/
theorem Sound.handled {t : FileTree} {r : HttpRequest} {response : HttpResponse} (h : s.Sound)
    (hhandled : s.Handled t r s' response) : s'.Sound :=
  h.admits (admits_handled hhandled)

/-- **Every event keeps the service sound.** -/
theorem Sound.after (h : s.Sound) (e : ServiceEvent) : (s.after e).Sound := by
  cases e with
  | request t uptime r => exact h.handled (handled_respond s t uptime r)
  | post number request =>
      obtain ⟨hids, _, hlength⟩ := SessionRegistry.post_keeps s.sessions number request
      exact h.of_keeps (h.sessions.post number request) hids hlength rfl
  | loop number uptime step =>
      rw [Service.after]
      cases hstep : s.loopStep? uptime number step with
      | none => exact h
      | some s' => exact h.loopStep? hstep
  | take number =>
      rw [Service.after]
      cases htake : s.takeEvent? number with
      | none => exact h
      | some taken => exact h.takeEvent? htake
  | unregister id =>
      exact h.of_keeps (h.sessions.unregister id) (SessionRegistry.unregister_keeps _ id).1
        (SessionRegistry.length_sessions_unregister _ id) rfl
  | disconnect number => exact h.disconnect number

/-- Whatever happens, the service stays sound. -/
theorem Sound.run (h : s.Sound) (events : List ServiceEvent) : (s.run events).Sound := by
  induction events generalizing s with
  | nil => exact h
  | cons e rest ih => exact ih (h.after e)

/-! ## One stream -/

/-- What shows a stream are the streams and sessions of a service alone. -/
theorem Shows.of_eq (h : s.Shows n stream session) (hstreams : s'.streams = s.streams)
    (hsessions : s'.sessions = s.sessions) : s'.Shows n stream session :=
  ⟨hstreams ▸ h.1, hsessions ▸ h.2⟩

/-- A step of some loop. -/
theorem streamStep_loop {uptime m : Nat} {step : LoopStep} (hsound : s.Sound)
    (hshows : s.Shows n stream session) (hstep : s.loopStep? uptime m step = some s') :
    ∃ stream' session', s'.Shows n stream' session' ∧
      StreamStep stream session [] [] stream' session' := by
  obtain ⟨stream₁, session₁, stream', session', hshows₁, hstep, hstreams, hsessions⟩ :=
    loopStep?_eq_some hsound hstep
  by_cases hm : m = n
  · subst hm
    obtain ⟨rfl, rfl⟩ := hshows.unique hshows₁
    refine ⟨stream', session', ⟨?_, ?_⟩, hstep⟩
    · rw [hstreams]
      exact List.getElem?_set_self (List.getElem?_eq_some_iff.1 hshows.1).1
    · rcases hsessions with hsessions | ⟨_, hsession⟩
      · rw [hsessions]
        exact SessionRegistry.session?_replace_self hshows.2 session'
      · exact hsession
  -- Another loop touches this session only by unregistering.
  · have hstream : s'.streams[n]? = some stream := by
      rw [hstreams, List.getElem?_set_ne hm]
      exact hshows.1
    rcases hsessions with hsessions | ⟨hsessions, _⟩
    · refine ⟨stream, session, ⟨hstream, ?_⟩, .stay⟩
      rw [hsessions, SessionRegistry.session?_replace_of_ne hm]
      exact hshows.2
    · rcases SessionRegistry.session?_unregister stream₁.id hshows.2 with hsame | hclosed
      · exact ⟨stream, session, ⟨hstream, hsessions ▸ hsame⟩, .stay⟩
      · exact ⟨stream, session.close, ⟨hstream, hsessions ▸ hclosed⟩, .shut⟩

/-- A request that is posted to some session. -/
theorem streamStep_post (hshows : s.Shows n stream session) (number : Nat) (request : Rpc.Request)
    (hstreams : s'.streams = s.streams)
    (hsessions : s'.sessions = (s.sessions.post number request).1) :
    ∃ session', s'.Shows n stream session' ∧
      StreamStep stream session
        (if number = n ∧ (s.sessions.post number request).2 = .accepted then [request] else []) []
        stream session' := by
  have hpost := SessionRegistry.session?_post hshows.2 number request
  split at hpost
  next hmine =>
    rw [if_pos hmine]
    exact ⟨_, ⟨hstreams ▸ hshows.1, hsessions ▸ hpost.2⟩, .queue request hpost.1⟩
  next hother =>
    rw [if_neg hother]
    exact ⟨session, ⟨hstreams ▸ hshows.1, hsessions ▸ hpost⟩, .stay⟩

/-- What a request does to a stream is one of the steps that it can take. -/
theorem streamStep_handled {t : FileTree} {r : HttpRequest} {response : HttpResponse}
    (hsound : s.Sound) (hshows : s.Shows n stream session)
    (hhandled : s.Handled t r s' response) :
    ∃ session', s'.Shows n stream session' ∧
      StreamStep stream session
        (if r.method = "POST" ∧ r.sessionId? = some stream.id ∧ response.status = 202 then
          ((s.bodyOf r).toOption.bind fun octets => (Rpc.Request.parse octets).toOption).toList
        else []) [] stream session' := by
  cases hhandled with
  | kept hsessions hstreams _ hunqueued =>
      rw [if_neg]
      · exact ⟨session, hshows.of_eq hstreams hsessions, .stay⟩
      · rintro ⟨hpost, hid, hstatus⟩
        exact hunqueued hpost (by rw [hid]; rfl) hstatus
  | opened hget _ _ hregistered hsessions hstreams =>
      obtain ⟨_, _, happend⟩ := SessionRegistry.register?_eq_some hregistered
      rw [if_neg fun h => absurd (hget.symm.trans h.1) (by decide)]
      refine ⟨session, ⟨?_, ?_⟩, .stay⟩
      · rw [hstreams, List.getElem?_append_left (List.getElem?_eq_some_iff.1 hshows.1).1]
        exact hshows.1
      · rw [hsessions, SessionRegistry.session?, happend,
          List.getElem?_append_left (List.getElem?_eq_some_iff.1 hshows.2).1]
        exact hshows.2
  | @queued id number octets request hpost hid hfound hbody hparsed haccepted hstreams _
      hstatus =>
      -- Ids are distinct, so the request names this session exactly if its number is found.
      have hmine : id = stream.id ↔ number = n := by
        have hnumber : id = s.sessions.ids.draw number := hsound.sessions.found id number hfound
        have hn : stream.id = s.sessions.ids.draw n := hsound.id_eq n stream hshows.1
        rw [hnumber, hn]
        exact ⟨hsound.sessions.fresh number n, fun h => by rw [h]⟩
      obtain ⟨session', hshows', hstep⟩ := streamStep_post hshows number request hstreams
        (congrArg Prod.fst haccepted).symm
      have hrequest : ((s.bodyOf r).toOption.bind fun octets =>
          (Rpc.Request.parse octets).toOption).toList = [request] := by
        rw [hbody, Except.toOption, Option.bind_some, hparsed]
        rfl
      refine ⟨session', hshows', ?_⟩
      rw [haccepted] at hstep
      simp only [hpost, hid, hrequest, hstatus, hmine, Option.some.injEq, true_and, and_true]
        at hstep ⊢
      exact hstep

/-- **An event, seen from one stream.** -/
theorem streamStep_after (hsound : s.Sound) (hshows : s.Shows n stream session)
    (e : ServiceEvent) :
    ∃ stream' session', (s.after e).Shows n stream' session' ∧
      StreamStep stream session (s.acceptedBy n stream.id e) (s.takenBy n e) stream' session' := by
  cases e with
  | request t uptime r =>
      obtain ⟨session', hshows', hstep⟩ :=
        streamStep_handled hsound hshows (handled_respond s t uptime r)
      exact ⟨stream, session', hshows', hstep⟩
  | post number request =>
      have hstreams : (s.after (.post number request)).streams = s.streams := rfl
      obtain ⟨session', hshows', hstep⟩ := streamStep_post hshows number request hstreams rfl
      exact ⟨stream, session', hshows', hstep⟩
  | loop number uptime step =>
      rw [Service.after]
      cases hstep : s.loopStep? uptime number step with
      | none => exact ⟨stream, session, hshows, .stay⟩
      | some s' => exact streamStep_loop hsound hshows hstep
  | take number =>
      rw [Service.after, takenBy]
      cases htake : s.takeEvent? number with
      | none =>
          refine ⟨stream, session, hshows, ?_⟩
          split
          next hn => rw [← hn, htake]; exact .stay
          next => exact .stay
      | some taken =>
          obtain ⟨s', event⟩ := taken
          obtain ⟨stream₁, rest, hstream₁, hbuffer, rfl⟩ := takeEvent?_eq_some htake
          by_cases hn : number = n
          · subst hn
            obtain rfl := Option.some.inj (hshows.1.symm.trans hstream₁)
            rw [if_pos rfl, htake]
            exact ⟨_, session, ⟨List.getElem?_set_self (List.getElem?_eq_some_iff.1 hshows.1).1,
              hshows.2⟩, .take hbuffer⟩
          · rw [if_neg hn]
            exact ⟨stream, session, ⟨(List.getElem?_set_ne hn).trans hshows.1, hshows.2⟩, .stay⟩
  | unregister id =>
      rcases SessionRegistry.session?_unregister id hshows.2 with hsame | hclosed
      · exact ⟨stream, session, ⟨hshows.1, hsame⟩, .stay⟩
      · exact ⟨stream, session.close, ⟨hshows.1, hclosed⟩, .shut⟩
  | disconnect number =>
      by_cases hn : number = n
      · subst hn
        refine ⟨_, session, ⟨?_, hshows.2⟩, .leave⟩
        rw [Service.after, Service.disconnect, List.getElem?_modify_eq, hshows.1]
        rfl
      · refine ⟨stream, session, ⟨?_, hshows.2⟩, .stay⟩
        rw [Service.after, Service.disconnect, List.getElem?_modify_ne _ _ hn]
        exact hshows.1

/-- A session that is unregistered is closed, and stays so. -/
theorem closed_run (hsound : s.Sound) (hshows : s.Shows n stream session)
    (events : List ServiceEvent)
    (h : session.closed = true ∨ ServiceEvent.unregister stream.id ∈ events) :
    ∃ stream' session', (s.run events).Shows n stream' session' ∧ session'.closed = true := by
  induction events generalizing s stream session with
  | nil =>
      rcases h with hclosed | hmem
      · exact ⟨stream, session, hshows, hclosed⟩
      · cases hmem
  | cons e rest ih =>
      obtain ⟨stream₁, session₁, hshows₁, hstep⟩ := streamStep_after hsound hshows e
      obtain ⟨hid, _, _, _, hclosed₁⟩ := hstep.keeps
      refine ih (hsound.after e) hshows₁ ?_
      rcases h with hclosed | hmem
      · exact .inl (hclosed₁ hclosed)
      rcases List.mem_cons.1 hmem with rfl | hrest
      · obtain ⟨session', hsession', hclosed'⟩ := hsound.sessions.closed_of_unregister hshows.2
        rw [← hsound.id_eq n stream hshows.1] at hsession'
        obtain rfl := Option.some.inj (hsession'.symm.trans hshows₁.2)
        exact .inl hclosed'
      · exact .inr (hid ▸ hrest)

end Service

end RegistryGraph
