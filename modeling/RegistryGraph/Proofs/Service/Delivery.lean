import Mathlib.Data.List.Forall2
import RegistryGraph.Proofs.Service.Streams
import RegistryGraph.Proofs.Store.IndexCalls
import RegistryGraph.Proofs.Store.Reuse

/-!
# What a stream brings

A client opens a stream of events and posts requests to its session.  Whatever else happens, and in
whatever order, the stream brings the answers in the order in which the requests were accepted.  The
invariant is a ledger: what was accepted is what the loop has received and what still waits, and the
responses written so far answer what was received.

* `Delivers.step`: one step keeps the ledger.
* `Watch.delivers_run`: so does a whole run.
* `Service.exists_finish`: a stream whose session is closed can come to its end.
* `Service.answers_in_order`: what the client can rely on.
-/

namespace RegistryGraph

/-- The response that an event carries. -/
def Event.response? : Event → Option Rpc.Response
  | .message response => some response
  | .endpoint _ | .keepalive => none

/-- The responses that events carry. -/
def Event.responses (events : List Event) : List Rpc.Response := events.filterMap response?

/-- The requests that want a response. -/
def Rpc.Request.wanted (requests : List Rpc.Request) : List Rpc.Request :=
  requests.filter fun request => !request.isNotification

/-- The event that the loop of a stream has at hand. -/
def StreamPhase.atHand : StreamPhase → List Event
  | .sending event => [event]
  | .announcing | .serving | .ended => []

/-- The events of a stream so far: those that the client has taken, those in the buffer, and the one at
hand. -/
def EventStream.written (stream : EventStream) (taken : List Event) : List Event :=
  taken ++ stream.buffer ++ stream.phase.atHand

/-- What holds of a stream while its client is there.  The requests that were accepted are those that the
loop has received and those that wait. -/
structure Delivers (accepted : List Rpc.Request) (taken : List Event) (stream : EventStream)
    (session : Session) : Prop where
  opening : stream.phase = .announcing ∧ stream.written taken = [] ∨
    ∃ rest, stream.written taken = .endpoint stream.address :: rest
  answered : ∃ served, accepted = served ++ session.waiting ∧
    List.Forall₂ (Rpc.Dispatch.Answers stream.context) (Rpc.Request.wanted served)
      (Event.responses (stream.written taken))
  at_end : stream.phase = .ended → session.closed = true ∧ session.waiting = []

namespace Delivers

variable {accepted accepted' : List Rpc.Request} {taken taken' : List Event}
  {stream stream' : EventStream} {session session' : Session}

/-- What a step adds to the ledger: it writes `new` and receives `received`, and `added` is accepted. -/
theorem extend (h : Delivers accepted taken stream session) {new : List Event}
    {received added : List Rpc.Request} (hcontext : stream'.context = stream.context)
    (haddress : stream'.address = stream.address)
    (hwritten : stream'.written taken' = stream.written taken ++ new)
    (hfirst : stream.phase = .announcing →
      stream'.phase = .announcing ∧ new = [] ∨ new = [.endpoint stream.address])
    (haccepted : accepted' = accepted ++ added)
    (hwaiting : session.waiting ++ added = received ++ session'.waiting)
    (hanswers : List.Forall₂ (Rpc.Dispatch.Answers stream.context) (Rpc.Request.wanted received)
      (Event.responses new))
    (hover : stream'.phase = .ended → session'.closed = true ∧ session'.waiting = []) :
    Delivers accepted' taken' stream' session' where
  opening := by
    rw [hwritten, haddress]
    rcases h.opening with ⟨hphase, hnone⟩ | ⟨rest, hrest⟩
    · rcases hfirst hphase with ⟨hphase', rfl⟩ | rfl
      · exact .inl ⟨hphase', by rw [hnone]; rfl⟩
      · exact .inr ⟨[], by rw [hnone]; rfl⟩
    · exact .inr ⟨rest ++ new, by rw [hrest]; rfl⟩
  answered := by
    obtain ⟨served, hserved, hanswered⟩ := h.answered
    refine ⟨served ++ received, ?_, ?_⟩
    · rw [haccepted, hserved, List.append_assoc, hwaiting, List.append_assoc]
    · rw [hcontext, hwritten, Event.responses, List.filterMap_append, Rpc.Request.wanted,
        List.filter_append]
      exact List.rel_append hanswered hanswers
  at_end := hover

/-- Without requests there is nothing to answer. -/
theorem answers_nothing (context : ToolContext) :
    List.Forall₂ (Rpc.Dispatch.Answers context) (Rpc.Request.wanted []) (Event.responses []) := .nil

/-- **One step.**  Everything that a loop writes is written behind what was there; a response is written
for the request that has waited longest, unless that wants none. -/
theorem step (hstep : StreamStep stream session accepted' taken' stream' session')
    (h : stream.connected = true → Delivers accepted taken stream session)
    (hconnected : stream'.connected = true) :
    Delivers (accepted ++ accepted') (taken ++ taken') stream' session' := by
  have hnothing := answers_nothing stream.context
  have hunwritten : stream.written (taken ++ []) = stream.written taken ++ [] := by
    rw [List.append_nil, List.append_nil]
  have hunreceived : session.waiting ++ [] = [] ++ session.waiting := List.append_nil _
  have hstill : stream.phase = .announcing →
      stream.phase = .announcing ∧ ([] : List Event) = [] ∨ [] = [Event.endpoint stream.address] :=
    fun hphase => .inl ⟨hphase, rfl⟩
  have hserving : ∀ {P : Prop}, stream.phase = .serving → stream.phase = .announcing → P := by
    intro P hphase hphase'
    rw [hphase] at hphase'
    cases hphase'
  cases hstep with
  | stay =>
      have h := h hconnected
      exact h.extend rfl rfl hunwritten hstill rfl hunreceived hnothing h.at_end
  | queue request is_open =>
      have h := h hconnected
      refine h.extend rfl rfl hunwritten hstill rfl rfl hnothing ?_
      intro hended
      rw [(h.at_end hended).1] at is_open
      cases is_open
  | shut =>
      have h := h hconnected
      exact h.extend rfl rfl hunwritten hstill rfl hunreceived hnothing
        fun hended => ⟨rfl, (h.at_end hended).2⟩
  | announce announcing =>
      have hwritten : EventStream.written
          { stream with phase := .sending (.endpoint stream.address) } (taken ++ []) =
            stream.written taken ++ [.endpoint stream.address] := by
        simp [EventStream.written, announcing, StreamPhase.atHand]
      exact (h hconnected).extend rfl rfl hwritten (fun _ => .inr rfl) rfl hunreceived hnothing nofun
  | @answer request rest response _ _ serving waiting handled =>
      have hwritten : EventStream.written
          { stream with phase := .sending (.message response) } (taken ++ []) =
            stream.written taken ++ [.message response] := by
        simp [EventStream.written, serving, StreamPhase.atHand]
      have hwaiting : session.waiting ++ [] = [request] ++ rest := by
        rw [List.append_nil, waiting]
        rfl
      have hwanted : Rpc.Request.wanted [request] = [request] := by
        simp [Rpc.Request.wanted, Rpc.Dispatch.isNotification_of_respond handled]
      refine (h hconnected).extend rfl rfl hwritten (hserving serving) rfl hwaiting ?_ nofun
      rw [hwanted]
      exact .cons (Rpc.Dispatch.answers_of_handled handled) .nil
  | @skip request rest serving waiting unwanted =>
      have hwaiting : session.waiting ++ [] = [request] ++ rest := by
        rw [List.append_nil, waiting]
        rfl
      have hwanted : Rpc.Request.wanted [request] = [] := by
        simp [Rpc.Request.wanted, unwanted]
      refine (h hconnected).extend rfl rfl hunwritten hstill rfl hwaiting ?_ ?_
      · rw [hwanted]
        exact .nil
      · intro hended
        rw [serving] at hended
        cases hended
  | tick serving =>
      have hwritten : EventStream.written { stream with phase := .sending .keepalive } (taken ++ []) =
          stream.written taken ++ [.keepalive] := by
        simp [EventStream.written, serving, StreamPhase.atHand]
      exact (h hconnected).extend rfl rfl hwritten (hserving serving) rfl hunreceived hnothing nofun
  | @send event sending =>
      have hwritten : EventStream.written
          { stream with phase := .serving, buffer := stream.buffer ++ [event] } (taken ++ []) =
            stream.written taken ++ [] := by
        simp [EventStream.written, sending, StreamPhase.atHand]
      refine (h hconnected).extend rfl rfl hwritten ?_ rfl hunreceived hnothing nofun
      intro hphase
      rw [sending] at hphase
      cases hphase
  | finish hsession hover =>
      -- The client is there, so the loop can only have run out of requests.
      obtain ⟨serving, hclosed, hnone⟩ := hover.resolve_left fun hgone => by
        rw [hconnected] at hgone
        cases hgone
      have hwritten : EventStream.written { stream with phase := .ended } (taken ++ []) =
          stream.written taken ++ [] := by
        simp [EventStream.written, serving, StreamPhase.atHand]
      rcases hsession with rfl | rfl
      · exact (h hconnected).extend rfl rfl hwritten (hserving serving) rfl hunreceived hnothing
          fun _ => ⟨hclosed, hnone⟩
      · exact (h hconnected).extend rfl rfl hwritten (hserving serving) rfl hunreceived hnothing
          fun _ => ⟨rfl, hnone⟩
  | @take event rest buffer =>
      have h := h hconnected
      have hwritten : EventStream.written { stream with buffer := rest } (taken ++ [event]) =
          stream.written taken ++ [] := by
        simp [EventStream.written, buffer]
      exact h.extend rfl rfl hwritten hstill rfl hunreceived hnothing h.at_end
  | leave => cases hconnected

end Delivers

/-- A service, and what has happened to one stream and its session. -/
structure Watch where
  service : Service
  /-- The requests that were accepted on the session. -/
  accepted : List Rpc.Request
  /-- The events that the client has taken. -/
  taken : List Event

namespace Watch

/-- What an event does; the stream that is watched has the number `n`, and its session has the id. -/
def next (n : Nat) (id : String) (w : Watch) (e : ServiceEvent) : Watch where
  service := w.service.after e
  accepted := w.accepted ++ w.service.acceptedBy n id e
  taken := w.taken ++ w.service.takenBy n e

/-- What events do, one after the other. -/
def run (n : Nat) (id : String) (w : Watch) (events : List ServiceEvent) : Watch :=
  events.foldl (next n id) w

variable {w : Watch} {n : Nat} {stream : EventStream} {session : Session}

/-- **A whole run.** -/
theorem delivers_run (hsound : w.service.Sound) (hshows : w.service.Shows n stream session)
    (h : stream.connected = true → Delivers w.accepted w.taken stream session)
    (events : List ServiceEvent) :
    (w.run n stream.id events).service.Sound ∧
      ∃ stream' session', (w.run n stream.id events).service.Shows n stream' session' ∧
        stream'.id = stream.id ∧ stream'.context = stream.context ∧
        stream'.address = stream.address ∧
        (stream'.connected = true → Delivers (w.run n stream.id events).accepted
          (w.run n stream.id events).taken stream' session') := by
  induction events generalizing w stream session with
  | nil => exact ⟨hsound, stream, session, hshows, rfl, rfl, rfl, h⟩
  | cons e rest ih =>
      obtain ⟨stream₁, session₁, hshows₁, hstep⟩ := Service.streamStep_after hsound hshows e
      obtain ⟨hid, hcontext, haddress, _, _⟩ := hstep.keeps
      have hnext : stream₁.connected = true →
          Delivers (w.next n stream.id e).accepted (w.next n stream.id e).taken stream₁ session₁ :=
        Delivers.step hstep h
      have hrest := ih (hsound.after e) hshows₁ hnext
      rw [hid] at hrest
      obtain ⟨hsound', stream', session', hshows', hid', hcontext', haddress', h'⟩ := hrest
      exact ⟨hsound', stream', session', hshows', hid', hcontext'.trans hcontext,
        haddress'.trans haddress, h'⟩

end Watch

/-! ## The end of a stream -/

/-- How far a stream whose session is closed is from its end. -/
def EventStream.remaining (stream : EventStream) (session : Session) : Nat :=
  3 * session.waiting.length + stream.buffer.length +
    match stream.phase with
    | .announcing => 4
    | .sending _ => 3
    | .serving => 1
    | .ended => 0

namespace Service

variable {s : Service} {n : Nat} {stream : EventStream} {session : Session}

/-- The loop of a stream does something, or its client takes an event. -/
def IsOwn (n : Nat) (e : ServiceEvent) : Prop := e = .take n ∨ ∃ uptime step, e = .loop n uptime step

/-- A stream that is set is shown with the session that stands beside it. -/
theorem Shows.of_setStream {s₁ s' : Service} {stream' : EventStream} {session' : Session}
    (hshows : s.Shows n stream session) (h : s' = s₁.setStream n stream')
    (hstreams : s₁.streams = s.streams) (hsession : s₁.sessions.session? n = some session') :
    s'.Shows n stream' session' := by
  subst h
  have hn : n < s₁.streams.length := hstreams ▸ (List.getElem?_eq_some_iff.1 hshows.1).1
  exact ⟨List.getElem?_set_self hn, hsession⟩

/-- A stream whose session is closed comes nearer to its end by what it does itself. -/
theorem exists_nearer (hsound : s.Sound) (hshows : s.Shows n stream session)
    (hconnected : stream.connected = true) (hclosed : session.closed = true)
    (hphase : stream.phase ≠ .ended) :
    ∃ e stream' session', IsOwn n e ∧ (s.after e).Shows n stream' session' ∧
      stream'.connected = true ∧ session'.closed = true ∧
      stream'.remaining session' < stream.remaining session := by
  have hreceiving := hsound.sessions.receiving n session hshows.2
  cases hp : stream.phase with
  | announcing =>
      have hstep : s.after (.loop n 0 .announce) =
          s.setStream n { stream with phase := .sending (.endpoint stream.address) } := by
        rw [after, loopStep?, hshows.1, Option.bind_some, hp]
        rfl
      refine ⟨.loop n 0 .announce, _, session, .inr ⟨0, .announce, rfl⟩,
        hshows.of_setStream hstep rfl hshows.2, hconnected, hclosed, ?_⟩
      simp only [EventStream.remaining, hp]
      omega
  | sending event =>
      by_cases hroom : stream.buffer.length < EventStream.bufferLimit
      · have hstep : s.after (.loop n 0 .send) = s.setStream n
            { stream with phase := .serving, buffer := stream.buffer ++ [event] } := by
          rw [after, loopStep?, hshows.1, Option.bind_some, hp]
          simp [hconnected, hroom]
        refine ⟨.loop n 0 .send, _, session, .inr ⟨0, .send, rfl⟩,
          hshows.of_setStream hstep rfl hshows.2, hconnected, hclosed, ?_⟩
        simp only [EventStream.remaining, hp, List.length_append, List.length_singleton]
        omega
      -- There is no room, so the client has an event to take.
      · cases hbuffer : stream.buffer with
        | nil =>
            rw [hbuffer] at hroom
            exact absurd (by decide) hroom
        | cons first rest =>
            have hstep : s.after (.take n) = s.setStream n { stream with buffer := rest } := by
              rw [after, takeEvent?, hshows.1, Option.bind_some, hbuffer]
              rfl
            refine ⟨.take n, _, session, .inl rfl,
              hshows.of_setStream hstep rfl hshows.2, hconnected, hclosed, ?_⟩
            simp only [EventStream.remaining, hp, hbuffer, List.length_cons]
            omega
  | serving =>
      cases hwaiting : session.waiting with
      | nil =>
          have hdrained : s.isDrained n = true :=
            (isDrained_iff hshows hreceiving).2 ⟨hclosed, hwaiting⟩
          have hstep : s.after (.loop n 0 .close) =
              setStream { s with sessions := s.sessions.unregister stream.id } n
                { stream with phase := .ended } := by
            rw [after, loopStep?, hshows.1, Option.bind_some, hp]
            simp [hdrained]
          obtain ⟨session', hsession', hclosed', hwaiting'⟩ :
              ∃ session', (s.sessions.unregister stream.id).session? n = some session' ∧
                session'.closed = true ∧ session'.waiting = session.waiting := by
            rcases SessionRegistry.session?_unregister stream.id hshows.2 with hsame | hshut
            · exact ⟨session, hsame, hclosed, rfl⟩
            · exact ⟨session.close, hshut, rfl, rfl⟩
          refine ⟨.loop n 0 .close, _, session', .inr ⟨0, .close, rfl⟩,
            hshows.of_setStream hstep rfl hsession', hconnected, hclosed', ?_⟩
          simp only [EventStream.remaining, hp, hwaiting']
          omega
      | cons request rest =>
          obtain ⟨s', hserve⟩ : ∃ s', s.serveNext? 0 n stream = some s' := by
            rw [serveNext?, receive_eq hshows hreceiving, hwaiting]
            exact ⟨_, rfl⟩
          have hstep : s.after (.loop n 0 .serve) = s' := by
            rw [after, loopStep?, hshows.1, Option.bind_some, hp]
            exact congrArg (·.getD s) hserve
          obtain ⟨request', rest', phase, hwaiting', hsessions, hstreams, hserved⟩ :=
            serveNext?_eq_some hshows hreceiving hserve
          have hshows' : (s.after (.loop n 0 .serve)).Shows n { stream with phase }
              { session with waiting := rest' } := by
            rw [hstep]
            refine ⟨?_, ?_⟩
            · rw [hstreams]
              exact List.getElem?_set_self (List.getElem?_eq_some_iff.1 hshows.1).1
            · rw [hsessions]
              exact SessionRegistry.session?_replace_self hshows.2 _
          refine ⟨.loop n 0 .serve, _, _, .inr ⟨0, .serve, rfl⟩, hshows', hconnected, hclosed, ?_⟩
          have hlength := congrArg List.length hwaiting'
          rw [List.length_cons] at hlength
          rcases hserved with ⟨response, rfl, _⟩ | ⟨rfl, _⟩ <;>
            simp only [EventStream.remaining, hp] <;> omega
  | ended => exact absurd hp hphase

/-- A stream whose session is closed can end by what it does itself, and its client stays to the end. -/
theorem exists_finish (hsound : s.Sound) (hshows : s.Shows n stream session)
    (hconnected : stream.connected = true) (hclosed : session.closed = true) :
    ∃ more stream' session', (∀ e ∈ more, IsOwn n e) ∧ (s.run more).Shows n stream' session' ∧
      stream'.connected = true ∧ stream'.phase = .ended := by
  induction hk : stream.remaining session using Nat.strongRecOn
    generalizing s stream session with
  | ind k ih =>
      by_cases hphase : stream.phase = .ended
      · exact ⟨[], stream, session, nofun, hshows, hconnected, hphase⟩
      · obtain ⟨e, stream₁, session₁, hown, hshows₁, hconnected₁, hclosed₁, hlt⟩ :=
          exists_nearer hsound hshows hconnected hclosed hphase
        obtain ⟨more, stream', session', hall, hshows', hend⟩ :=
          ih _ (hk ▸ hlt) (hsound.after e) hshows₁ hconnected₁ hclosed₁ rfl
        exact ⟨e :: more, stream', session', List.forall_mem_cons.2 ⟨hown, hall⟩, hshows', hend⟩

end Service

namespace Watch

variable {w : Watch} {n : Nat} {id : String}

/-- Watching a service does not change what happens to it. -/
theorem service_run (w : Watch) (n : Nat) (id : String) (events : List ServiceEvent) :
    (w.run n id events).service = w.service.run events := by
  induction events generalizing w with
  | nil => rfl
  | cons e rest ih => exact ih (w.next n id e)

/-- What a stream does itself brings no requests. -/
theorem accepted_run_of_isOwn {events : List ServiceEvent} (h : ∀ e ∈ events, Service.IsOwn n e) :
    (w.run n id events).accepted = w.accepted := by
  induction events generalizing w with
  | nil => rfl
  | cons e rest ih =>
      rw [List.forall_mem_cons] at h
      refine (ih h.2).trans ?_
      rcases h.1 with rfl | ⟨uptime, step, rfl⟩ <;> exact List.append_nil _

/-- What the client of a stream has got so far, in view of the requests accepted on the session. -/
structure Serves (w : Watch) (n : Nat) (address : String) (stream : EventStream)
    (session : Session) : Prop where
  /-- The first event tells the address. -/
  first : ∀ event rest, w.taken ++ stream.buffer = event :: rest → event = .endpoint address
  /-- The responses are answers to the first of the requests that want one, in their order. -/
  in_order : ∃ answered later, Rpc.Request.wanted w.accepted = answered ++ later ∧
    List.Forall₂ (Rpc.Dispatch.Answers stream.context) answered
      (Event.responses (w.taken ++ stream.buffer))
  /-- At the end of the stream all of them are answered. -/
  complete : stream.phase = .ended →
    List.Forall₂ (Rpc.Dispatch.Answers stream.context) (Rpc.Request.wanted w.accepted)
      (Event.responses (w.taken ++ stream.buffer))
  /-- Once the session is closed, the loop and the client alone can bring the stream to its end, and
  then all of them are answered. -/
  finishes : session.closed = true → ∃ more stream' session',
    (∀ e ∈ more, Service.IsOwn n e) ∧ (w.run n stream.id more).service.Shows n stream' session' ∧
      stream'.connected = true ∧ stream'.phase = .ended ∧
      List.Forall₂ (Rpc.Dispatch.Answers stream.context) (Rpc.Request.wanted w.accepted)
        (Event.responses ((w.run n stream.id more).taken ++ stream'.buffer))

end Watch

/-- A stream that has ended has answered all that was accepted. -/
theorem Delivers.complete {accepted : List Rpc.Request} {taken : List Event} {stream : EventStream}
    {session : Session} (h : Delivers accepted taken stream session)
    (hended : stream.phase = .ended) :
    List.Forall₂ (Rpc.Dispatch.Answers stream.context) (Rpc.Request.wanted accepted)
      (Event.responses (taken ++ stream.buffer)) := by
  obtain ⟨served, hserved, hanswers⟩ := h.answered
  rw [(h.at_end hended).2, List.append_nil] at hserved
  rw [EventStream.written, hended, StreamPhase.atHand, List.append_nil] at hanswers
  rwa [hserved]

namespace Watch

variable {w : Watch} {n : Nat} {stream : EventStream} {session : Session}

/-- A stream that delivers serves its client. -/
theorem serves_of_delivers (hsound : w.service.Sound) (hshows : w.service.Shows n stream session)
    (hconnected : stream.connected = true) (h : Delivers w.accepted w.taken stream session) :
    w.Serves n stream.address stream session where
  first := by
    intro event rest hevents
    have hwritten : stream.written w.taken = event :: (rest ++ stream.phase.atHand) := by
      rw [EventStream.written, hevents, List.cons_append]
    rcases h.opening with ⟨_, hnone⟩ | ⟨rest', hrest⟩
    · rw [hwritten] at hnone
      cases hnone
    · rw [hwritten] at hrest
      exact (List.cons.inj hrest).1
  in_order := by
    obtain ⟨served, hserved, hanswers⟩ := h.answered
    rw [EventStream.written, Event.responses, List.filterMap_append] at hanswers
    -- The event at hand has not reached the client: its answer is left out.
    have hfirst := List.forall₂_take_append _ _ _ hanswers
    have hsplit : Rpc.Request.wanted w.accepted =
        Rpc.Request.wanted served ++ Rpc.Request.wanted session.waiting := by
      rw [hserved, Rpc.Request.wanted, List.filter_append]
      rfl
    rw [← List.take_append_drop (Event.responses (w.taken ++ stream.buffer)).length
      (Rpc.Request.wanted served), List.append_assoc] at hsplit
    exact ⟨_, _, hsplit, hfirst⟩
  complete := h.complete
  finishes := by
    intro hclosed
    obtain ⟨more, stream', session', hown, hshows', hconnected', hended⟩ :=
      Service.exists_finish hsound hshows hconnected hclosed
    -- What the stream does on its own keeps the ledger, and no request comes in.
    obtain ⟨_, stream₁, session₁, hshows₁, hid, hcontext, _, h'⟩ :=
      delivers_run hsound hshows (fun _ => h) more
    rw [← service_run w n stream.id] at hshows'
    obtain ⟨rfl, rfl⟩ := hshows'.unique hshows₁
    have hcomplete := (h' hconnected').complete hended
    rw [accepted_run_of_isOwn hown, hcontext] at hcomplete
    exact ⟨more, _, _, hown, hshows', hconnected', hended, hcomplete⟩

end Watch

namespace Service

/-- **What is posted to a stream is answered in it, in order.**  A request for the events of a repository
opens a stream on the context of that moment.  Whatever happens afterwards, and in whatever order, the
stream keeps this context; and while its client is there, the stream begins with the address, brings
the answers to the accepted requests in their order, each of them once, and does not end before the
last. -/
theorem answers_in_order (settings : Settings) (root : String) (supply : IdSupply)
    (before : List ServiceEvent) (t : FileTree) (uptime : Nat) (r : HttpRequest) (n : Nat) :
    let s := (start settings root supply).run before
    (s.respond t uptime r).2.body = .stream n →
      ∃ name context id, r.repository? = some name ∧ (s.contextOf t name).2 = .ok context ∧
        (HttpRequest.sessionHeader, id) ∈ (s.respond t uptime r).2.headers ∧
        ∀ events,
          let w := Watch.run n id ⟨(s.respond t uptime r).1, [], []⟩ events
          ∃ stream session, w.service.Shows n stream session ∧ stream.id = id ∧
            stream.context = context ∧ (.unregister id ∈ events → session.closed = true) ∧
            (stream.connected = true → w.Serves n (postAddress r.target.path id) stream session) := by
  intro s hbody
  have hsound : s.Sound := (sound_start settings root supply).run before
  have hhandled := handled_respond s t uptime r
  have hsound' := hsound.handled hhandled
  cases hhandled with
  | kept _ _ hunopened => exact absurd hbody (hunopened n)
  | queued _ _ _ _ _ _ _ hunopened => exact absurd hbody (hunopened n)
  | @opened name context sessions number _ hleads hloaded hregistered hsessions hstreams _ hbody'
      htells =>
      obtain rfl : number = n := HttpBody.stream.inj (hbody'.symm.trans hbody)
      obtain ⟨hnumber, _, happend⟩ := SessionRegistry.register?_eq_some hregistered
      have hstream : (s.respond t uptime r).1.streams[number]? =
          some (.fresh (s.sessions.nextId) context r.target.path) := by
        rw [hstreams, hnumber, ← hsound.length_eq, List.getElem?_concat_length]
      have hsession : (s.respond t uptime r).1.sessions.session? number =
          some (.fresh (s.sessions.nextId) name.text) := by
        rw [hsessions, SessionRegistry.session?, happend, hnumber, List.getElem?_concat_length]
      let opened : Watch := ⟨(s.respond t uptime r).1, [], []⟩
      have hshows : opened.service.Shows number
          (.fresh (s.sessions.nextId) context r.target.path)
          (.fresh (s.sessions.nextId) name.text) := ⟨hstream, hsession⟩
      have hfresh : Delivers opened.accepted opened.taken
          (.fresh (s.sessions.nextId) context r.target.path)
          (.fresh (s.sessions.nextId) name.text) :=
        ⟨.inl ⟨rfl, rfl⟩, ⟨[], rfl, .nil⟩, fun hended => by cases hended⟩
      refine ⟨name, context, s.sessions.nextId, hleads, hloaded, htells, ?_⟩
      intro events
      obtain ⟨hsound'', stream, session, hshows', hid, hcontext, haddress, hdelivers⟩ :=
        Watch.delivers_run hsound' hshows (fun _ => hfresh) events
      refine ⟨stream, session, hshows', hid, hcontext, ?_, ?_⟩
      · intro hmem
        obtain ⟨stream', session', hshows'', hclosed⟩ := closed_run hsound' hshows events (.inr hmem)
        rw [Watch.service_run] at hshows'
        exact (hshows'.unique hshows'').2 ▸ hclosed
      intro hconnected
      have hserves := Watch.serves_of_delivers hsound'' hshows' hconnected (hdelivers hconnected)
      rw [haddress] at hserves
      exact hserves

/-! ## A stream on a repository with one source -/

/-- The context of the repository with one source. -/
theorem exists_contextOf (settings : Settings) (ids : IdGenerator) :
    ∃ store cache context,
      (start settings "" ids).contextOf oneSourceTree ⟨"o", "r"⟩ =
        ({ start settings "" ids with store, cache }, .ok context) := by
  have hroot : (RepoStore.ofRoot "").directoryOf ⟨"o", "r"⟩ = "o/r" := by decide +kernel
  have hsnapshot := RepoStore.snapshot_of_load (hroot ▸ directory?_oneSourceTree) rfl
    (hroot ▸ load_oneSourceTree)
  obtain ⟨index, hindex⟩ : ∃ index, oneSourceSnapshot.buildIndex "a.xml" = .ok index := by
    have hbuilt : (EntityIndex.build oneSourceContent "a.xml"
        oneSourceSnapshot.revision).toOption.isSome = true := by
      generalize oneSourceSnapshot.revision = revision
      cbv
    obtain ⟨index, hindex⟩ := Option.isSome_iff_exists.1 hbuilt
    refine ⟨index, Snapshot.buildIndex_eq_ok_iff.2 ⟨oneSourceContent, rfl, ?_⟩⟩
    cases hb : EntityIndex.build oneSourceContent "a.xml" oneSourceSnapshot.revision with
    | ok built => rw [hb] at hindex; exact congrArg Except.ok (Option.some.inj hindex)
    | error fault => rw [hb] at hindex; cases hindex
  have hprimary : (IndexCache.ofCapacity settings.cachedIndexes).primaryIndex oneSourceSnapshot =
      (((IndexCache.ofCapacity settings.cachedIndexes).insert
          (IndexCache.keyOf oneSourceSnapshot "a.xml") index).1,
        .ok ((IndexCache.ofCapacity settings.cachedIndexes).insert
          (IndexCache.keyOf oneSourceSnapshot "a.xml") index).2) := by
    have hpath : oneSourceSnapshot.primaryPath = .ok "a.xml" := rfl
    rw [IndexCache.primaryIndex, hpath]
    dsimp only
    rw [IndexCache.getOrBuild, hindex]
    rfl
  have hdirectory : (start settings "" ids).store.directory? oneSourceTree ⟨"o", "r"⟩ =
      some "o/r" := directory?_oneSourceTree
  have hstore : (start settings "" ids).store.snapshot oneSourceTree ⟨"o", "r"⟩ = _ := hsnapshot
  have hcache : (start settings "" ids).cache.primaryIndex oneSourceSnapshot = _ := hprimary
  rw [contextOf, hdirectory]
  dsimp only
  rw [loadContext, hstore]
  dsimp only
  rw [RepoStore.insert]
  dsimp only
  rw [hcache]
  exact ⟨_, _, _, rfl⟩

/-- Asks whether the server is there. -/
def pingRequest : Rpc.Request := ⟨.null, "ping", none⟩

/-- Asks for a stream of a repository. -/
def streamRequest : HttpRequest := ⟨"GET", ⟨"/o/r/mcp", ""⟩, [], []⟩

/-- A request is posted to a new stream and answered. -/
def pingEvents : List ServiceEvent :=
  [.post 0 pingRequest, .loop 0 0 .announce, .loop 0 0 .send, .loop 0 0 .serve, .loop 0 0 .send,
    .take 0]

/-- The service with a new stream. -/
def streamService : Service :=
  ((start .default "" .hexadecimal).respond oneSourceTree 0 streamRequest).1

/-- What is seen of the new stream. -/
def pingWatch : Watch := .run 0 (IdSupply.hexadecimal.id 0) ⟨streamService, [], []⟩ pingEvents

/-- The request for a stream opens it on the repository. -/
theorem exists_streamService : ∃ store cache context,
    ((start .default "" .hexadecimal).respond oneSourceTree 0 streamRequest).2.body = .stream 0 ∧
      streamService =
        { settings := .default
          store
          cache
          statistics := .zero
          sessions :=
            { ids := .hexadecimal
              drawn := 1
              limit := 100
              inboxLimit := 16
              sessions := [.fresh (IdSupply.hexadecimal.id 0) "o/r"]
              registered := (∅ : Keyed Nat).insert (IdSupply.hexadecimal.id 0) 0 }
          streams := [.fresh (IdSupply.hexadecimal.id 0) context "/o/r/mcp"] } := by
  obtain ⟨store, cache, context, hcontext⟩ := exists_contextOf .default .hexadecimal
  have hroute : Route.ofPath? streamRequest.target.path = some (.repository "o" "r") := by
    decide +kernel
  have hname : RepoName.decode "o" "r" = .ok ⟨"o", "r"⟩ := by cbv
  obtain ⟨sessions, hregister, hsessions⟩ : ∃ sessions,
      (SessionRegistry.ofLimits .hexadecimal 100 16).register? "o/r" = some (sessions, 0) ∧
        sessions = ⟨.hexadecimal, 1, 100, 16, [.fresh (IdSupply.hexadecimal.id 0) "o/r"],
          (∅ : Keyed Nat).insert (IdSupply.hexadecimal.id 0) 0⟩ := ⟨_, rfl, rfl⟩
  obtain ⟨hservice, hbody⟩ :
      ((start .default "" .hexadecimal).respond oneSourceTree 0 streamRequest).1 = _ ∧
        ((start .default "" .hexadecimal).respond oneSourceTree 0 streamRequest).2.body =
          .stream 0 :=
    respond_of_context rfl hroute hname hcontext hregister
  refine ⟨store, cache, context, hbody, ?_⟩
  rw [streamService, hservice, hsessions]
  rfl

/-- A posted question is answered on the new stream. -/
theorem answers_in_order_ping :
    ((start .default "" .hexadecimal).respond oneSourceTree 0 streamRequest).2.body = .stream 0 ∧
      ∃ stream session response, pingWatch.service.Shows 0 stream session ∧
        pingWatch.accepted = [pingRequest] ∧ stream.connected = true ∧
        stream.buffer = [.message response] ∧
        pingWatch.Serves 0 (postAddress "/o/r/mcp" (IdSupply.hexadecimal.id 0)) stream session := by
  obtain ⟨store, cache, context, hbody, hservice⟩ := exists_streamService
  obtain ⟨_, _, id, _, _, _, hall⟩ :=
    answers_in_order .default "" .hexadecimal [] oneSourceTree 0 streamRequest 0 hbody
  obtain rfl : id = IdSupply.hexadecimal.id 0 := by
    obtain ⟨stream, _, hshows, hid, _⟩ := hall []
    have hstream : streamService.streams[0]? =
        some (.fresh (IdSupply.hexadecimal.id 0) context "/o/r/mcp") := by
      rw [hservice]
      rfl
    rw [← hid, Option.some.inj (hshows.1.symm.trans hstream)]
    rfl
  obtain ⟨stream, session, hshows, _, _, _, hserves⟩ := hall pingEvents
  obtain ⟨stream', session', response, hshows', haccepted, hconnected, hbuffer⟩ :
      ∃ stream session response, pingWatch.service.Shows 0 stream session ∧
        pingWatch.accepted = [pingRequest] ∧ stream.connected = true ∧
        stream.buffer = [Event.message response] := by
    rw [pingWatch, hservice]
    exact ⟨_, _, _, ⟨rfl, rfl⟩, rfl, rfl, rfl⟩
  obtain ⟨rfl, rfl⟩ := hshows'.unique hshows
  exact ⟨hbody, _, _, response, hshows', haccepted, hconnected, hbuffer, hserves hconnected⟩

end Service

end RegistryGraph
