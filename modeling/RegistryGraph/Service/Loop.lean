import RegistryGraph.Service.Basic

/-!
# The loops of the streams

A loop of its own serves every stream: it announces the address, answers the requests that wait in the
session one after the other, and gives signs of life in between.  It hands its events over through a
buffer of bounded size.  When the client is gone, or when the session is closed and nothing waits any
more, the loop ends and unregisters the session.

`Service.loopStep?` are the steps that a loop can take; which one it takes, and when, depends on what
happens around it.  `Service.nextEvent` lets a loop run while its client waits for an event and nothing
else happens.
-/

namespace RegistryGraph

/-- What the loop of a stream does at one time. -/
inductive LoopStep where
  /-- Turns to the announcement of the address. -/
  | announce
  /-- Answers the request that has waited longest. -/
  | serve
  /-- Turns to a sign of life. -/
  | tick
  /-- Puts the event at hand into the buffer. -/
  | send
  /-- Ends. -/
  | close
deriving DecidableEq, Repr

namespace EventStream

/-- The greatest number of events in a buffer. -/
def bufferLimit : Nat := 32

end EventStream

namespace Service

/-- Replaces the stream with a number. -/
def setStream (s : Service) (n : Nat) (stream : EventStream) : Service :=
  { s with streams := s.streams.set n stream }

/-- Whether nothing waits in the session with a number, and nothing can come any more. -/
def isDrained (s : Service) (n : Nat) : Bool :=
  match (s.sessions.receive n).2 with
  | some (.request _) | some .empty => false
  | some .disconnected | none => true

/-- Answers the request that has waited longest in a session on the context of the stream. -/
def serveNext? (uptime n : Nat) (s : Service) (stream : EventStream) : Option Service :=
  match s.sessions.receive n with
  | (sessions, some (.request r)) =>
    let (statistics, response) :=
      Rpc.Dispatch.handleRequest stream.context uptime s.statistics r
    let phase :=
      match response with
      | some response => StreamPhase.sending (.message response)
      | none => .serving
    some ({ s with sessions, statistics }.setStream n { stream with phase })
  | _ => none

/-- Takes a step in the loop of the stream with a number, if the loop can take it. -/
def loopStep? (uptime n : Nat) (s : Service) (step : LoopStep) : Option Service :=
  s.streams[n]?.bind fun stream =>
    match step, stream.phase with
    | .announce, .announcing =>
      some (s.setStream n { stream with phase := .sending (.endpoint stream.address) })
    | .serve, .serving => s.serveNext? uptime n stream
    | .tick, .serving => some (s.setStream n { stream with phase := .sending .keepalive })
    | .send, .sending event =>
      if stream.connected && stream.buffer.length < EventStream.bufferLimit then
        some (s.setStream n { stream with phase := .serving, buffer := stream.buffer ++ [event] })
      else none
    | .close, phase =>
      let isOver :=
        match phase with
        | .serving => !stream.connected || s.isDrained n
        | .sending _ => !stream.connected
        | .announcing | .ended => false
      if isOver then
        some ({ s with sessions := s.sessions.unregister stream.id }.setStream n
          { stream with phase := .ended })
      else none
    | _, _ => none

/-- The step that a loop takes when nothing happens around it; none at its end. -/
def nextStep? (s : Service) (n : Nat) : Option LoopStep :=
  s.streams[n]?.bind fun stream =>
    match stream.phase with
    | .announcing => some .announce
    | .sending _ => some (if stream.connected then .send else .close)
    | .serving =>
      if !stream.connected then some .close
      else
        match (s.sessions.receive n).2 with
        | some (.request _) => some .serve
        | some .empty => some .tick
        | some .disconnected | none => some .close
    | .ended => none

/-- Takes the next step of a loop when nothing happens around it. -/
def proceed? (uptime n : Nat) (s : Service) : Option Service :=
  (s.nextStep? n).bind (s.loopStep? uptime n)

/-- Takes the oldest event from the buffer of a stream, if there is one. -/
def takeEvent? (s : Service) (n : Nat) : Option (Service × Event) :=
  s.streams[n]?.bind fun stream =>
    match stream.buffer with
    | event :: rest => some (s.setStream n { stream with buffer := rest }, event)
    | [] => none

/-- The client of a stream goes away. -/
def disconnect (s : Service) (n : Nat) : Service :=
  { s with
    streams := s.streams.modify n fun stream => { stream with connected := false, buffer := [] } }

/-- How many steps a loop can take at most before there is an event in its buffer. -/
def delay (s : Service) (n : Nat) : Nat :=
  match s.streams[n]? with
  | none => 0
  | some stream =>
    if stream.buffer.isEmpty then
      match stream.phase with
      | .ended => 0
      | .sending _ => 1
      | .announcing => 2
      | .serving => 2 + (((s.sessions.session? n).map (·.waiting.length)).getD 0)
    else 0

/-- A request that is received leaves one fewer waiting: the measure by which a drain ends. -/
theorem receive_waiting_lt {r r' : SessionRegistry} {n : Nat} {request : Rpc.Request}
    (h : r.receive n = (r', some (.request request))) :
    ((r'.session? n).map (·.waiting.length)).getD 0 + 1 =
      ((r.session? n).map (·.waiting.length)).getD 0 := by
  unfold SessionRegistry.receive at h
  cases hs : r.session? n with
  | none => simp [hs] at h
  | some session =>
    have hn : n < r.sessions.length := by
      unfold SessionRegistry.session? at hs
      exact (List.getElem?_eq_some_iff.1 hs).1
    simp only [hs] at h
    unfold Session.receive at h
    cases hr : session.receiving <;> cases hw : session.waiting <;> simp [hr, hw] at h
    · cases hc : session.closed <;> simp [hc] at h
    · obtain ⟨rfl, rfl⟩ := h
      simp [SessionRegistry.replace, SessionRegistry.session?, hn, hw]

/-- A loop comes nearer to its next event with every step that it takes while nothing waits in its
buffer. -/
theorem delay_proceed_lt {uptime n : Nat} {s s' : Service} (hbuffer : s.takeEvent? n = none)
    (h : s.proceed? uptime n = some s') : s'.delay n < s.delay n := by
  unfold proceed? nextStep? at h
  unfold takeEvent? at hbuffer
  cases hs : s.streams[n]? with
  | none => simp [hs] at h
  | some stream =>
    obtain ⟨hn, hget⟩ := List.getElem?_eq_some_iff.1 hs
    have hempty : stream.buffer = [] := by
      cases hb : stream.buffer with
      | nil => rfl
      | cons event rest => simp [hs, hb] at hbuffer
    simp only [hs, Option.bind_some] at h
    cases hp : stream.phase with
    | announcing =>
      simp only [hp, Option.bind_some, loopStep?, hs, Option.some.injEq] at h
      subst h
      simp [delay, setStream, hn, hget, hempty, hp]
    | sending event =>
      cases hc : stream.connected <;>
        simp [hp, hc, loopStep?, hs, hempty, EventStream.bufferLimit] at h <;> subst h <;>
        simp [delay, setStream, hn, hget, hempty, hp]
    | serving =>
      cases hc : stream.connected with
      | false =>
        simp [hp, hc, loopStep?, hs] at h
        subst h
        simp only [delay, setStream, List.getElem?_set_self hn, hs, hempty, hp, List.isEmpty_nil,
          if_true]
        omega
      | true =>
        cases hr : s.sessions.receive n with
        | mk sessions receipt =>
          rcases receipt with _ | (request | _ | _)
          · simp [hp, hc, hr, loopStep?, hs, isDrained] at h
            subst h
            simp only [delay, setStream, List.getElem?_set_self hn, hs, hempty, hp, List.isEmpty_nil,
              if_true]
            omega
          · have hlt := receive_waiting_lt hr
            simp only [hp, hc, hr, loopStep?, hs, serveNext?, Bool.not_true, Bool.false_eq_true,
              if_false, Option.bind_some, Option.some.injEq] at h
            subst h
            simp only [delay, setStream, List.getElem?_set_self hn, hs, hempty, hp,
              List.isEmpty_nil, if_true]
            split <;> simp_all <;> omega
          · simp [hp, hc, hr, loopStep?, hs] at h
            subst h
            simp only [delay, setStream, List.getElem?_set_self hn, hs, hempty, hp, List.isEmpty_nil,
              if_true]
            omega
          · simp [hp, hc, hr, loopStep?, hs, isDrained] at h
            subst h
            simp only [delay, setStream, List.getElem?_set_self hn, hs, hempty, hp, List.isEmpty_nil,
              if_true]
            omega
    | ended => simp [hp] at h

/-- Lets the loop of a stream run until its client can take an event; none at the end of the stream. -/
def nextEvent (uptime n : Nat) (s : Service) : Service × Option Event :=
  match h : s.takeEvent? n with
  | some (s, event) => (s, some event)
  | none =>
    match h' : s.proceed? uptime n with
    | none => (s, none)
    | some s' =>
      have := delay_proceed_lt h h'
      nextEvent uptime n s'
termination_by s.delay n

end Service

end RegistryGraph
