import RegistryGraph.Rpc.Message
import RegistryGraph.Session.Id

/-!
# Sessions

A client that listens to a stream of events has a session.  Requests are posted to the session, wait in
its inbox, and are received one by one in the order in which they were accepted.  The inbox is bounded,
and posting never waits.

The registry knows the sessions by their ids, up to a limit.  The id of a new session is drawn until one
comes that no registered session has.  A session that is unregistered is closed: it accepts nothing any
more, while what it has accepted can still be received.  Who has looked a session up keeps it; so the
registry has all sessions by number, and `registered` says which of them an id still leads to.
-/

namespace RegistryGraph

/-- A session. -/
structure Session where
  id : String
  /-- The text of the name of the repository that the session was opened on. -/
  repo : String
  closed : Bool
  /-- The accepted requests that have not been received, the oldest first. -/
  waiting : List Rpc.Request
  /-- Whether the other end of the inbox is still there. -/
  receiving : Bool

/-- What becomes of a request that is sent to a session. -/
inductive Delivery where
  | accepted
  /-- No registered session has the id. -/
  | notFound
  /-- The inbox holds as many requests as it can. -/
  | full
  /-- The session is closed, or nobody receives from it. -/
  | closed
deriving DecidableEq, Repr

/-- What a look into an inbox delivers. -/
inductive Receipt where
  | request (r : Rpc.Request)
  /-- Nothing waits now. -/
  | empty
  /-- Nothing waits, and nothing can come any more. -/
  | disconnected
deriving Repr

namespace Session

/-- A session that has just been opened. -/
def fresh (id repo : String) : Session := ⟨id, repo, false, [], true⟩

/-- Posts a request to an inbox for at most `limit` requests. -/
def post (limit : Nat) (r : Rpc.Request) (s : Session) : Session × Delivery :=
  if s.closed || !s.receiving then (s, .closed)
  else if limit ≤ s.waiting.length then (s, .full)
  else ({ s with waiting := s.waiting ++ [r] }, .accepted)

/-- Closes a session. -/
def close (s : Session) : Session := { s with closed := true }

/-- Takes the oldest request; none if the receiving end is gone. -/
def receive (s : Session) : Session × Option Receipt :=
  if s.receiving then
    match s.waiting with
    | r :: rest => ({ s with waiting := rest }, some (.request r))
    | [] => (s, some (if s.closed then .disconnected else .empty))
  else (s, none)

/-- Gives up the receiving end, and with it what waits. -/
def dropInbox (s : Session) : Session := { s with receiving := false, waiting := [] }

end Session

/-- The sessions of a server. -/
structure SessionRegistry where
  ids : IdGenerator
  /-- How many ids have been drawn. -/
  drawn : Nat
  /-- How many sessions can be registered. -/
  limit : Nat
  /-- How many requests can wait in a session. -/
  inboxLimit : Nat
  /-- All sessions so far, in the order of their registration. -/
  sessions : List Session
  /-- The numbers of the registered sessions by their ids. -/
  registered : Keyed Nat

namespace SessionRegistry

/-- A registry without sessions; an inbox has room for one request at least. -/
def ofLimits (ids : IdGenerator) (limit inboxLimit : Nat) : SessionRegistry :=
  ⟨ids, 0, limit, max inboxLimit 1, [], ∅⟩

/-- The number of registered sessions. -/
def size (r : SessionRegistry) : Nat := r.registered.size

/-- The session with a number. -/
def session? (r : SessionRegistry) (number : Nat) : Option Session := r.sessions[number]?

/-- The number of the registered session with an id. -/
def find? (r : SessionRegistry) (id : String) : Option Nat := r.registered[id]?

/-- Replaces the session with a number. -/
def replace (r : SessionRegistry) (number : Nat) (s : Session) : SessionRegistry :=
  { r with sessions := r.sessions.set number s }

/-- Draws again as long as the id is registered, from draw number `n` on and at most `tries` times, and
delivers the number of the last draw. -/
def redraw (r : SessionRegistry) : (tries : Nat) → (n : Nat) → Nat
  | 0, n => n
  | tries + 1, n => if r.registered.contains (r.ids.draw n) then r.redraw tries (n + 1) else n

/-- The number of the draw that gives the id of the next session. -/
def nextDraw (r : SessionRegistry) : Nat :=
  r.redraw (r.ids.patience r.registered.keys r.drawn) r.drawn

/-- The id of the next session. -/
def nextId (r : SessionRegistry) : String := r.ids.draw r.nextDraw

/-- Registers a session on a repository and delivers its number; none at the limit. -/
def register? (r : SessionRegistry) (repo : String) : Option (SessionRegistry × Nat) :=
  if r.limit ≤ r.size then none
  else
    let number := r.sessions.length
    some
      ({ r with
          drawn := r.nextDraw + 1
          sessions := r.sessions ++ [.fresh r.nextId repo]
          registered := r.registered.insert r.nextId number },
        number)

/-- Removes the session with an id and closes it, if there is one. -/
def unregister (r : SessionRegistry) (id : String) : SessionRegistry :=
  match r.find? id with
  | none => r
  | some number =>
    { r with
      sessions := r.sessions.modify number Session.close
      registered := r.registered.erase id }

/-- Posts a request to the session with a number, registered or not. -/
def post (r : SessionRegistry) (number : Nat) (request : Rpc.Request) :
    SessionRegistry × Delivery :=
  match r.session? number with
  | none => (r, .notFound)
  | some s =>
    let (s, delivery) := s.post r.inboxLimit request
    (r.replace number s, delivery)

/-- Posts a request to the registered session with an id. -/
def send (r : SessionRegistry) (id : String) (request : Rpc.Request) :
    SessionRegistry × Delivery :=
  match r.find? id with
  | none => (r, .notFound)
  | some number => r.post number request

/-- Takes the oldest request from the session with a number. -/
def receive (r : SessionRegistry) (number : Nat) : SessionRegistry × Option Receipt :=
  match r.session? number with
  | none => (r, none)
  | some s =>
    let (s, receipt) := s.receive
    (r.replace number s, receipt)

/-- Gives up the receiving end of the session with a number. -/
def dropInbox (r : SessionRegistry) (number : Nat) : SessionRegistry :=
  { r with sessions := r.sessions.modify number Session.dropInbox }

end SessionRegistry

end RegistryGraph
