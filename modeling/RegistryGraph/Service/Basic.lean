import RegistryGraph.Rpc.Dispatch
import RegistryGraph.Session.Event
import RegistryGraph.Session.Registry
import RegistryGraph.Settings
import RegistryGraph.Store.IndexCache
import RegistryGraph.Store.RepoStore

/-!
# The service

A service answers requests on the repositories of a store.  It shares its indexes, statistics and
sessions among all requests.  Every session has a stream of events, which has the number of the session.
-/

namespace RegistryGraph

/-- Where the loop of a stream is. -/
inductive StreamPhase where
  /-- Nothing has been sent. -/
  | announcing
  /-- The loop waits for something to do. -/
  | serving
  /-- The loop waits until there is room for an event. -/
  | sending (event : Event)
  | ended

/-- A stream of events to a client. -/
structure EventStream where
  /-- The id of its session. -/
  id : String
  /-- What the repository was like when the stream was opened. -/
  context : ToolContext
  /-- The address to which the client is told to post. -/
  address : String
  phase : StreamPhase
  /-- The events that the client has not taken, the oldest first. -/
  buffer : List Event
  /-- Whether the client is still there. -/
  connected : Bool

/-- A service. -/
structure Service where
  settings : Settings
  store : RepoStore
  cache : IndexCache
  statistics : Rpc.Statistics
  sessions : SessionRegistry
  /-- The streams by the numbers of their sessions. -/
  streams : List EventStream

namespace Service

/-- A service that has not answered anything, on the repositories below a root. -/
def start (settings : Settings) (root : String) (ids : IdGenerator) : Service where
  settings
  store := .ofRoot root
  cache := .ofCapacity settings.cachedIndexes
  statistics := .zero
  sessions := .ofLimits ids settings.maxSessions settings.queueCapacity
  streams := []

/-- The context of a repository: its snapshot and the index of its primary source. -/
def loadContext (s : Service) (t : FileTree) (name : RepoName) :
    Service × Except Failure ToolContext :=
  let (store, outcome) := s.store.snapshot t name
  let s := { s with store }
  match outcome with
  | .error failure => (s, .error failure)
  | .ok stored =>
    let (cache, outcome) := s.cache.primaryIndex stored.snapshot
    ({ s with cache }, outcome.map fun cached => ⟨stored.snapshot, cached.index, none⟩)

end Service

end RegistryGraph
