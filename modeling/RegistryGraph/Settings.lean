import RegistryGraph.Failure
import RegistryGraph.Toml.Table

/-!
# Settings of the server

The settings of the server that listens for clients.  An optional file in the root of the repositories
overrides the defaults one by one; what it says beyond the settings does not matter.
-/

namespace RegistryGraph

/-- The settings of a server. -/
structure Settings where
  /-- The address to listen on. -/
  bind : String
  /-- The greatest number of sessions. -/
  maxSessions : Nat
  /-- The number of requests that wait in a session at most. -/
  queueCapacity : Nat
  /-- The seconds between two signs of life in a stream. -/
  keepaliveSeconds : Nat
  /-- The greatest size of a request in octets. -/
  maxBodySize : Nat
  /-- The number of indexes that are kept. -/
  cachedIndexes : Nat
deriving DecidableEq, Repr

namespace Settings

/-- The name of the settings file. -/
def fileName : String := "xmlgraph.toml"

/-- The settings without a file. -/
def default : Settings := ⟨"127.0.0.1:8080", 100, 16, 15, 1048576, 32⟩

/-- What is wrong with a settings file. -/
inductive Fault where
  | text (fault : Toml.Fault)
  | notText (key : String)
  | notCount (key : String)
deriving DecidableEq, Repr

/-- The wording of a fault. -/
def Fault.message : Fault → String
  | .text fault => fault.message
  | .notText key => s!"the value of {key} must be a string"
  | .notCount key => s!"the value of {key} must be a whole number that is not negative"

/-- Counts are below this bound. -/
def countBound : Nat := UInt64.size

/-- A count, or the default if the table does not give it. -/
def count (table : Toml.Entries) (key : String) (default : Nat) : Except Fault Nat :=
  match table.lookup key with
  | none => .ok default
  | some (.scalar (.integer n)) =>
    if 0 ≤ n && n < countBound then .ok n.toNat else .error (.notCount key)
  | some _ => .error (.notCount key)

/-- A text, or the default if the table does not give it. -/
def text (table : Toml.Entries) (key default : String) : Except Fault String :=
  match table.lookup key with
  | none => .ok default
  | some (.scalar (.string s)) => .ok s
  | some _ => .error (.notText key)

/-- The settings in a table. -/
def ofTable (table : Toml.Entries) : Except Fault Settings := do
  let bind ← text table "bind" default.bind
  let maxSessions ← count table "max_sessions" default.maxSessions
  let queueCapacity ← count table "session_queue_capacity" default.queueCapacity
  let keepaliveSeconds ← count table "keepalive_secs" default.keepaliveSeconds
  let maxBodySize ← count table "max_body_bytes" default.maxBodySize
  let cachedIndexes ← count table "index_cache_entries" default.cachedIndexes
  return { bind, maxSessions, queueCapacity, keepaliveSeconds, maxBodySize, cachedIndexes }

/-- The settings that the file at `path` holds. -/
def load (path : String) (octets : Octets) : Except Failure Settings :=
  match Utf8.decode octets with
  | .error _ => .error (.config (.settingsUnreadable path .encoding))
  | .ok s =>
    match (Toml.parse s).mapError Fault.text >>= ofTable with
    | .ok settings => .ok settings
    | .error fault => .error (.config (.settingsMalformed path fault.message))

/-- The settings as a JSON value. -/
def toJson (s : Settings) : Json :=
  .record
    [("bind", .string s.bind), ("max_sessions", .count s.maxSessions),
      ("session_queue_capacity", .count s.queueCapacity),
      ("keepalive_secs", .count s.keepaliveSeconds), ("max_body_bytes", .count s.maxBodySize),
      ("index_cache_entries", .count s.cachedIndexes)]

end Settings

end RegistryGraph
