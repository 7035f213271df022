import RegistryGraph.Store.Snapshot

/-!
# The cache of indexes

A cache keeps the indexes that were built last, up to a limit.  A call looks its key up, builds the
index if the key is missing, and inserts what it has built; other calls may take their steps in
between.  When two calls have built an index for one key, the first insertion counts for both.  An
insertion into a full cache displaces the key that was inserted longest ago.
-/

namespace RegistryGraph

/-- What an index was built from. -/
structure CacheKey where
  repo : String
  revision : String
  path : String
deriving DecidableEq, Repr

/-- An index in the cache, with the number of the insertion that put it there. -/
structure CachedIndex where
  serial : Nat
  index : EntityIndex

/-- The indexes that were built last. -/
structure IndexCache where
  /-- How many entries the cache holds at most. -/
  limit : Nat
  entries : List (CacheKey × CachedIndex)
  /-- The keys in the order of their insertion. -/
  order : List CacheKey
  /-- The number of the next insertion. -/
  next : Nat

namespace IndexCache

/-- An empty cache for the given number of entries, but for one at least. -/
def ofCapacity (capacity : Nat) : IndexCache := ⟨max capacity 1, [], [], 0⟩

/-- The number of entries. -/
def size (c : IndexCache) : Nat := c.entries.length

/-- The key of a source of a snapshot. -/
def keyOf (s : Snapshot) (path : String) : CacheKey := ⟨s.repo, s.revision, path⟩

/-- The entry with the given key. -/
def lookup? (c : IndexCache) (key : CacheKey) : Option CachedIndex := c.entries.lookup key

/-- Displaces the first keys in `order` as long as there are `limit` entries or more. -/
def displace (limit : Nat) (entries : List (CacheKey × CachedIndex)) :
    List CacheKey → List (CacheKey × CachedIndex) × List CacheKey
  | [] => (entries, [])
  | oldest :: order =>
    if entries.length < limit then (entries, oldest :: order)
    else displace limit (entries.filter (·.1 ≠ oldest)) order

/-- Inserts an index unless the key has one already; delivers the index that the key has then. -/
def insert (c : IndexCache) (key : CacheKey) (index : EntityIndex) : IndexCache × CachedIndex :=
  match c.lookup? key with
  | some cached => (c, cached)
  | none =>
    let (entries, order) := displace c.limit c.entries c.order
    let cached : CachedIndex := ⟨c.next, index⟩
    ({ c with entries := (key, cached) :: entries, order := order ++ [key], next := c.next + 1 },
      cached)

/-- The index of a source, from the cache if it is there. A failing call changes nothing. -/
def getOrBuild (c : IndexCache) (s : Snapshot) (path : String) :
    IndexCache × Except Failure CachedIndex :=
  let key := keyOf s path
  match c.lookup? key with
  | some cached => (c, .ok cached)
  | none =>
    match s.buildIndex path with
    | .error failure => (c, .error failure)
    | .ok index =>
      let (c, cached) := c.insert key index
      (c, .ok cached)

/-- The index that backs the tools. -/
def primaryIndex (c : IndexCache) (s : Snapshot) : IndexCache × Except Failure CachedIndex :=
  match s.primaryPath with
  | .ok path => c.getOrBuild s path
  | .error failure => (c, .error failure)

end IndexCache

end RegistryGraph
