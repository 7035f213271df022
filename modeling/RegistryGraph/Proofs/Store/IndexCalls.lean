import Mathlib.Data.List.Nodup
import Mathlib.Logic.Function.Basic
import RegistryGraph.Proofs.Index.Simulation
import RegistryGraph.Proofs.Store.Revision
import RegistryGraph.Store.IndexCache

/-!
# Calls that share a cache of indexes

A call for an index looks its key up, builds the index if the key is missing, and inserts what it has
built.  Only the first and the last of these steps touch the cache, each without interruption, and any
number of other calls may take their steps in between.  `IndexCalls.run` lets the calls take their steps
in the order of a schedule, and `IndexCalls.run_uninterrupted` says that three steps in a row are
`IndexCache.getOrBuild`.

The invariant is `IndexCache.InStep`: the queue has the keys of the entries, once each, and in the order
of their insertion.  The loop that makes room then keeps the newest entries (`displace_eq`), whatever
the limit is.

* `IndexCalls.run_orderly`: after every schedule the two tables agree and stay within the limit, a key
  goes only for a new one and is the oldest, a failing call changes nothing, every call ends with its
  third step, and it answers what its own snapshot answers.
-/

namespace RegistryGraph

namespace IndexCache

/-- The queue of a cache and its entries, which stand with the newest first, are in step. -/
structure InStep (c : IndexCache) : Prop where
  limit_pos : 0 < c.limit
  keys_eq : c.entries.map Prod.fst = c.order.reverse
  order_nodup : c.order.Nodup
  size_le : c.size ≤ c.limit
  serials : c.entries.Pairwise fun later earlier => earlier.2.serial < later.2.serial
  serial_lt : ∀ entry ∈ c.entries, entry.2.serial < c.next

/-- An empty cache has its entries and its order in step. -/
theorem inStep_ofCapacity (capacity : Nat) : (ofCapacity capacity).InStep where
  limit_pos := Nat.lt_of_lt_of_le Nat.one_pos (Nat.le_max_right capacity 1)
  keys_eq := rfl
  order_nodup := List.nodup_nil
  size_le := Nat.zero_le _
  serials := .nil
  serial_lt := fun entry hentry => by cases hentry

/-- A key is not found exactly if it is not in the order. -/
theorem lookup?_eq_none_iff {c : IndexCache} (h : c.InStep) (key : CacheKey) :
    c.lookup? key = none ↔ key ∉ c.order := by
  rw [lookup?, List.lookup_eq_none_iff, ← List.mem_reverse, ← h.keys_eq, List.mem_map]
  constructor
  · rintro hne ⟨entry, hentry, rfl⟩
    simpa using hne entry hentry
  · intro hnot entry hentry
    rw [bne_iff_ne]
    rintro rfl
    exact hnot ⟨entry, hentry, rfl⟩

/-- What is found is an entry. -/
theorem mem_entries_of_lookup? {c : IndexCache} {key : CacheKey} {cached : CachedIndex}
    (h : c.lookup? key = some cached) : (key, cached) ∈ c.entries := by
  obtain ⟨before, after, hsplit, _⟩ := List.lookup_eq_some_iff.1 h
  rw [hsplit]
  exact List.mem_append_right _ List.mem_cons_self

/-- **Making room.**  What is left are the newest entries, one less than the limit allows. -/
theorem displace_eq {limit : Nat} (hlimit : 0 < limit) (order : List CacheKey)
    (entries : List (CacheKey × CachedIndex)) (hkeys : entries.map Prod.fst = order.reverse)
    (hnodup : order.Nodup) :
    displace limit entries order =
      (entries.take (limit - 1), order.drop (entries.length + 1 - limit)) := by
  induction order generalizing entries with
  | nil =>
      obtain rfl : entries = [] := List.map_eq_nil_iff.1 hkeys
      simp [displace]
  | cons oldest order ih =>
      rw [displace]
      split
      case isTrue hroom =>
        rw [List.take_of_length_le (by omega), Nat.sub_eq_zero_of_le (by omega), List.drop_zero]
      case isFalse hfull =>
        obtain ⟨hfresh, hnodup'⟩ := List.nodup_cons.1 hnodup
        rw [List.reverse_cons] at hkeys
        -- The oldest key is that of the last entry, and of no other.
        obtain ⟨kept, last, rfl, hkept, hlast⟩ := List.map_eq_append_iff.1 hkeys
        obtain ⟨old, rfl, hold⟩ := List.map_eq_singleton_iff.1 hlast
        have hother : ∀ entry ∈ kept, entry.1 ≠ oldest := by
          rintro entry hentry rfl
          exact hfresh (List.mem_reverse.1 (hkept ▸ List.mem_map_of_mem hentry))
        have hfilter : (kept ++ [old]).filter (·.1 ≠ oldest) = kept := by
          rw [List.filter_append, List.filter_eq_self.2 fun entry he => by simpa using hother entry he]
          simp [hold]
        rw [List.length_append, List.length_singleton] at hfull ⊢
        rw [hfilter, ih kept hkept hnodup', List.take_append_of_le_length (by omega),
          show kept.length + 1 + 1 - limit = (kept.length + 1 - limit) + 1 by omega,
          List.drop_succ_cons]

variable {c : IndexCache} {key : CacheKey} {index : EntityIndex}

/-- Inserting under a key that is there gives what is there and changes nothing. -/
theorem insert_of_some {cached : CachedIndex} (h : c.lookup? key = some cached) :
    c.insert key index = (c, cached) := by
  rw [insert, h]

/-- A new key takes its place in front of the newest entries and at the end of the queue. -/
theorem insert_of_none (hstep : c.InStep) (h : c.lookup? key = none) :
    c.insert key index =
      ({ c with
          entries := (key, ⟨c.next, index⟩) :: c.entries.take (c.limit - 1)
          order := c.order.drop (c.size + 1 - c.limit) ++ [key]
          next := c.next + 1 },
        ⟨c.next, index⟩) := by
  rw [insert, h, displace_eq hstep.limit_pos c.order c.entries hstep.keys_eq hstep.order_nodup]
  rfl

/-- The order is as long as the cache has entries. -/
theorem length_order (h : c.InStep) : c.order.length = c.size := by
  have hlength := congrArg List.length h.keys_eq
  rw [List.length_map, List.length_reverse] at hlength
  exact hlength.symm

/-- Inserting keeps entries and order in step. -/
theorem InStep.insert (h : c.InStep) : (c.insert key index).1.InStep := by
  cases hlookup : c.lookup? key with
  | some cached => rwa [insert_of_some hlookup]
  | none =>
      have hfresh : key ∉ c.order := (lookup?_eq_none_iff h key).1 hlookup
      have hlength := length_order h
      have hlimit := h.limit_pos
      have hsize := h.size_le
      rw [insert_of_none h hlookup]
      constructor
      case limit_pos => exact hlimit
      case keys_eq =>
        simp only [List.map_cons, List.map_take, h.keys_eq, List.reverse_append,
          List.reverse_singleton, List.singleton_append, List.cons.injEq, true_and]
        rw [List.take_reverse, show c.order.length - (c.limit - 1) = c.size + 1 - c.limit by omega]
      case order_nodup =>
        have hdrop : (c.order.drop (c.size + 1 - c.limit)).Nodup :=
          h.order_nodup.sublist (List.drop_sublist _ _)
        refine List.nodup_append.2 ⟨hdrop, List.nodup_singleton key, ?_⟩
        intro a ha b hb
        rw [List.mem_singleton.1 hb]
        rintro rfl
        exact hfresh (List.mem_of_mem_drop ha)
      case size_le =>
        simp only [size, List.length_cons, List.length_take]
        omega
      case serials =>
        refine List.pairwise_cons.2 ⟨?_, h.serials.sublist (List.take_sublist _ _)⟩
        intro entry hentry
        exact h.serial_lt entry (List.mem_of_mem_take hentry)
      case serial_lt =>
        intro entry hentry
        rcases List.mem_cons.1 hentry with rfl | hold
        · exact Nat.lt_succ_self _
        · exact Nat.lt_succ_of_lt (h.serial_lt entry (List.mem_of_mem_take hold))

/-- The key is the first in the queue, and no other entry was inserted as early as its entry. -/
def IsOldest (c : IndexCache) (key : CacheKey) : Prop :=
  c.order.head? = some key ∧
    ∃ cached, (key, cached) ∈ c.entries ∧
      ∀ entry ∈ c.entries, entry.1 ≠ key → cached.serial < entry.2.serial

/-- The first of the order is the oldest entry. -/
theorem isOldest_head (h : c.InStep) {oldest : CacheKey} {rest : List CacheKey}
    (horder : c.order = oldest :: rest) : c.IsOldest oldest := by
  have hkeys := h.keys_eq
  rw [horder, List.reverse_cons] at hkeys
  obtain ⟨newer, last, hentries, hnewer, hlast⟩ := List.map_eq_append_iff.1 hkeys
  obtain ⟨⟨_, old⟩, rfl, rfl⟩ := List.map_eq_singleton_iff.1 hlast
  have hserials := h.serials
  rw [hentries, List.pairwise_append] at hserials
  refine ⟨by rw [horder]; rfl, old, by rw [hentries]; simp, ?_⟩
  intro entry hentry hne
  rw [hentries, List.mem_append, List.mem_singleton] at hentry
  rcases hentry with hmem | rfl
  · exact hserials.2.2 entry hmem _ List.mem_cons_self
  · exact absurd rfl hne

/-- An insertion displaces a key only from a full cache, and then the oldest. -/
theorem displaced_of_insert (h : c.InStep) {gone : CacheKey} (hin : gone ∈ c.order)
    (hout : gone ∉ (c.insert key index).1.order) :
    key ∉ c.order ∧ c.size = c.limit ∧ c.IsOldest gone := by
  cases hlookup : c.lookup? key with
  | some cached =>
      rw [insert_of_some hlookup] at hout
      exact absurd hin hout
  | none =>
      have hsize := h.size_le
      rw [insert_of_none h hlookup, List.mem_append, not_or] at hout
      refine ⟨(lookup?_eq_none_iff h key).1 hlookup, ?_⟩
      cases horder : c.order with
      | nil => rw [horder] at hin; cases hin
      | cons oldest rest =>
          rw [horder] at hin hout
          by_cases hfull : c.size = c.limit
          · rw [hfull, Nat.add_sub_cancel_left, List.drop_one, List.tail_cons] at hout
            obtain rfl : gone = oldest := (List.mem_cons.1 hin).resolve_right hout.1
            exact ⟨hfull, isOldest_head h horder⟩
          · rw [Nat.sub_eq_zero_of_le (by omega), List.drop_zero] at hout
            exact absurd hin hout.1

/-- A key that is found has one entry. -/
theorem count_key (h : c.InStep) {cached : CachedIndex} (hlookup : c.lookup? key = some cached) :
    (c.entries.map Prod.fst).count key = 1 := by
  have hmem : key ∈ c.entries.map Prod.fst :=
    List.mem_map.2 ⟨_, mem_entries_of_lookup? hlookup, rfl⟩
  refine List.count_eq_one_of_mem ?_ hmem
  rw [h.keys_eq]
  exact List.nodup_reverse.2 h.order_nodup

/-- What is inserted is found. -/
theorem lookup?_insert (h : c.InStep) :
    (c.insert key index).1.lookup? key = some (c.insert key index).2 := by
  cases hlookup : c.lookup? key with
  | some cached => rw [insert_of_some hlookup, hlookup]
  | none => rw [insert_of_none h hlookup, lookup?, List.lookup_cons_self]

end IndexCache

/-! ## Calls -/

/-- What a call for an index asks for: a source of a snapshot. -/
structure IndexRequest where
  snapshot : Snapshot
  path : String

namespace IndexRequest

/-- The key under which the cache has the index. -/
def key (r : IndexRequest) : CacheKey := IndexCache.keyOf r.snapshot r.path

/-- The index that the request is for, without a cache. -/
def answer (r : IndexRequest) : Except Failure EntityIndex := r.snapshot.buildIndex r.path

end IndexRequest

/-- What a call for an index does next. -/
inductive IndexCall where
  /-- Looks whether the cache has the index. -/
  | lookUp
  | build
  | insert (index : EntityIndex)
  | done (outcome : Except Failure CachedIndex)

/-- One step of a call. Only the building does not need the cache for itself. -/
def IndexCall.step (r : IndexRequest) (c : IndexCache) : IndexCall → IndexCache × IndexCall
  | .lookUp =>
    match c.lookup? r.key with
    | some cached => (c, .done (.ok cached))
    | none => (c, .build)
  | .build =>
    match r.answer with
    | .error failure => (c, .done (.error failure))
    | .ok index => (c, .insert index)
  | .insert index => ((c.insert r.key index).1, .done (.ok (c.insert r.key index).2))
  | .done outcome => (c, .done outcome)

/-- A cache and the calls that use it, by their numbers. -/
structure IndexCalls where
  cache : IndexCache
  call : Nat → IndexCall

namespace IndexCalls

/-- Calls that have not done anything, and an empty cache. -/
def start (capacity : Nat) : IndexCalls := ⟨.ofCapacity capacity, fun _ => .lookUp⟩

/-- Call number `i` takes a step. -/
def advance (requests : Nat → IndexRequest) (w : IndexCalls) (i : Nat) : IndexCalls where
  cache := ((w.call i).step (requests i) w.cache).1
  call := Function.update w.call i ((w.call i).step (requests i) w.cache).2

/-- The calls take steps in the order of a schedule. -/
def run (requests : Nat → IndexRequest) (w : IndexCalls) (schedule : List Nat) : IndexCalls :=
  schedule.foldl (advance requests) w

/-- Snapshots of one repository and revision are alike wherever they are asked for one path. -/
def Alike (requests : Nat → IndexRequest) : Prop :=
  ∀ i j, (requests i).key = (requests j).key →
    (requests i).snapshot.ReadsAlike (requests j).snapshot (requests j).path

/-- Some request for the key is answered with the index. -/
def Answered (requests : Nat → IndexRequest) (key : CacheKey) (index : EntityIndex) : Prop :=
  ∃ j, (requests j).key = key ∧ (requests j).answer = .ok index

/-- What call number `i` has found out so far is right. -/
def Justified (requests : Nat → IndexRequest) (i : Nat) : IndexCall → Prop
  | .lookUp | .build => True
  | .insert index => (requests i).answer = .ok index
  | .done (.ok cached) => Answered requests (requests i).key cached.index
  | .done (.error failure) => (requests i).answer = .error failure

/-- The cache is in step and holds nothing but answers. -/
structure Holds (requests : Nat → IndexRequest) (capacity : Nat) (c : IndexCache) : Prop where
  inStep : c.InStep
  limit_eq : c.limit = max capacity 1
  answered : ∀ entry ∈ c.entries, Answered requests entry.1 entry.2.index

variable {requests : Nat → IndexRequest} {capacity : Nat} {c : IndexCache} {w : IndexCalls}

/-- A call that advances takes its own step. -/
theorem call_advance_self (w : IndexCalls) (i : Nat) :
    (w.advance requests i).call i = ((w.call i).step (requests i) w.cache).2 :=
  Function.update_self i _ _

/-- A call that does not advance stays where it is. -/
theorem call_advance_of_ne (w : IndexCalls) {i j : Nat} (h : j ≠ i) :
    (w.advance requests i).call j = w.call j :=
  Function.update_of_ne h _ _

/-- An empty cache holds right answers. -/
theorem holds_start (capacity : Nat) : Holds requests capacity (.ofCapacity capacity) where
  inStep := IndexCache.inStep_ofCapacity capacity
  limit_eq := rfl
  answered := fun entry hentry => by cases hentry

/-- Inserting a right answer keeps the cache right, and gives a right answer. -/
theorem Holds.insert (h : Holds requests capacity c) {i : Nat} {index : EntityIndex}
    (hindex : (requests i).answer = .ok index) :
    Holds requests capacity (c.insert (requests i).key index).1 ∧
      Answered requests (requests i).key (c.insert (requests i).key index).2.index := by
  have hstep : (c.insert (requests i).key index).1.InStep := h.inStep.insert
  cases hlookup : c.lookup? (requests i).key with
  | some cached =>
      rw [IndexCache.insert_of_some hlookup]
      exact ⟨h, h.answered _ (IndexCache.mem_entries_of_lookup? hlookup)⟩
  | none =>
      rw [IndexCache.insert_of_none h.inStep hlookup] at hstep ⊢
      refine ⟨⟨hstep, h.limit_eq, ?_⟩, i, rfl, hindex⟩
      intro entry hentry
      rcases List.mem_cons.1 hentry with rfl | hold
      · exact ⟨i, rfl, hindex⟩
      · exact h.answered entry (List.mem_of_mem_take hold)

/-- **One step.**  A call that knows nothing but what is right learns nothing else from the cache, and
puts nothing else into it. -/
theorem Holds.step (h : Holds requests capacity c) {i : Nat} {call : IndexCall}
    (hcall : Justified requests i call) :
    Holds requests capacity (call.step (requests i) c).1 ∧
      Justified requests i (call.step (requests i) c).2 := by
  cases call with
  | lookUp =>
      rw [IndexCall.step]
      cases hlookup : c.lookup? (requests i).key with
      | some cached => exact ⟨h, h.answered _ (IndexCache.mem_entries_of_lookup? hlookup)⟩
      | none => exact ⟨h, trivial⟩
  | build =>
      rw [IndexCall.step]
      cases hanswer : (requests i).answer with
      | error failure => exact ⟨h, hanswer⟩
      | ok index => exact ⟨h, hanswer⟩
  | insert index => exact h.insert hcall
  | done outcome => exact ⟨h, hcall⟩

/-- **A whole run.**  The induction is over the schedule; the other calls are left as they were. -/
theorem holds_run (hcache : Holds requests capacity w.cache)
    (hcalls : ∀ i, Justified requests i (w.call i)) (schedule : List Nat) :
    Holds requests capacity (w.run requests schedule).cache ∧
      ∀ i, Justified requests i ((w.run requests schedule).call i) := by
  induction schedule generalizing w with
  | nil => exact ⟨hcache, hcalls⟩
  | cons i rest ih =>
      obtain ⟨hcache', hcall'⟩ := hcache.step (hcalls i)
      refine ih hcache' ?_
      intro j
      by_cases hj : j = i
      · subst hj
        rwa [call_advance_self]
      · rw [call_advance_of_ne w hj]
        exact hcalls j

/-- Only an insertion changes the cache. -/
theorem step_cache (r : IndexRequest) (c : IndexCache) (call : IndexCall) :
    (call.step r c).1 = c ∨
      ∃ index, call = .insert index ∧ (call.step r c).1 = (c.insert r.key index).1 ∧
        (call.step r c).2 = .done (.ok (c.insert r.key index).2) := by
  cases call with
  | lookUp => rw [IndexCall.step]; split <;> exact .inl rfl
  | build => rw [IndexCall.step]; split <;> exact .inl rfl
  | insert index => exact .inr ⟨index, rfl, rfl, rfl⟩
  | done outcome => exact .inl rfl

/-- Calls advance one schedule behind the other. -/
theorem run_append (w : IndexCalls) (before after : List Nat) :
    w.run requests (before ++ after) = (w.run requests before).run requests after :=
  List.foldl_append

/-- A call that has its outcome keeps it. -/
theorem call_run_of_done {i : Nat} {outcome : Except Failure CachedIndex}
    (h : w.call i = .done outcome) (schedule : List Nat) :
    (w.run requests schedule).call i = .done outcome := by
  induction schedule generalizing w with
  | nil => exact h
  | cons j rest ih =>
      refine ih ?_
      by_cases hj : i = j
      · subst hj
        rw [call_advance_self, h, IndexCall.step]
      · rwa [call_advance_of_ne w hj]

/-- How many steps a call has before it. -/
def remaining : IndexCall → Nat
  | .lookUp => 3
  | .build => 2
  | .insert _ => 1
  | .done _ => 0

/-- A step leaves one step less, or none. -/
theorem remaining_step (r : IndexRequest) (c : IndexCache) (call : IndexCall) :
    remaining (call.step r c).2 ≤ remaining call - 1 := by
  cases call with
  | lookUp => rw [IndexCall.step]; split <;> simp [remaining]
  | build => rw [IndexCall.step]; split <;> simp [remaining]
  | insert index => exact Nat.le_refl _
  | done outcome => exact Nat.le_refl _

/-- A call has fewer steps left for each time that it is scheduled. -/
theorem remaining_run (w : IndexCalls) (schedule : List Nat) (i : Nat) :
    remaining ((w.run requests schedule).call i) ≤ remaining (w.call i) - schedule.count i := by
  induction schedule generalizing w with
  | nil => exact Nat.le_refl _
  | cons j rest ih =>
      have hrest := ih (w.advance requests j)
      by_cases hj : i = j
      · subst hj
        have hstep := remaining_step (requests i) w.cache (w.call i)
        rw [call_advance_self] at hrest
        rw [List.count_cons_self]
        exact Nat.le_trans hrest (by omega)
      · rw [call_advance_of_ne w hj] at hrest
        rwa [List.count_cons_of_ne (Ne.symm hj)]

end IndexCalls

/-! ## What calls answer -/

/-- An index is built exactly if the content is there and has one. -/
theorem Snapshot.buildIndex_eq_ok_iff {s : Snapshot} {path : String} {index : EntityIndex} :
    s.buildIndex path = .ok index ↔
      ∃ octets, s.content path = .ok octets ∧
        EntityIndex.build octets path s.revision = .ok index := by
  unfold buildIndex
  cases s.content path with
  | error failure => simp [bind, Except.bind]
  | ok octets =>
      cases hbuild : EntityIndex.build octets path s.revision with
      | error fault => simp [bind, Except.bind, hbuild]
      | ok built => simp [bind, Except.bind, hbuild]

/-- An index knows what it was built from. -/
theorem EntityIndex.origin_of_build {octets : Octets} {sourceFile revision : String}
    {index : EntityIndex} (h : build octets sourceFile revision = .ok index) :
    index.sourceFile = sourceFile ∧ index.revision = revision := by
  obtain ⟨content, _, rfl⟩ := IndexBuilder.exists_hasContent_of_build h
  exact ⟨rfl, rfl⟩

namespace IndexCalls

variable {requests : Nat → IndexRequest} {capacity : Nat} {w : IndexCalls}

/-- The index may have been built for another snapshot, but that one has the same content. -/
theorem answer_of_answered (halike : Alike requests) {i : Nat} {index : EntityIndex}
    (h : Answered requests (requests i).key index) : (requests i).answer = .ok index := by
  obtain ⟨j, hkey, hanswer⟩ := h
  obtain ⟨octets, hcontent, hbuild⟩ := Snapshot.buildIndex_eq_ok_iff.1 hanswer
  obtain ⟨_, hrevision, hpath⟩ := CacheKey.mk.inj hkey
  rw [hpath] at hcontent
  refine Snapshot.buildIndex_eq_ok_iff.2 ⟨octets, ?_, hpath ▸ hrevision ▸ hbuild⟩
  rcases halike j i hkey with ⟨octets', hj, hi⟩ | ⟨fault, _, hj, _⟩
  · rw [hcontent] at hj
    exact Except.ok.inj hj ▸ hi
  · rw [hcontent] at hj
    cases hj

/-- The cache is within its limit, and the next step of any call keeps the order of insertions. -/
structure Orderly (requests : Nat → IndexRequest) (capacity : Nat) (w : IndexCalls) : Prop where
  /-- The entries, the last first, have the keys of the queue. -/
  keys_eq : w.cache.entries.map Prod.fst = w.cache.order.reverse
  order_nodup : w.cache.order.Nodup
  size_le : w.cache.size ≤ max capacity 1
  /-- A key goes only when a new one comes into a full cache, and it is the oldest. -/
  displaced : ∀ i gone, gone ∈ w.cache.order → gone ∉ (w.advance requests i).cache.order →
    (∃ index, w.call i = .insert index) ∧ (requests i).key ∉ w.cache.order ∧
      (requests i).key ∈ (w.advance requests i).cache.order ∧
      w.cache.size = max capacity 1 ∧ w.cache.IsOldest gone
  /-- An insertion leaves one entry with its key, and that is the earlier one if there was one. -/
  inserted : ∀ i index, w.call i = .insert index → ∃ cached,
    (w.advance requests i).call i = .done (.ok cached) ∧
      (w.advance requests i).cache.lookup? (requests i).key = some cached ∧
      ((w.advance requests i).cache.entries.map Prod.fst).count (requests i).key = 1 ∧
      ∀ earlier, w.cache.lookup? (requests i).key = some earlier →
        cached = earlier ∧ (w.advance requests i).cache = w.cache
  /-- Two calls that have built an index for one missing key get the same one. -/
  raced : ∀ i j index index', i ≠ j → (requests i).key = (requests j).key →
    w.call i = .insert index → w.call j = .insert index' → ∃ cached,
      ((w.advance requests i).advance requests j).call i = .done (.ok cached) ∧
        ((w.advance requests i).advance requests j).call j = .done (.ok cached) ∧
        (((w.advance requests i).advance requests j).cache.entries.map Prod.fst).count
          (requests i).key = 1

/-- A call that inserts ends with the entry that its key has then, and an earlier entry stays. -/
theorem advance_of_insert (hstep : w.cache.InStep) {i : Nat} {index : EntityIndex}
    (hcall : w.call i = .insert index) : ∃ cached,
      (w.advance requests i).call i = .done (.ok cached) ∧
        (w.advance requests i).cache.lookup? (requests i).key = some cached ∧
        ((w.advance requests i).cache.entries.map Prod.fst).count (requests i).key = 1 ∧
        ∀ earlier, w.cache.lookup? (requests i).key = some earlier →
          cached = earlier ∧ (w.advance requests i).cache = w.cache := by
  have hcache : (w.advance requests i).cache = (w.cache.insert (requests i).key index).1 := by
    rw [advance, hcall, IndexCall.step]
  have hlookup : (w.cache.insert (requests i).key index).1.lookup? (requests i).key =
      some (w.cache.insert (requests i).key index).2 := IndexCache.lookup?_insert hstep
  have hcount := IndexCache.count_key hstep.insert hlookup
  rw [hcache]
  refine ⟨(w.cache.insert (requests i).key index).2, ?_, hlookup, hcount, ?_⟩
  · rw [call_advance_self, hcall, IndexCall.step]
  · intro earlier hearlier
    rw [IndexCache.insert_of_some hearlier]
    exact ⟨rfl, rfl⟩

/-- A cache that holds right answers is orderly. -/
theorem orderly_of_holds (hcache : Holds requests capacity w.cache) :
    Orderly requests capacity w := by
  constructor
  case keys_eq => exact hcache.inStep.keys_eq
  case order_nodup => exact hcache.inStep.order_nodup
  case size_le => exact hcache.limit_eq ▸ hcache.inStep.size_le
  case displaced =>
    intro i gone hin hout
    rcases step_cache (requests i) w.cache (w.call i) with hsame | ⟨index, hcall, hcache', _⟩
    · rw [advance, hsame] at hout
      exact absurd hin hout
    · have hnew : (w.advance requests i).cache = (w.cache.insert (requests i).key index).1 :=
        hcache'
      rw [hnew] at hout ⊢
      obtain ⟨hfresh, hfull, holdest⟩ := IndexCache.displaced_of_insert hcache.inStep hin hout
      refine ⟨⟨index, hcall⟩, hfresh, ?_, hcache.limit_eq ▸ hfull, holdest⟩
      rw [IndexCache.insert_of_none hcache.inStep
        ((IndexCache.lookup?_eq_none_iff hcache.inStep _).2 hfresh)]
      exact List.mem_append_right _ (List.mem_singleton_self _)
  case inserted => exact fun i index => advance_of_insert hcache.inStep
  case raced =>
    intro i j index index' hne hkey hi hj
    obtain ⟨cached, hdone, hlookup, hcount, _⟩ := advance_of_insert hcache.inStep hi
    have hstep' : (w.advance requests i).cache.InStep := by
      rw [advance, hi]
      exact hcache.inStep.insert
    have hj' : (w.advance requests i).call j = .insert index' := by
      rwa [call_advance_of_ne w hne.symm]
    -- The second call finds what the first has inserted.
    obtain ⟨cached', hdone', _, _, hearlier⟩ := advance_of_insert hstep' hj'
    obtain ⟨rfl, hsame⟩ := hearlier cached (hkey ▸ hlookup)
    refine ⟨cached', ?_, hdone', hsame ▸ hcount⟩
    rwa [call_advance_of_ne _ hne]

/-- **Calls may interleave as they like.**  After any schedule the cache is orderly; a call that fails
has left the cache as it was with each of its steps; a call that has taken three steps has its outcome;
and if snapshots of one revision are alike, the outcome is what the call's own snapshot answers. -/
theorem run_orderly (requests : Nat → IndexRequest) (capacity : Nat) (schedule : List Nat) :
    Orderly requests capacity ((start capacity).run requests schedule) ∧
      (∀ before i after failure, schedule = before ++ i :: after →
        ((start capacity).run requests schedule).call i = .done (.error failure) →
          ((start capacity).run requests (before ++ [i])).cache =
            ((start capacity).run requests before).cache) ∧
      (∀ i, 3 ≤ schedule.count i →
        ∃ outcome, ((start capacity).run requests schedule).call i = .done outcome) ∧
      (Alike requests → ∀ i outcome,
        ((start capacity).run requests schedule).call i = .done outcome →
          outcome.map (·.index) = (requests i).answer ∧
            ∀ cached, outcome = .ok cached → cached.index.sourceFile = (requests i).path ∧
              cached.index.revision = (requests i).snapshot.revision) := by
  have hstart : ∀ i, Justified requests i ((start capacity).call i) := fun _ => trivial
  obtain ⟨hcache, hcalls⟩ := holds_run (holds_start capacity) hstart schedule
  refine ⟨orderly_of_holds hcache, ?_, ?_, ?_⟩
  · rintro before i after failure rfl hfailed
    rw [run_append] at hfailed ⊢
    generalize (start capacity).run requests before = v at hfailed ⊢
    -- An insertion would have ended the call with an index, which it would have kept.
    rcases step_cache (requests i) v.cache (v.call i) with hsame | ⟨index, _, _, hdone⟩
    · exact hsame
    · rw [← call_advance_self] at hdone
      have hkept : (v.run requests (i :: after)).call i = _ := call_run_of_done hdone after
      rw [hfailed] at hkept
      cases hkept
  · intro i hcount
    have hnone : remaining (((start capacity).run requests schedule).call i) = 0 := by
      have hremaining : remaining (((start capacity).run requests schedule).call i) ≤
          3 - schedule.count i := remaining_run (start capacity) schedule i
      omega
    cases hcall : ((start capacity).run requests schedule).call i with
    | done outcome => exact ⟨outcome, rfl⟩
    | lookUp => rw [hcall] at hnone; cases hnone
    | build => rw [hcall] at hnone; cases hnone
    | insert index => rw [hcall] at hnone; cases hnone
  · intro halike i outcome hcall
    have hjustified := hcalls i
    rw [hcall] at hjustified
    cases outcome with
    | error failure =>
        have hanswer : (requests i).answer = .error failure := hjustified
        refine ⟨hanswer.symm, ?_⟩
        intro cached hok
        cases hok
    | ok cached =>
        have hanswer := answer_of_answered halike hjustified
        refine ⟨hanswer.symm, ?_⟩
        rintro _ ⟨⟩
        obtain ⟨octets, _, hbuild⟩ := Snapshot.buildIndex_eq_ok_iff.1 hanswer
        exact EntityIndex.origin_of_build hbuild

/-- Three steps that nothing interrupts are a call of `IndexCache.getOrBuild`. -/
theorem run_uninterrupted (requests : Nat → IndexRequest) (w : IndexCalls) {i : Nat}
    (h : w.call i = .lookUp) :
    (w.run requests [i, i, i]).cache =
        (w.cache.getOrBuild (requests i).snapshot (requests i).path).1 ∧
      (w.run requests [i, i, i]).call i =
        .done (w.cache.getOrBuild (requests i).snapshot (requests i).path).2 := by
  have hkey : IndexCache.keyOf (requests i).snapshot (requests i).path = (requests i).key := rfl
  have hanswer : (requests i).snapshot.buildIndex (requests i).path = (requests i).answer := rfl
  rw [IndexCache.getOrBuild, hkey, hanswer]
  simp only [run, List.foldl_cons, List.foldl_nil, advance, Function.update_self, h, IndexCall.step]
  cases w.cache.lookup? (requests i).key with
  | some cached => exact ⟨rfl, rfl⟩
  | none =>
      cases (requests i).answer with
      | error failure => exact ⟨rfl, rfl⟩
      | ok index => exact ⟨rfl, rfl⟩

/-- A snapshot with one source at hand. -/
def oneSource : Snapshot where
  repo := "o/r"
  revision := "v"
  declaration := ⟨"1.0", ⟨"", "", ""⟩, []⟩
  files := Keyed.ofPairs [("a", Utf8.encode "<a code='1'/>")]
  missing := ∅

/-- Two calls race for the source at hand, with room for one entry, and a third asks for another source,
which cannot be read. -/
theorem run_orderly_race : ∃ requests : Nat → IndexRequest, Alike requests ∧
    ∃ first second failure,
      ((start 0).run requests [0, 1, 0, 1, 2, 0, 1, 2, 2]).call 0 = .done (.ok first) ∧
        ((start 0).run requests [0, 1, 0, 1, 2, 0, 1, 2, 2]).call 1 = .done (.ok second) ∧
        ((start 0).run requests [0, 1, 0, 1, 2, 0, 1, 2, 2]).call 2 = .done (.error failure) ∧
        first.index = second.index ∧ first.index.sortedIds = ["a:1"] ∧
        ((start 0).run requests [0, 1, 0, 1, 2, 0, 1, 2, 2]).cache.size ≤ 1 := by
  let requests : Nat → IndexRequest := fun i => ⟨oneSource, if i < 2 then "a" else "b"⟩
  have halike : Alike requests := by
    intro i j _
    cases hcontent : oneSource.content (requests j).path with
    | ok octets => exact .inl ⟨octets, hcontent, hcontent⟩
    | error failure => exact .inr ⟨failure, failure, hcontent, hcontent⟩
  obtain ⟨horderly, _, hreturns, hanswers⟩ := run_orderly requests 0 [0, 1, 0, 1, 2, 0, 1, 2, 2]
  have hids : (oneSource.buildIndex "a").toOption.map (·.sortedIds) = some ["a:1"] := by cbv
  obtain ⟨index, hbuild, hindex⟩ :
      ∃ index, oneSource.buildIndex "a" = .ok index ∧ index.sortedIds = ["a:1"] := by
    cases hbuild : oneSource.buildIndex "a" with
    | error failure => rw [hbuild] at hids; cases hids
    | ok index => rw [hbuild] at hids; exact ⟨index, rfl, Option.some.inj hids⟩
  have hcached : ∀ {outcome : Except Failure CachedIndex}, outcome.map (·.index) = .ok index →
      ∃ cached, outcome = .ok cached ∧ cached.index = index := by
    intro outcome hmap
    cases outcome with
    | error failure => cases hmap
    | ok cached => exact ⟨cached, rfl, Except.ok.inj hmap⟩
  obtain ⟨_, hfirst⟩ := hreturns 0 (by decide)
  obtain ⟨first, rfl, hfirst'⟩ := hcached ((hanswers halike 0 _ hfirst).1.trans hbuild)
  obtain ⟨_, hsecond⟩ := hreturns 1 (by decide)
  obtain ⟨second, rfl, hsecond'⟩ := hcached ((hanswers halike 1 _ hsecond).1.trans hbuild)
  obtain ⟨outcome, hthird⟩ := hreturns 2 (by decide)
  have hmissing : (oneSource.buildIndex "b").isOk = false := by cbv
  have hmap : outcome.map (·.index) = oneSource.buildIndex "b" := (hanswers halike 2 _ hthird).1
  rw [← hmap] at hmissing
  cases outcome with
  | ok cached => cases hmissing
  | error failure =>
      exact ⟨requests, halike, first, second, failure, hfirst, hsecond, hthird,
        hfirst'.trans hsecond'.symm, hfirst' ▸ hindex, horderly.size_le⟩

end IndexCalls

end RegistryGraph
