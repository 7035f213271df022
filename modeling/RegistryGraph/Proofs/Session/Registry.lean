import RegistryGraph.Session.Registry

/-!
# What operations do to a registry

What a session does with a request comes first.  For every operation of the registry there is a
lemma about the session with a number, and for those that change them also about the ids and about
the number of registered sessions.  Two invariants follow.

* `SessionRegistry.nextDraw_spec`: the id of a new session is the first draw that no registered one has.
* `SessionRegistry.Linked`: the registered sessions are those that are open, each under the id that it
  has, and there are no more of them than the limit allows.
* `SessionRegistry.Sound`: what streams rely on, as long as no id is drawn twice and nobody gives up a
  receiving end.
-/

namespace RegistryGraph

/-! ## One session -/

namespace Session

variable {limit : Nat} {request : Rpc.Request} {s : Session}

/-- **What a session answers**, and in which order it asks. -/
theorem post_answer (limit : Nat) (request : Rpc.Request) (s : Session) :
    ((s.post limit request).2 = .closed ↔ s.closed = true ∨ s.receiving = false) ∧
      ((s.post limit request).2 = .full ↔
        s.closed = false ∧ s.receiving = true ∧ limit ≤ s.waiting.length) ∧
      ((s.post limit request).2 = .accepted ↔
        s.closed = false ∧ s.receiving = true ∧ s.waiting.length < limit) ∧
      (s.post limit request).2 ≠ .notFound := by
  unfold post
  cases s.closed with
  | true => simp
  | false =>
      cases s.receiving with
      | false => simp
      | true =>
          by_cases hfull : limit ≤ s.waiting.length
          · simp [hfull, Nat.not_lt.2 hfull]
          · simp [hfull, Nat.lt_of_not_le hfull]

/-- An accepted request goes to the end of the inbox. -/
theorem post_of_accepted (h : (s.post limit request).2 = .accepted) :
    (s.post limit request).1 = { s with waiting := s.waiting ++ [request] } := by
  obtain ⟨hopen, hreceiving, hroom⟩ := (post_answer limit request s).2.2.1.1 h
  rw [post, hopen, hreceiving, if_neg (by simp), if_neg (Nat.not_le.2 hroom)]

/-- A refused request leaves the session as it is. -/
theorem post_of_refused (h : (s.post limit request).2 ≠ .accepted) :
    (s.post limit request).1 = s := by
  unfold post at h ⊢
  split
  · rfl
  · next hopen =>
      rw [if_neg hopen] at h
      split
      · rfl
      · next hroom =>
          rw [if_neg hroom] at h
          exact absurd rfl h

/-- Posting changes neither id nor repository, and closes nothing. -/
theorem post_frame (limit : Nat) (request : Rpc.Request) (s : Session) :
    (s.post limit request).1.id = s.id ∧ (s.post limit request).1.repo = s.repo ∧
      (s.post limit request).1.closed = s.closed := by
  by_cases haccepted : (s.post limit request).2 = .accepted
  · rw [post_of_accepted haccepted]
    exact ⟨rfl, rfl, rfl⟩
  · rw [post_of_refused haccepted]
    exact ⟨rfl, rfl, rfl⟩

/-- Receiving changes neither id nor repository, and closes nothing. -/
theorem receive_frame (s : Session) :
    s.receive.1.id = s.id ∧ s.receive.1.repo = s.repo ∧ s.receive.1.closed = s.closed := by
  rw [receive]
  split
  · split <;> exact ⟨rfl, rfl, rfl⟩
  · exact ⟨rfl, rfl, rfl⟩

end Session

namespace SessionRegistry

variable {r r' : SessionRegistry} {m n number : Nat} {id : String} {repo : String}
  {request : Rpc.Request} {session : Session}

/-! ## The session with a number -/

/-- A session that is replaced is found replaced. -/
theorem session?_replace_self (h : r.session? n = some session) (s : Session) :
    (r.replace n s).session? n = some s :=
  List.getElem?_set_self (List.getElem?_eq_some_iff.1 h).1

/-- Replacing a session leaves the others. -/
theorem session?_replace_of_ne (h : number ≠ n) (s : Session) :
    (r.replace number s).session? n = r.session? n :=
  List.getElem?_set_ne h

/-- Replacing a session by itself does nothing. -/
theorem replace_eq_self (h : r.session? n = some session) : r.replace n session = r := by
  obtain ⟨hn, rfl⟩ := List.getElem?_eq_some_iff.1 h
  rw [replace, List.set_getElem_self]

/-- An operation that replaces the session with a number by what it makes of it. -/
theorem session?_replace_map (h : r.session? number = some session) (f : Session → Session)
    (m : Nat) :
    (r.replace number (f session)).session? m =
      (r.session? m).map fun s => if number = m then f s else s := by
  by_cases hm : number = m
  · subst hm
    rw [session?_replace_self h, h]
    simp
  · rw [session?_replace_of_ne hm]
    simp [hm]

/-- Posting to a session does what posting does to it, and nothing to the others. -/
theorem session?_post_eq (r : SessionRegistry) (number : Nat) (request : Rpc.Request) (m : Nat) :
    (r.post number request).1.session? m =
      (r.session? m).map fun s => if number = m then (s.post r.inboxLimit request).1 else s := by
  rw [post]
  cases hsession : r.session? number with
  | none =>
      by_cases hm : number = m
      · rw [← hm, hsession]
        rfl
      · simp [hm]
  | some session =>
      exact session?_replace_map hsession (fun s => (s.post r.inboxLimit request).1) m

/-- Receiving from a session does what receiving does to it, and nothing to the others. -/
theorem session?_receive (r : SessionRegistry) (number m : Nat) :
    (r.receive number).1.session? m =
      (r.session? m).map fun s => if number = m then s.receive.1 else s := by
  rw [receive]
  cases hsession : r.session? number with
  | none =>
      by_cases hm : number = m
      · rw [← hm, hsession]
        rfl
      · simp [hm]
  | some session => exact session?_replace_map hsession (fun s => s.receive.1) m

/-- Giving up a receiving end does so for one session. -/
theorem session?_dropInbox (r : SessionRegistry) (number m : Nat) :
    (r.dropInbox number).session? m =
      (r.session? m).map fun s => if number = m then s.dropInbox else s :=
  List.getElem?_modify ..

/-- Unregistering closes the session to which the id leads. -/
theorem session?_unregister_eq (r : SessionRegistry) (id : String) (m : Nat) :
    (r.unregister id).session? m =
      (r.session? m).map fun s => if r.find? id = some m then s.close else s := by
  rw [unregister]
  cases r.find? id with
  | none => simp
  | some number =>
      simp only [Option.some.injEq]
      exact List.getElem?_modify ..

/-- Posting to a session that exists is posting to it alone. -/
theorem post_of_session (h : r.session? number = some session) (request : Rpc.Request) :
    r.post number request =
      (r.replace number (session.post r.inboxLimit request).1,
        (session.post r.inboxLimit request).2) := by
  rw [post, h]

/-- A request that is not accepted leaves the sessions as they were. -/
theorem post_of_not_accepted (h : (r.post number request).2 ≠ .accepted) :
    (r.post number request).1 = r := by
  cases hsession : r.session? number with
  | none => rw [post, hsession]
  | some session =>
      rw [post_of_session hsession] at h ⊢
      dsimp only at h ⊢
      rw [Session.post_of_refused h, replace_eq_self hsession]

/-- A request that is accepted waits behind those that came before it. -/
theorem post_of_accepted (h : (r.post number request).2 = .accepted) :
    ∃ session, r.session? number = some session ∧ session.closed = false ∧
      (r.post number request).1 =
        r.replace number { session with waiting := session.waiting ++ [request] } := by
  cases hsession : r.session? number with
  | none =>
      rw [post, hsession] at h
      cases h
  | some session =>
      rw [post_of_session hsession] at h ⊢
      have hopen := ((Session.post_answer r.inboxLimit request session).2.2.1.1 h).1
      exact ⟨session, rfl, hopen, by rw [Session.post_of_accepted h]⟩

/-- The session to which a request is posted has it behind those that wait, if it is accepted; any
other session is as it was. -/
theorem session?_post (h : r.session? n = some session) (number : Nat) (request : Rpc.Request) :
    if number = n ∧ (r.post number request).2 = .accepted then
      session.closed = false ∧ (r.post number request).1.session? n =
        some { session with waiting := session.waiting ++ [request] }
    else (r.post number request).1.session? n = some session := by
  by_cases haccepted : (r.post number request).2 = .accepted
  · obtain ⟨session', hsession', hopen, hpost⟩ := post_of_accepted haccepted
    by_cases hn : number = n
    · subst hn
      rw [h] at hsession'
      cases hsession'
      rw [if_pos ⟨rfl, haccepted⟩, hpost]
      exact ⟨hopen, session?_replace_self h _⟩
    · rw [if_neg fun hboth => hn hboth.1, hpost, session?_replace_of_ne hn]
      exact h
  · rw [if_neg fun hboth => haccepted hboth.2, post_of_not_accepted haccepted]
    exact h

/-- Unregistering closes a session or leaves it as it is. -/
theorem session?_unregister (id : String) (h : r.session? n = some session) :
    (r.unregister id).session? n = some session ∨
      (r.unregister id).session? n = some session.close := by
  rw [session?_unregister_eq, h, Option.map_some]
  split
  · exact .inr rfl
  · exact .inl rfl

/-- Posting draws no id and opens no session. -/
theorem post_keeps (r : SessionRegistry) (number : Nat) (request : Rpc.Request) :
    (r.post number request).1.ids = r.ids ∧ (r.post number request).1.drawn = r.drawn ∧
      (r.post number request).1.sessions.length = r.sessions.length := by
  unfold post
  split
  · exact ⟨rfl, rfl, rfl⟩
  · exact ⟨rfl, rfl, List.length_set⟩

/-- Posting concerns sessions only. -/
theorem post_frame (r : SessionRegistry) (number : Nat) (request : Rpc.Request) :
    (r.post number request).1.limit = r.limit ∧
      (r.post number request).1.inboxLimit = r.inboxLimit ∧
      (r.post number request).1.registered = r.registered := by
  unfold post
  split <;> exact ⟨rfl, rfl, rfl⟩

/-- Receiving concerns sessions only. -/
theorem receive_frame (r : SessionRegistry) (number : Nat) :
    (r.receive number).1.limit = r.limit ∧ (r.receive number).1.inboxLimit = r.inboxLimit ∧
      (r.receive number).1.registered = r.registered := by
  unfold receive
  split <;> exact ⟨rfl, rfl, rfl⟩

/-- Receiving draws no id and opens no session. -/
theorem receive_keeps (r : SessionRegistry) (number : Nat) :
    (r.receive number).1.ids = r.ids ∧ (r.receive number).1.drawn = r.drawn ∧
      (r.receive number).1.sessions.length = r.sessions.length := by
  unfold receive
  split
  · exact ⟨rfl, rfl, rfl⟩
  · exact ⟨rfl, rfl, List.length_set⟩

/-- Unregistering draws no id. -/
theorem unregister_keeps (r : SessionRegistry) (id : String) :
    (r.unregister id).ids = r.ids ∧ (r.unregister id).drawn = r.drawn := by
  unfold unregister
  split <;> exact ⟨rfl, rfl⟩

/-- Unregistering takes no session off the list, it closes one. -/
theorem length_sessions_unregister (r : SessionRegistry) (id : String) :
    (r.unregister id).sessions.length = r.sessions.length := by
  unfold unregister
  split
  · rfl
  · exact List.length_modify ..

/-! ## Ids and the number of registered sessions -/

/-- Unregistering an id that is not registered does nothing. -/
theorem unregister_of_none (h : r.find? id = none) : r.unregister id = r := by
  rw [unregister, h]

/-- An id that is unregistered leads nowhere, and every other id where it led before. -/
theorem find?_unregister (r : SessionRegistry) (id id' : String) :
    (r.unregister id).find? id' = if id' = id then none else r.find? id' := by
  rw [unregister]
  cases hfind : r.find? id with
  | none =>
      by_cases hid : id' = id
      · rw [if_pos hid, hid]
        exact hfind
      · rw [if_neg hid]
  | some number =>
      dsimp only [find?]
      rw [Std.ExtTreeMap.getElem?_erase]
      by_cases hid : id' = id
      · rw [if_pos hid, if_pos (hid ▸ Std.ReflCmp.compare_self)]
      · rw [if_neg hid, if_neg fun heq => hid (Std.LawfulEqCmp.eq_of_compare heq).symm]

/-- Unregistering frees one place. -/
theorem size_unregister (h : r.find? id = some number) :
    (r.unregister id).size + 1 = r.size := by
  have hsome : r.registered[id]? = some number := h
  have hcontains : r.registered.contains id = true := by
    rw [Std.ExtTreeMap.contains_eq_isSome_getElem?, hsome]
    rfl
  have hpos : r.registered.size ≠ 0 := by
    intro hzero
    rw [Std.ExtTreeMap.eq_empty_iff_size_eq_zero.2 hzero] at hsome
    simp at hsome
  rw [unregister, h]
  dsimp only [size]
  rw [Std.ExtTreeMap.size_erase, if_pos hcontains]
  omega

/-- The id leads nowhere any more, and the session is not closed yet. -/
def forget (r : SessionRegistry) (id : String) : SessionRegistry :=
  { r with registered := r.registered.erase id }

/-- The session is closed. -/
def shut (r : SessionRegistry) (number : Nat) : SessionRegistry :=
  { r with sessions := r.sessions.modify number Session.close }

/-- Unregistering forgets the id and shuts the session. -/
theorem unregister_eq_shut (h : r.find? id = some number) :
    r.unregister id = (r.forget id).shut number := by
  rw [unregister, h]
  rfl

/-- Posting and forgetting an id commute. -/
theorem post_forget (r : SessionRegistry) (id : String) (number : Nat) (request : Rpc.Request) :
    (r.forget id).post number request =
      ((r.post number request).1.forget id, (r.post number request).2) := by
  have hsame : (r.forget id).session? number = r.session? number := rfl
  rw [post, post, hsame]
  cases r.session? number with
  | none => rfl
  | some session => rfl

/-- Receiving and forgetting an id commute. -/
theorem receive_forget (r : SessionRegistry) (id : String) (number : Nat) :
    (r.forget id).receive number = ((r.receive number).1.forget id, (r.receive number).2) := by
  have hsame : (r.forget id).session? number = r.session? number := rfl
  rw [receive, receive, hsame]
  cases r.session? number with
  | none => rfl
  | some session => rfl

/-! ## Drawing ids -/

/-- Drawing goes on, and every draw in between has a registered id. -/
theorem redraw_spec (r : SessionRegistry) (tries n : Nat) :
    n ≤ r.redraw tries n ∧
      ∀ k, n ≤ k → k < r.redraw tries n → r.registered.contains (r.ids.draw k) = true := by
  induction tries generalizing n with
  | zero => exact ⟨Nat.le_refl n, fun k hk hlt => absurd hk (Nat.not_le.2 hlt)⟩
  | succ tries ih =>
      rw [redraw]
      split
      next htaken =>
        obtain ⟨hle, hbetween⟩ := ih (n + 1)
        refine ⟨by omega, ?_⟩
        intro k hk hlt
        rcases Nat.eq_or_lt_of_le hk with rfl | hk
        · exact htaken
        · exact hbetween k hk hlt
      next => exact ⟨Nat.le_refl n, fun k hk hlt => absurd hk (Nat.not_le.2 hlt)⟩

/-- Drawing comes to an id that is not registered if it may be drawn that often. -/
theorem redraw_free {tries n k : Nat} (hk : k ≤ tries)
    (hfree : r.registered.contains (r.ids.draw (n + k)) = false) :
    r.registered.contains (r.ids.draw (r.redraw tries n)) = false := by
  induction tries generalizing n k with
  | zero =>
      obtain rfl := Nat.le_zero.1 hk
      exact hfree
  | succ tries ih =>
      rw [redraw]
      split
      next htaken =>
        cases k with
        | zero =>
            rw [Nat.add_zero, htaken] at hfree
            cases hfree
        | succ k =>
            apply ih (Nat.le_of_succ_le_succ hk)
            rwa [Nat.add_assoc, Nat.add_comm 1 k]
      next hother => exact Bool.eq_false_iff.2 hother

/-- Whether an id is registered. -/
theorem contains_eq_isSome (r : SessionRegistry) (id : String) :
    r.registered.contains id = (r.find? id).isSome :=
  Std.ExtTreeMap.contains_eq_isSome_getElem?

/-- **The id of the next session** is the first of the next draws that no registered session has. -/
theorem nextDraw_spec (r : SessionRegistry) :
    r.drawn ≤ r.nextDraw ∧ r.find? r.nextId = none ∧
      ∀ k, r.drawn ≤ k → k < r.nextDraw → (r.find? (r.ids.draw k)).isSome = true := by
  obtain ⟨hle, hbetween⟩ := redraw_spec r (r.ids.patience r.registered.keys r.drawn) r.drawn
  refine ⟨hle, ?_, ?_⟩
  · obtain ⟨k, hk, hfree⟩ := r.ids.escapes r.registered.keys r.drawn
    rw [Std.ExtTreeMap.mem_keys, ← Std.ExtTreeMap.contains_iff_mem, Bool.not_eq_true] at hfree
    have hnone := redraw_free hk hfree
    rw [contains_eq_isSome, Option.isSome_eq_false_iff, Option.isNone_iff_eq_none] at hnone
    exact hnone
  · intro k hk hlt
    rw [← contains_eq_isSome]
    exact hbetween k hk hlt

/-- An id that no registered session has is drawn once. -/
theorem nextDraw_of_free (h : r.find? (r.ids.draw r.drawn) = none) : r.nextDraw = r.drawn := by
  obtain ⟨hle, _, hbetween⟩ := nextDraw_spec r
  rcases Nat.eq_or_lt_of_le hle with heq | hlt
  · exact heq.symm
  · have htaken := hbetween r.drawn (Nat.le_refl _) hlt
    rw [h] at htaken
    cases htaken

/-- A session is refused at the limit only. -/
theorem register?_eq_none_iff : r.register? repo = none ↔ r.limit ≤ r.size := by
  rw [register?]
  by_cases hfull : r.limit ≤ r.size
  · simp [hfull]
  · simp [hfull]

/-- A new session comes after those that have been, with the id that has been drawn for it. -/
theorem register?_eq_some (h : r.register? repo = some (r', number)) :
    number = r.sessions.length ∧ (r'.ids = r.ids ∧ r'.drawn = r.nextDraw + 1) ∧
      r'.sessions = r.sessions ++ [.fresh r.nextId repo] := by
  unfold register? at h
  split at h
  · cases h
  · cases h
    exact ⟨rfl, ⟨rfl, rfl⟩, rfl⟩

/-- The sessions after a registration. -/
theorem session?_register (h : r.register? repo = some (r', number)) (m : Nat) :
    r'.session? m = if m = number then some (.fresh r.nextId repo) else r.session? m := by
  obtain ⟨hnumber, _, hsessions⟩ := register?_eq_some h
  rw [session?, hsessions]
  by_cases hm : m = number
  · rw [if_pos hm, hm, hnumber, List.getElem?_concat_length]
  · rw [if_neg hm, session?]
    by_cases hlt : m < r.sessions.length
    · exact List.getElem?_append_left hlt
    · have hold : r.sessions[m]? = none := List.getElem?_eq_none (Nat.le_of_not_lt hlt)
      have hnew : (r.sessions ++ [Session.fresh r.nextId repo])[m]? = none := by
        rw [List.getElem?_eq_none_iff, List.length_append, List.length_singleton]
        omega
      rw [hold, hnew]

/-- Where the ids lead after a registration. -/
theorem find?_register (h : r.register? repo = some (r', number)) (id : String) :
    r'.find? id = if id = r.nextId then some number else r.find? id := by
  unfold register? at h
  split at h
  · cases h
  · cases h
    dsimp only [find?]
    rw [Std.ExtTreeMap.getElem?_insert]
    by_cases hid : id = r.nextId
    · rw [if_pos hid, if_pos (hid ▸ Std.ReflCmp.compare_self)]
    · rw [if_neg hid, if_neg fun heq => hid (Std.LawfulEqCmp.eq_of_compare heq).symm]

/-- A registration takes one place, because the id was not registered. -/
theorem size_register (h : r.register? repo = some (r', number)) :
    r.size < r.limit ∧ r'.limit = r.limit ∧ r'.size = r.size + 1 := by
  have hcontains : r.registered.contains r.nextId = false := by
    rw [contains_eq_isSome, (nextDraw_spec r).2.1]
    rfl
  unfold register? at h
  split at h
  · cases h
  next hroom =>
    cases h
    refine ⟨Nat.lt_of_not_le hroom, rfl, ?_⟩
    dsimp only [size]
    rw [Std.ExtTreeMap.size_insert, hcontains]
    rfl

/-! ## Registered sessions are open -/

/-- The ids lead to the open sessions, each of which has the id that leads to it, and every session has
an id that was drawn for it after those of the earlier ones. -/
structure Linked (r : SessionRegistry) : Prop where
  size_le : r.size ≤ r.limit
  found : ∀ id n, r.find? id = some n →
    ∃ session, r.session? n = some session ∧ session.id = id ∧ session.closed = false
  registered : ∀ n session, r.session? n = some session → session.closed = false →
    r.find? session.id = some n
  id_drawn : ∀ n session, r.session? n = some session → ∃ k < r.drawn, session.id = r.ids.draw k
  in_order : ∀ m n s s', m < n → r.session? m = some s → r.session? n = some s' →
    ∃ j k, j < k ∧ s.id = r.ids.draw j ∧ s'.id = r.ids.draw k

/-- A registry without sessions has no id that leads anywhere. -/
theorem linked_ofLimits (ids : IdGenerator) (limit inboxLimit : Nat) :
    (ofLimits ids limit inboxLimit).Linked where
  size_le := Nat.zero_le limit
  id_drawn := by
    intro n session hsession
    cases hsession
  in_order := by
    intro m n s s' _ hs
    cases hs
  found := by
    intro id n hfind
    simp [find?, ofLimits] at hfind
  registered := by
    intro n session hsession
    cases hsession

namespace Linked

/-- Registered sessions have distinct ids. -/
theorem number_unique (h : r.Linked) {s s' : Session} (hs : r.session? m = some s)
    (hs' : r.session? n = some s') (hopen : s.closed = false) (hopen' : s'.closed = false)
    (hid : s.id = s'.id) : m = n := by
  have hm := h.registered m s hs hopen
  have hn := h.registered n s' hs' hopen'
  rw [hid, hn] at hm
  exact (Option.some.inj hm).symm

/-- Where no id is drawn twice, all sessions have distinct ids. -/
theorem number_unique_of_fresh (h : r.Linked)
    (hfresh : ∀ i j, r.ids.draw i = r.ids.draw j → i = j) {s s' : Session}
    (hs : r.session? m = some s) (hs' : r.session? n = some s') (hid : s.id = s'.id) : m = n := by
  have hapart : ∀ {m n : Nat} {s s' : Session}, m < n → r.session? m = some s →
      r.session? n = some s' → s.id ≠ s'.id := by
    intro m n s s' hlt hs hs' hsame
    obtain ⟨j, k, hjk, hj, hk⟩ := h.in_order m n s s' hlt hs hs'
    have heq := hfresh j k (hj.symm.trans (hsame.trans hk))
    omega
  rcases Nat.lt_trichotomy m n with hlt | heq | hgt
  · exact absurd hid (hapart hlt hs hs')
  · exact heq
  · exact absurd hid.symm (hapart hgt hs' hs)

/-- An id leads to a session just in case the session has the id and is open. -/
theorem find?_iff (h : r.Linked) (hsession : r.session? n = some session) :
    r.find? id = some n ↔ id = session.id ∧ session.closed = false := by
  constructor
  · intro hfind
    obtain ⟨s, hs, hid, hopen⟩ := h.found id n hfind
    obtain rfl := Option.some.inj (hs.symm.trans hsession)
    exact ⟨hid.symm, hopen⟩
  · rintro ⟨rfl, hopen⟩
    exact h.registered n session hsession hopen

/-- What changes sessions and keeps their ids, and whether they are closed, keeps the rest. -/
theorem of_map (h : r.Linked) (f : Nat → Session → Session)
    (hf : ∀ m s, (f m s).id = s.id ∧ (f m s).closed = s.closed)
    (hids : r'.ids = r.ids ∧ r'.drawn = r.drawn) (hlimit : r'.limit = r.limit)
    (hregistered : r'.registered = r.registered)
    (hsessions : ∀ m, r'.session? m = (r.session? m).map (f m)) : r'.Linked := by
  have hfind : ∀ id, r'.find? id = r.find? id := by
    intro id
    rw [find?, find?, hregistered]
  have hback : ∀ {m : Nat} {s' : Session}, r'.session? m = some s' →
      ∃ s, r.session? m = some s ∧ s'.id = s.id ∧ s'.closed = s.closed := by
    intro m s' hs'
    rw [hsessions, Option.map_eq_some_iff] at hs'
    obtain ⟨s, hs, rfl⟩ := hs'
    exact ⟨s, hs, hf m s⟩
  constructor
  case size_le =>
    rw [size, hregistered, hlimit]
    exact h.size_le
  case id_drawn =>
    intro n s' hs'
    obtain ⟨s, hs, hid, _⟩ := hback hs'
    rw [hid, hids.1, hids.2]
    exact h.id_drawn n s hs
  case in_order =>
    intro m n s' t' hlt hs' ht'
    obtain ⟨s, hs, hid, _⟩ := hback hs'
    obtain ⟨t, ht, hid', _⟩ := hback ht'
    rw [hid, hid', hids.1]
    exact h.in_order m n s t hlt hs ht
  case found =>
    intro id n hfound
    rw [hfind] at hfound
    obtain ⟨s, hs, hid, hopen⟩ := h.found id n hfound
    obtain ⟨hid', hclosed'⟩ := hf n s
    exact ⟨f n s, by rw [hsessions, hs, Option.map_some], hid'.trans hid, hclosed'.trans hopen⟩
  case registered =>
    intro n s' hs' hopen
    obtain ⟨s, hs, hid, hclosed⟩ := hback hs'
    rw [hfind, hid]
    exact h.registered n s hs (hclosed.symm.trans hopen)

/-- Posting keeps the registered sessions those that are open. -/
theorem post (h : r.Linked) (number : Nat) (request : Rpc.Request) :
    (r.post number request).1.Linked := by
  obtain ⟨hids, hdrawn, _⟩ := post_keeps r number request
  obtain ⟨hlimit, _, hregistered⟩ := post_frame r number request
  refine h.of_map _ ?_ ⟨hids, hdrawn⟩ hlimit hregistered (session?_post_eq r number request)
  intro m s
  obtain ⟨hid, _, hclosed⟩ := Session.post_frame r.inboxLimit request s
  split
  · exact ⟨hid, hclosed⟩
  · exact ⟨rfl, rfl⟩

/-- Receiving keeps the registered sessions those that are open. -/
theorem receive (h : r.Linked) (number : Nat) : (r.receive number).1.Linked := by
  obtain ⟨hids, hdrawn, _⟩ := receive_keeps r number
  obtain ⟨hlimit, _, hregistered⟩ := receive_frame r number
  refine h.of_map _ ?_ ⟨hids, hdrawn⟩ hlimit hregistered (session?_receive r number)
  intro m s
  obtain ⟨hid, _, hclosed⟩ := Session.receive_frame s
  split
  · exact ⟨hid, hclosed⟩
  · exact ⟨rfl, rfl⟩

/-- Giving up a receiving end keeps the registered sessions those that are open. -/
theorem dropInbox (h : r.Linked) (number : Nat) : (r.dropInbox number).Linked := by
  refine h.of_map _ ?_ ⟨rfl, rfl⟩ rfl rfl (session?_dropInbox r number)
  intro m s
  split <;> exact ⟨rfl, rfl⟩

/-- Unregistering keeps the registered sessions those that are open. -/
theorem unregister (h : r.Linked) (id : String) : (r.unregister id).Linked := by
  cases hfind : r.find? id with
  | none => rwa [unregister_of_none hfind]
  | some number =>
      have hlimit : (r.unregister id).limit = r.limit := by
        rw [SessionRegistry.unregister, hfind]
      have hsize := size_unregister hfind
      have hle := h.size_le
      constructor
      case size_le =>
        rw [hlimit]
        omega
      case id_drawn =>
        intro n s' hs'
        rw [session?_unregister_eq, Option.map_eq_some_iff] at hs'
        obtain ⟨s, hs, rfl⟩ := hs'
        obtain ⟨hids, hdrawn⟩ := unregister_keeps r id
        obtain ⟨k, hk, hid⟩ := h.id_drawn n s hs
        rw [hids, hdrawn]
        refine ⟨k, hk, ?_⟩
        split <;> exact hid
      case in_order =>
        intro m n s' t' hlt hs' ht'
        rw [session?_unregister_eq, Option.map_eq_some_iff] at hs' ht'
        obtain ⟨s, hs, rfl⟩ := hs'
        obtain ⟨t, ht, rfl⟩ := ht'
        obtain ⟨j, k, hjk, hj, hk⟩ := h.in_order m n s t hlt hs ht
        rw [(unregister_keeps r id).1]
        refine ⟨j, k, hjk, ?_, ?_⟩
        · split <;> exact hj
        · split <;> exact hk
      case found =>
        intro id' n hfind'
        rw [find?_unregister] at hfind'
        split at hfind'
        next => cases hfind'
        next hne =>
          obtain ⟨s, hs, hid, hopen⟩ := h.found id' n hfind'
          have hother : r.find? id ≠ some n := by
            intro hsame
            exact hne (((h.find?_iff hs).1 hsame).1.trans hid).symm
          exact ⟨s, by rw [session?_unregister_eq, hs, Option.map_some, if_neg hother], hid, hopen⟩
      case registered =>
        intro n s' hs' hopen
        rw [session?_unregister_eq, Option.map_eq_some_iff] at hs'
        obtain ⟨s, hs, rfl⟩ := hs'
        by_cases hgone : r.find? id = some n
        · rw [if_pos hgone] at hopen
          cases hopen
        · rw [if_neg hgone] at hopen ⊢
          have hne : s.id ≠ id := by
            intro heq
            exact hgone ((h.find?_iff hs).2 ⟨heq.symm, hopen⟩)
          rw [find?_unregister, if_neg hne]
          exact h.registered n s hs hopen

/-- The id of a new session is not registered, so it leads to no other session. -/
theorem register (h : r.Linked) (hregister : r.register? repo = some (r', number)) :
    r'.Linked := by
  obtain ⟨rfl, ⟨hids, hdrawn⟩, _⟩ := register?_eq_some hregister
  obtain ⟨hle, hnew, _⟩ := nextDraw_spec r
  obtain ⟨hroom, hlimit, hsize⟩ := size_register hregister
  have hnone : r.session? r.sessions.length = none := List.getElem?_eq_none (Nat.le_refl _)
  constructor
  case size_le =>
    rw [hsize, hlimit]
    omega
  case id_drawn =>
    intro n s hs
    rw [session?_register hregister] at hs
    rw [hids, hdrawn]
    split at hs
    next =>
      cases hs
      exact ⟨r.nextDraw, Nat.lt_succ_self _, rfl⟩
    next =>
      obtain ⟨k, hk, hid⟩ := h.id_drawn n s hs
      exact ⟨k, by omega, hid⟩
  case in_order =>
    intro m n s s' hlt hs hs'
    rw [session?_register hregister] at hs hs'
    have hm : m ≠ r.sessions.length := by
      rintro rfl
      rw [if_neg (by omega)] at hs'
      have hn : n < r.sessions.length := (List.getElem?_eq_some_iff.1 hs').1
      omega
    rw [if_neg hm] at hs
    rw [hids]
    split at hs'
    next =>
      cases hs'
      obtain ⟨j, hj, hid⟩ := h.id_drawn m s hs
      exact ⟨j, r.nextDraw, by omega, hid, rfl⟩
    next => exact h.in_order m n s s' hlt hs hs'
  case found =>
    intro id n hfind
    rw [find?_register hregister] at hfind
    rw [session?_register hregister]
    split at hfind
    next hid =>
      cases hfind
      exact ⟨_, if_pos rfl, hid.symm, rfl⟩
    next =>
      obtain ⟨s, hs, hid, hopen⟩ := h.found id n hfind
      have hne : n ≠ r.sessions.length := by
        rintro rfl
        rw [hnone] at hs
        cases hs
      exact ⟨s, by rw [if_neg hne, hs], hid, hopen⟩
  case registered =>
    intro n s hs hopen
    rw [session?_register hregister] at hs
    rw [find?_register hregister]
    split at hs
    next hn =>
      cases hs
      rw [hn]
      exact if_pos rfl
    next hn =>
      have hfind := h.registered n s hs hopen
      have hne : s.id ≠ r.nextId := by
        intro heq
        rw [heq, hnew] at hfind
        cases hfind
      rw [if_neg hne]
      exact hfind

end Linked

/-- The ids lead to the open sessions, and no id is drawn twice. -/
structure FreshlyLinked (r : SessionRegistry) : Prop extends Linked r where
  fresh : ∀ i j, r.ids.draw i = r.ids.draw j → i = j

/-! ## Sessions from which somebody receives -/

/-- No id is drawn twice, so that session number `n` has draw number `n` for its id; every session has its
receiving end, an id leads to the session that has it, and sessions that are not closed are registered. -/
structure Sound (r : SessionRegistry) : Prop where
  fresh : ∀ m n, r.ids.draw m = r.ids.draw n → m = n
  drawn_eq : r.drawn = r.sessions.length
  receiving : ∀ n session, r.session? n = some session → session.receiving = true
  known : ∀ id n, r.find? id = some n → n < r.sessions.length
  found : ∀ id n, r.find? id = some n → id = r.ids.draw n
  registered : ∀ n session, r.session? n = some session → session.closed = false →
    r.find? (r.ids.draw n) = some n

/-- A registry without sessions whose supply of ids does not repeat itself. -/
theorem sound_ofLimits (supply : IdSupply) (limit inboxLimit : Nat) :
    (ofLimits supply limit inboxLimit).Sound where
  fresh := supply.injective
  drawn_eq := rfl
  receiving := by
    intro n session hsession
    cases hsession
  known := by
    intro id n hfind
    simp [find?, ofLimits] at hfind
  found := by
    intro id n hfind
    simp [find?, ofLimits] at hfind
  registered := by
    intro n session hsession
    cases hsession

/-- Where no id is drawn twice, no draw is in vain. -/
theorem Sound.nextId_eq (h : r.Sound) :
    r.nextDraw = r.sessions.length ∧ r.nextId = r.ids.draw r.sessions.length := by
  have hfree : r.find? (r.ids.draw r.drawn) = none := by
    cases hfind : r.find? (r.ids.draw r.drawn) with
    | none => rfl
    | some n =>
        have hn := h.fresh _ _ (h.found _ n hfind)
        have hlt := h.known _ n hfind
        have hdrawn := h.drawn_eq
        omega
  have hnext : r.nextDraw = r.sessions.length := (nextDraw_of_free hfree).trans h.drawn_eq
  exact ⟨hnext, by rw [nextId, hnext]⟩

/-- A session that is registered has the draw with its number. -/
theorem Sound.id_eq_of_register (h : r.Sound) (hregister : r.register? repo = some (r', number)) :
    r.nextId = r.ids.draw number := by
  rw [h.nextId_eq.2, (register?_eq_some hregister).1]

/-- Replacing a session by one that is closed at least as much, and that has its receiving end. -/
theorem Sound.replace (h : r.Sound) (hold : r.session? n = some session) {s : Session}
    (hs : s.receiving = session.receiving) (hclosed : session.closed = true → s.closed = true) :
    (r.replace n s).Sound where
  fresh := h.fresh
  drawn_eq := h.drawn_eq.trans List.length_set.symm
  receiving := by
    intro m session' hsession'
    by_cases hm : n = m
    · subst hm
      rw [session?_replace_self hold] at hsession'
      cases hsession'
      exact hs.trans (h.receiving n session hold)
    · rw [session?_replace_of_ne hm] at hsession'
      exact h.receiving m session' hsession'
  known := by
    intro id m hfind
    have hlt := h.known id m hfind
    rwa [← @List.length_set _ r.sessions n s] at hlt
  found := h.found
  registered := by
    intro m session' hsession' hopen
    by_cases hm : n = m
    · subst hm
      rw [session?_replace_self hold] at hsession'
      cases hsession'
      refine h.registered n session hold ?_
      cases hc : session.closed with
      | false => rfl
      | true => rw [hclosed hc] at hopen; cases hopen
    · rw [session?_replace_of_ne hm] at hsession'
      exact h.registered m session' hsession' hopen

/-- Unregistering an id leaves the others where they lead. -/
theorem Sound.unregister (h : r.Sound) (id : String) : (r.unregister id).Sound where
  fresh := by
    rw [(unregister_keeps r id).1]
    exact h.fresh
  drawn_eq := by
    rw [(unregister_keeps r id).2, length_sessions_unregister]
    exact h.drawn_eq
  receiving := by
    intro m session' hsession'
    rw [session?_unregister_eq, Option.map_eq_some_iff] at hsession'
    obtain ⟨session, hsession, rfl⟩ := hsession'
    have hreceiving := h.receiving m session hsession
    split <;> exact hreceiving
  known := by
    intro id' n hfind
    rw [find?_unregister] at hfind
    rw [length_sessions_unregister]
    split at hfind
    · cases hfind
    · exact h.known id' n hfind
  found := by
    intro id' n hfind
    rw [find?_unregister] at hfind
    rw [(unregister_keeps r id).1]
    split at hfind
    · cases hfind
    · exact h.found id' n hfind
  registered := by
    intro m session' hsession' hopen
    rw [session?_unregister_eq, Option.map_eq_some_iff] at hsession'
    obtain ⟨session, hsession, rfl⟩ := hsession'
    rw [(unregister_keeps r id).1, find?_unregister]
    by_cases hgone : r.find? id = some m
    · rw [if_pos hgone] at hopen
      cases hopen
    · rw [if_neg hgone] at hopen
      have hfind := h.registered m session hsession hopen
      have hne : r.ids.draw m ≠ id := by
        rintro rfl
        exact hgone hfind
      rw [if_neg hne]
      exact hfind

/-- Unregistering closes the session that has the id. -/
theorem Sound.closed_of_unregister (h : r.Sound) (hsession : r.session? n = some session) :
    ∃ session', (r.unregister (r.ids.draw n)).session? n = some session' ∧
      session'.closed = true := by
  rw [session?_unregister_eq, hsession, Option.map_some]
  cases hopen : session.closed with
  | true => exact ⟨_, rfl, by split; rfl; exact hopen⟩
  | false =>
      rw [if_pos (h.registered n session hsession hopen)]
      exact ⟨session.close, rfl, rfl⟩

/-- Posting changes what waits only. -/
theorem Sound.post (h : r.Sound) (number : Nat) (request : Rpc.Request) :
    (r.post number request).1.Sound := by
  by_cases haccepted : (r.post number request).2 = .accepted
  · obtain ⟨session, hsession, _, hpost⟩ := post_of_accepted haccepted
    rw [hpost]
    exact h.replace hsession rfl id
  · rwa [post_of_not_accepted haccepted]

/-- A new session is open, and its id leads to it. -/
theorem Sound.register (h : r.Sound) (hregister : r.register? repo = some (r', number)) :
    r'.Sound := by
  have hid := h.id_eq_of_register hregister
  obtain ⟨hnumber, ⟨hids, hdrawn⟩, hsessions⟩ := register?_eq_some hregister
  have hlength : r'.sessions.length = r.sessions.length + 1 := by
    rw [hsessions, List.length_append, List.length_singleton]
  constructor
  case fresh =>
    rw [hids]
    exact h.fresh
  case drawn_eq => rw [hdrawn, h.nextId_eq.1, hlength]
  case receiving =>
    intro m session' hsession'
    rw [session?_register hregister] at hsession'
    split at hsession'
    · cases hsession'
      rfl
    · exact h.receiving m session' hsession'
  case known =>
    intro id n hfind
    rw [find?_register hregister] at hfind
    split at hfind
    next =>
      cases hfind
      omega
    next =>
      have hlt := h.known id n hfind
      omega
  case found =>
    intro id n hfind
    rw [find?_register hregister] at hfind
    rw [hids]
    split at hfind
    next hsame =>
      cases hfind
      exact hsame.trans hid
    next => exact h.found id n hfind
  case registered =>
    intro m session' hsession' hopen
    rw [session?_register hregister] at hsession'
    rw [hids, find?_register hregister]
    split at hsession'
    next hm => rw [hm, if_pos hid.symm]
    next hm =>
      have hne : r.ids.draw m ≠ r.nextId := by
        rw [hid]
        exact fun heq => hm (h.fresh _ _ heq)
      rw [if_neg hne]
      exact h.registered m session' hsession' hopen

end SessionRegistry

end RegistryGraph
