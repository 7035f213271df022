import Mathlib.Logic.Function.Basic
import RegistryGraph.Proofs.Session.Registry

/-!
# A registry that many use at once

Whoever posts a request looks the session up and then posts to what was found; the two steps are
taken under different locks, and anything can happen in between.  So can registering, unregistering,
receiving, and giving up a receiving end, in any order and any number of times.

* `SharedSessions.session?_next`: what one step does to one session.
* `SharedSessions.unregister_interrupted`: unregistering passes for one step.
* `SharedSessions.linked_run`: the ids always lead to the open sessions.
* `SharedSessions.governed_run`: what the registry keeps to at every moment, and for ever after.
-/

namespace RegistryGraph

/-- A request, and the id of the session that it is for. -/
structure Posting where
  id : String
  request : Rpc.Request

/-- How far somebody who posts a request has come. -/
inductive PostingState where
  /-- The session has not been looked up yet. -/
  | lookUp
  /-- The session has been found; it may have been unregistered since. -/
  | post (number : Nat)
  | done (delivery : Delivery)
deriving DecidableEq, Repr

/-- What happens to the sessions that many use. -/
inductive SessionEvent where
  | register (repo : String)
  | unregister (id : String)
  /-- Somebody looks a session up. -/
  | get (id : String)
  /-- Who has posting number `i` takes a step. -/
  | advance (i : Nat)
  | receive (number : Nat)
  | dropInbox (number : Nat)
deriving DecidableEq, Repr

/-- The sessions, how far each posting has come, and what was accepted and received so far. -/
structure SharedSessions where
  registry : SessionRegistry
  progress : Nat → PostingState
  /-- The requests that a session has accepted, the oldest first. -/
  accepted : Nat → List Rpc.Request
  /-- What looks into the inbox of a session have delivered, the oldest first. -/
  receipts : Nat → List Receipt

namespace SharedSessions

/-- No session, and nobody has looked one up. -/
def start (ids : IdGenerator) (limit inboxLimit : Nat) : SharedSessions :=
  ⟨.ofLimits ids limit inboxLimit, fun _ => .lookUp, fun _ => [], fun _ => []⟩

/-- What an event does; `postings i` is what posting number `i` is about. -/
def next (postings : Nat → Posting) (w : SharedSessions) : SessionEvent → SharedSessions
  | .register repo =>
    match w.registry.register? repo with
    | none => w
    | some (r, _) => { w with registry := r }
  | .unregister id => { w with registry := w.registry.unregister id }
  | .get _ => w
  | .advance i =>
    match w.progress i with
    | .lookUp =>
      let found : PostingState :=
        match w.registry.find? (postings i).id with
        | none => .done .notFound
        | some number => .post number
      { w with progress := Function.update w.progress i found }
    | .post number =>
      let (r, delivery) := w.registry.post number (postings i).request
      { w with
        registry := r
        progress := Function.update w.progress i (.done delivery)
        accepted :=
          if delivery = .accepted then
            Function.update w.accepted number (w.accepted number ++ [(postings i).request])
          else w.accepted }
    | .done _ => w
  | .receive number =>
    let (r, receipt) := w.registry.receive number
    { w with
      registry := r
      receipts := Function.update w.receipts number (w.receipts number ++ receipt.toList) }
  | .dropInbox number => { w with registry := w.registry.dropInbox number }

/-- What events do, one after the other. -/
def run (postings : Nat → Posting) (w : SharedSessions) (events : List SessionEvent) :
    SharedSessions :=
  events.foldl (next postings) w

section Steps

variable (postings : Nat → Posting) (w : SharedSessions)

/-- Without events nothing changes. -/
@[simp] theorem run_nil : w.run postings [] = w := rfl

/-- A run takes its events one by one. -/
@[simp] theorem run_cons (e : SessionEvent) (events : List SessionEvent) :
    w.run postings (e :: events) = (w.next postings e).run postings events := rfl

/-- What every step keeps, a run keeps. -/
theorem run_keeps {postings : Nat → Posting} {w : SharedSessions} (P : SharedSessions → Prop)
    (hstep : ∀ w e, P w → P (w.next postings e)) (h : P w) (events : List SessionEvent) :
    P (w.run postings events) := by
  induction events generalizing w with
  | nil => exact h
  | cons e events ih => exact ih (hstep w e h)

/-- Who posts without being interrupted sends. -/
theorem advance_twice {i : Nat} (h : w.progress i = .lookUp) :
    let sent := w.registry.send (postings i).id (postings i).request
    ((w.next postings (.advance i)).next postings (.advance i)).registry = sent.1 ∧
      ((w.next postings (.advance i)).next postings (.advance i)).progress i = .done sent.2 := by
  dsimp only [next]
  rw [h, SessionRegistry.send]
  cases w.registry.find? (postings i).id with
  | none => simp
  | some number => simp

/-! ## One session -/

/-- What can happen to a session. -/
inductive Action where
  | rest
  | post (request : Rpc.Request)
  | receive
  | close
  | dropInbox

/-- What an event means for the session with a number. -/
def actionOn (n : Nat) : SessionEvent → Action
  | .register _ | .get _ => .rest
  | .unregister id => if w.registry.find? id = some n then .close else .rest
  | .advance i => if w.progress i = .post n then .post (postings i).request else .rest
  | .receive number => if number = n then .receive else .rest
  | .dropInbox number => if number = n then .dropInbox else .rest

/-- What an action makes of a session with room for `limit` requests. -/
def Action.onSession (limit : Nat) : Action → Session → Session
  | .rest, s => s
  | .post request, s => (s.post limit request).1
  | .receive, s => s.receive.1
  | .close, s => s.close
  | .dropInbox, s => s.dropInbox

end Steps

variable {postings : Nat → Posting} {w : SharedSessions} {n : Nat} {session : Session}

/-- **One step, one session.** -/
theorem session?_next (postings : Nat → Posting) (h : w.registry.session? n = some session)
    (e : SessionEvent) :
    (w.next postings e).registry.session? n =
      some ((w.actionOn postings n e).onSession w.registry.inboxLimit session) := by
  cases e with
  | register repo =>
      dsimp only [next]
      cases hregister : w.registry.register? repo with
      | none => exact h
      | some result =>
          have hlt : n < w.registry.sessions.length := (List.getElem?_eq_some_iff.1 h).1
          have hnumber := (SessionRegistry.register?_eq_some hregister).1
          dsimp only
          rw [SessionRegistry.session?_register hregister, if_neg (by omega), h]
          rfl
  | unregister id =>
      dsimp only [next, actionOn]
      rw [SessionRegistry.session?_unregister_eq, h, Option.map_some]
      split <;> rfl
  | get id => exact h
  | advance i =>
      dsimp only [next, actionOn]
      cases hprogress : w.progress i with
      | lookUp =>
          rw [if_neg (by simp)]
          exact h
      | done delivery =>
          rw [if_neg (by simp)]
          exact h
      | post number =>
          dsimp only
          rw [SessionRegistry.session?_post_eq, h, Option.map_some]
          by_cases hn : number = n
          · rw [if_pos hn, if_pos (congrArg _ hn)]
            rfl
          · rw [if_neg hn, if_neg (by simpa using hn)]
            rfl
  | receive number =>
      dsimp only [next, actionOn]
      rw [SessionRegistry.session?_receive, h, Option.map_some]
      split <;> rfl
  | dropInbox number =>
      dsimp only [next, actionOn]
      rw [SessionRegistry.session?_dropInbox, h, Option.map_some]
      split <;> rfl

/-- A session keeps its id and its repository, and is closed once it has been. -/
theorem Action.onSession_frame (limit : Nat) (a : Action) (s : Session) :
    (a.onSession limit s).id = s.id ∧ (a.onSession limit s).repo = s.repo ∧
      ((a.onSession limit s).closed = true ↔ s.closed = true ∨ a = .close) := by
  cases a with
  | rest => simp [onSession]
  | post request =>
      obtain ⟨hid, hrepo, hclosed⟩ := Session.post_frame limit request s
      exact ⟨hid, hrepo, by simp [onSession, hclosed]⟩
  | receive =>
      obtain ⟨hid, hrepo, hclosed⟩ := Session.receive_frame s
      exact ⟨hid, hrepo, by simp [onSession, hclosed]⟩
  | close => simp [onSession, Session.close]
  | dropInbox => simp [onSession, Session.dropInbox]

/-- The limits of a registry and the source of its ids stay as they are. -/
theorem limits_next (postings : Nat → Posting) (w : SharedSessions) (e : SessionEvent) :
    (w.next postings e).registry.limit = w.registry.limit ∧
      (w.next postings e).registry.inboxLimit = w.registry.inboxLimit ∧
      (w.next postings e).registry.ids = w.registry.ids := by
  cases e with
  | register repo =>
      dsimp only [next]
      cases hregister : w.registry.register? repo with
      | none => exact ⟨rfl, rfl, rfl⟩
      | some result =>
          unfold SessionRegistry.register? at hregister
          split at hregister
          · cases hregister
          · cases hregister
            exact ⟨rfl, rfl, rfl⟩
  | unregister id =>
      dsimp only [next, SessionRegistry.unregister]
      split <;> exact ⟨rfl, rfl, rfl⟩
  | get id => exact ⟨rfl, rfl, rfl⟩
  | advance i =>
      dsimp only [next]
      cases w.progress i with
      | lookUp => exact ⟨rfl, rfl, rfl⟩
      | done delivery => exact ⟨rfl, rfl, rfl⟩
      | post number =>
          obtain ⟨hlimit, hinbox, _⟩ :=
            SessionRegistry.post_frame w.registry number (postings i).request
          obtain ⟨hids, _⟩ :=
            SessionRegistry.post_keeps w.registry number (postings i).request
          exact ⟨hlimit, hinbox, hids⟩
  | receive number =>
      obtain ⟨hlimit, hinbox, _⟩ := SessionRegistry.receive_frame w.registry number
      obtain ⟨hids, _⟩ := SessionRegistry.receive_keeps w.registry number
      exact ⟨hlimit, hinbox, hids⟩
  | dropInbox number => exact ⟨rfl, rfl, rfl⟩

/-- They do so in a whole run. -/
theorem limits_run (postings : Nat → Posting) (w : SharedSessions) (events : List SessionEvent) :
    (w.run postings events).registry.limit = w.registry.limit ∧
      (w.run postings events).registry.inboxLimit = w.registry.inboxLimit ∧
      (w.run postings events).registry.ids = w.registry.ids := by
  refine run_keeps (fun w' => w'.registry.limit = w.registry.limit ∧
    w'.registry.inboxLimit = w.registry.inboxLimit ∧ w'.registry.ids = w.registry.ids) ?_
    ⟨rfl, rfl, rfl⟩ events
  intro w' e h
  obtain ⟨hlimit, hinbox, hids⟩ := limits_next postings w' e
  exact ⟨hlimit.trans h.1, hinbox.trans h.2.1, hids.trans h.2.2⟩

/-! ## Unregistering takes two locks -/

/-- The id of a session has been removed, and the session is not closed yet. -/
def forget (w : SharedSessions) (id : String) : SharedSessions :=
  { w with registry := w.registry.forget id }

/-- Whether an event needs no look at the ids, which are locked while a session is unregistered. -/
def IsUnlocked (w : SharedSessions) : SessionEvent → Prop
  | .receive _ | .dropInbox _ => True
  | .advance i => w.progress i ≠ .lookUp
  | .register _ | .unregister _ | .get _ => False

/-- An event that needs no look at the ids needs none behind another such event. -/
theorem isUnlocked_next {e e' : SessionEvent} (h : w.IsUnlocked e) (h' : w.IsUnlocked e') :
    (w.next postings e).IsUnlocked e' := by
  cases e' with
  | receive number => trivial
  | dropInbox number => trivial
  | register repo => cases h'
  | unregister id => cases h'
  | get id => cases h'
  | advance i =>
      cases e with
      | register repo => cases h
      | unregister id => cases h
      | get id => cases h
      | receive number => exact h'
      | dropInbox number => exact h'
      | advance j =>
          dsimp only [IsUnlocked, next] at h h' ⊢
          cases hprogress : w.progress j with
          | lookUp => exact absurd hprogress h
          | done delivery => exact h'
          | post number =>
              by_cases hij : i = j
              · simp [hij]
              · simpa [Function.update_of_ne hij] using h'

/-- An event that needs no look at the ids commutes with forgetting one, and registers nothing. -/
theorem next_forget (postings : Nat → Posting) {e : SessionEvent} (h : w.IsUnlocked e)
    (id : String) :
    (w.forget id).next postings e = (w.next postings e).forget id ∧
      (w.next postings e).registry.registered = w.registry.registered := by
  cases e with
  | register repo => cases h
  | unregister id => cases h
  | get id => cases h
  | dropInbox number => exact ⟨rfl, rfl⟩
  | receive number =>
      refine ⟨?_, (SessionRegistry.receive_frame w.registry number).2.2⟩
      dsimp only [next, forget]
      rw [SessionRegistry.receive_forget]
  | advance i =>
      dsimp only [IsUnlocked] at h
      dsimp only [next, forget]
      cases hprogress : w.progress i with
      | lookUp => exact absurd hprogress h
      | done delivery => exact ⟨rfl, rfl⟩
      | post number =>
          refine ⟨?_, (SessionRegistry.post_frame w.registry number (postings i).request).2.2⟩
          dsimp only
          rw [SessionRegistry.post_forget]

/-- **Unregistering may be interrupted.**  The id is removed under the lock of the registry, and the
session closed under a lock of its own.  Whatever can happen in between might as well have happened
before. -/
theorem unregister_interrupted (postings : Nat → Posting) {id : String}
    (hfind : w.registry.find? id = some n) {between : List SessionEvent}
    (hbetween : ∀ e ∈ between, w.IsUnlocked e) :
    let w' := (w.forget id).run postings between
    { w' with registry := w'.registry.shut n } =
      (w.run postings between).next postings (.unregister id) := by
  induction between generalizing w with
  | nil =>
      dsimp only [run, List.foldl_nil, next]
      rw [SessionRegistry.unregister_eq_shut hfind]
      rfl
  | cons e between ih =>
      rw [List.forall_mem_cons] at hbetween
      obtain ⟨hforget, hregistered⟩ := next_forget postings hbetween.1 id
      have hfind' : (w.next postings e).registry.find? id = some n := by
        rw [SessionRegistry.find?, hregistered]
        exact hfind
      rw [run_cons, run_cons, hforget]
      exact ih hfind' fun e' he' => isUnlocked_next hbetween.1 (hbetween.2 e' he')

/-! ## Ids lead to open sessions -/

/-- A step keeps the registered sessions those that are open. -/
theorem linked_next (h : w.registry.Linked) (e : SessionEvent) :
    (w.next postings e).registry.Linked := by
  cases e with
  | register repo =>
      dsimp only [next]
      cases hregister : w.registry.register? repo with
      | none => exact h
      | some result => exact h.register hregister
  | unregister id => exact h.unregister id
  | get id => exact h
  | advance i =>
      dsimp only [next]
      cases w.progress i with
      | lookUp => exact h
      | post number => exact h.post number (postings i).request
      | done delivery => exact h
  | receive number => exact h.receive number
  | dropInbox number => exact h.dropInbox number

/-- Any interleaving keeps the registered sessions those that are open. -/
theorem linked_run (h : w.registry.Linked) (events : List SessionEvent) :
    (w.run postings events).registry.Linked :=
  run_keeps (fun w => w.registry.Linked) (fun _ e hw => linked_next hw e) h events

/-- Only unregistering its id closes a session. -/
theorem actionOn_eq_close_iff (h : w.registry.Linked)
    (hsession : w.registry.session? n = some session) (e : SessionEvent) :
    w.actionOn postings n e = .close ↔ e = .unregister session.id ∧ session.closed = false := by
  cases e with
  | unregister id =>
      dsimp only [actionOn]
      rw [SessionEvent.unregister.injEq, ← h.find?_iff hsession]
      by_cases hfind : w.registry.find? id = some n
      · simp [hfind]
      · simp [hfind]
  | register repo => simp [actionOn]
  | get id => simp [actionOn]
  | advance i =>
      dsimp only [actionOn]
      split <;> simp
  | receive number =>
      dsimp only [actionOn]
      split <;> simp
  | dropInbox number =>
      dsimp only [actionOn]
      split <;> simp

/-- Once there is a session, it stays, and it is closed from the moment at which its id is
unregistered. -/
theorem session?_run (postings : Nat → Posting) (h : w.registry.Linked)
    (hsession : w.registry.session? n = some session) (events : List SessionEvent) :
    ∃ session', (w.run postings events).registry.session? n = some session' ∧
      session'.id = session.id ∧ session'.repo = session.repo ∧
      (session'.closed = true ↔ session.closed = true ∨ .unregister session.id ∈ events) := by
  induction events generalizing w session with
  | nil => exact ⟨session, hsession, rfl, rfl, by simp⟩
  | cons e events ih =>
      obtain ⟨hid, hrepo, hclosed⟩ := Action.onSession_frame w.registry.inboxLimit
        (w.actionOn postings n e) session
      obtain ⟨session', hsession', hid', hrepo', hclosed'⟩ :=
        ih (linked_next h e) (session?_next postings hsession e)
      refine ⟨session', hsession', hid'.trans hid, hrepo'.trans hrepo, ?_⟩
      rw [hclosed', hclosed, actionOn_eq_close_iff h hsession, hid, List.mem_cons,
        eq_comm (a := e)]
      cases session.closed with
      | true => simp
      | false => simp

/-- What a registry keeps to. -/
structure Governed (ids : IdGenerator) (limit : Nat) (postings : Nat → Posting) (w : SharedSessions) :
    Prop where
  size_le : w.registry.size ≤ limit
  /-- A session is refused at the limit only, and then nothing changes. -/
  refused : ∀ repo, (w.registry.register? repo = none ↔ w.registry.size = limit) ∧
    (w.registry.size = limit → w.next postings (.register repo) = w)
  /-- A session that is not refused is one more and open.  Its id is the first of the next draws that no
  registered session has. -/
  admitted : ∀ repo r number, w.registry.register? repo = some (r, number) →
    w.next postings (.register repo) = { w with registry := r } ∧ r.size = w.registry.size + 1 ∧
      w.registry.session? number = none ∧
      ∃ k, w.registry.drawn ≤ k ∧ r.drawn = k + 1 ∧
        (∀ j, w.registry.drawn ≤ j → j < k → (w.registry.find? (ids.draw j)).isSome = true) ∧
        w.registry.find? (ids.draw k) = none ∧
        r.session? number = some (.fresh (ids.draw k) repo) ∧
        (∀ id', r.find? id' = if id' = ids.draw k then some number else w.registry.find? id') ∧
        ∀ m, m ≠ number → r.session? m = w.registry.session? m
  /-- An id leads to the open session that has it, so the registered sessions are the open ones. -/
  found : ∀ id n, w.registry.find? id = some n ↔
    ∃ s, w.registry.session? n = some s ∧ s.id = id ∧ s.closed = false
  /-- Registered sessions have distinct ids. -/
  distinct : ∀ m n s s', w.registry.session? m = some s → w.registry.session? n = some s' →
    s.closed = false → s'.closed = false → s.id = s'.id → m = n
  /-- Unregistering the id of a session removes and closes that session and no other. -/
  removed : ∀ id n, w.registry.find? id = some n →
    ∃ r, w.next postings (.unregister id) = { w with registry := r } ∧
      r.size + 1 = w.registry.size ∧
      (∀ id', r.find? id' = if id' = id then none else w.registry.find? id') ∧
      ∀ m, r.session? m = (w.registry.session? m).map fun s => if m = n then s.close else s
  unknown : ∀ id, w.registry.find? id = none → w.next postings (.unregister id) = w
  /-- A session that has been removed stays closed, and no id leads to it any more; if no id is ever
  drawn twice, its id leads nowhere. -/
  for_ever : ∀ id n, w.registry.find? id = some n → ∀ later : List SessionEvent,
    let r := ((w.next postings (.unregister id)).run postings later).registry
    (∃ s, r.session? n = some s ∧ s.id = id ∧ s.closed = true) ∧ (∀ id', r.find? id' ≠ some n) ∧
      ((∀ i j, ids.draw i = ids.draw j → i = j) → r.find? id = none)

/-- The registered sessions being the open ones, everything follows from single steps. -/
theorem governed_of_linked (h : w.registry.Linked) (postings : Nat → Posting) :
    Governed w.registry.ids w.registry.limit postings w := by
  have hfound : ∀ id n, w.registry.find? id = some n ↔
      ∃ s, w.registry.session? n = some s ∧ s.id = id ∧ s.closed = false := by
    intro id n
    constructor
    · exact h.found id n
    · rintro ⟨s, hs, rfl, hopen⟩
      exact h.registered n s hs hopen
  constructor
  case size_le => exact h.size_le
  case refused =>
    intro repo
    have hfull : w.registry.register? repo = none ↔ w.registry.size = w.registry.limit := by
      have hle := h.size_le
      rw [SessionRegistry.register?_eq_none_iff]
      omega
    refine ⟨hfull, ?_⟩
    intro hsize
    dsimp only [next]
    rw [hfull.2 hsize]
  case admitted =>
    intro repo r number hregister
    obtain ⟨hnumber, ⟨_, hdrawn⟩, _⟩ := SessionRegistry.register?_eq_some hregister
    obtain ⟨hle, hfree, hbetween⟩ := SessionRegistry.nextDraw_spec w.registry
    refine ⟨?_, (SessionRegistry.size_register hregister).2.2, ?_, w.registry.nextDraw, hle, hdrawn,
      hbetween, hfree, ?_, SessionRegistry.find?_register hregister, ?_⟩
    · dsimp only [next]
      rw [hregister]
    · rw [hnumber]
      exact List.getElem?_eq_none (Nat.le_refl _)
    · rw [SessionRegistry.session?_register hregister, if_pos rfl]
      rfl
    · intro m hm
      rw [SessionRegistry.session?_register hregister, if_neg hm]
  case found => exact hfound
  case distinct =>
    intro m n s s' hs hs' hopen hopen' hid
    exact h.number_unique hs hs' hopen hopen' hid
  case removed =>
    intro id n hfind
    refine ⟨w.registry.unregister id, rfl, SessionRegistry.size_unregister hfind,
      SessionRegistry.find?_unregister w.registry id, ?_⟩
    intro m
    rw [SessionRegistry.session?_unregister_eq, hfind]
    simp only [Option.some.injEq, eq_comm (a := n)]
  case unknown =>
    intro id hfind
    dsimp only [next]
    rw [SessionRegistry.unregister_of_none hfind]
  case for_ever =>
    intro id n hfind later
    obtain ⟨session, hsession, rfl, _⟩ := h.found id n hfind
    have hlater : (w.run postings (.unregister session.id :: later)).registry.Linked :=
      linked_run h _
    obtain ⟨s, hs, hid, _, hclosed⟩ :=
      session?_run postings h hsession (.unregister session.id :: later)
    have hgone : s.closed = true := hclosed.2 (.inr List.mem_cons_self)
    have hunfound : ∀ id', (w.run postings (.unregister session.id :: later)).registry.find? id' ≠
        some n := by
      intro id' hfind'
      have hopen := ((hlater.find?_iff hs).1 hfind').2
      rw [hgone] at hopen
      cases hopen
    refine ⟨⟨s, hs, hid, hgone⟩, hunfound, ?_⟩
    intro hfresh
    obtain ⟨_, _, hids⟩ := limits_run postings w (.unregister session.id :: later)
    rw [← hids] at hfresh
    cases hfind' : (w.run postings (.unregister session.id :: later)).registry.find? session.id with
    | none => exact hfind'
    | some m =>
        obtain ⟨s', hs', hid', _⟩ := hlater.found _ m hfind'
        obtain rfl := hlater.number_unique_of_fresh hfresh hs' hs (hid'.trans hid.symm)
        exact absurd hfind' (hunfound session.id)

/-- **A registry is governed at every moment.**  Whoever registers, unregisters, looks up, posts,
receives or gives up a receiving end, and in whatever order. -/
theorem governed_run (ids : IdGenerator) (limit inboxLimit : Nat) (postings : Nat → Posting)
    (events : List SessionEvent) :
    Governed ids limit postings ((start ids limit inboxLimit).run postings events) := by
  have hlinked : ((start ids limit inboxLimit).run postings events).registry.Linked :=
    linked_run (SessionRegistry.linked_ofLimits ids limit inboxLimit) events
  obtain ⟨hlimit, _, hids⟩ := limits_run postings (start ids limit inboxLimit) events
  have hgoverned := governed_of_linked hlinked postings
  rwa [hlimit, hids] at hgoverned

/-- At the limit a session is refused, and a slot that becomes free is given away again. -/
example :
    let w := (start .hexadecimal 1 1).run (fun _ => ⟨"", ⟨.null, "ping", none⟩⟩)
      [.register "o/r", .register "o/s", .unregister (IdSupply.hexadecimal.id 0), .register "o/t"]
    w.registry.sessions.map (fun s => (s.repo, s.closed)) = [("o/r", true), ("o/t", false)] := by
  decide +kernel

/-- A generator that draws every id of a supply twice. -/
def twice (supply : IdSupply) : IdGenerator where
  draw n := supply.id (n / 2)
  patience taken _ := 2 * taken.length + 1
  escapes := by
    intro taken n
    obtain ⟨k, hk, hfree⟩ := supply.generator.escapes taken ((n + 1) / 2)
    refine ⟨2 * ((n + 1) / 2 + k) - n, ?_, ?_⟩
    · have hle : k ≤ taken.length := hk
      omega
    · have hhalf : (n + (2 * ((n + 1) / 2 + k) - n)) / 2 = (n + 1) / 2 + k := by omega
      rw [hhalf]
      exact hfree

/-- As long as an id is registered it is drawn in vain; afterwards it may come again, and then it leads to
another session. -/
example :
    let w := (start (twice .hexadecimal) 2 1).run (fun _ => ⟨"", ⟨.null, "ping", none⟩⟩)
      [.register "o/r", .register "o/s", .unregister (IdSupply.hexadecimal.id 1), .register "o/t"]
    w.registry.drawn = 4 ∧
      w.registry.sessions.map (fun s => (s.repo, s.closed)) =
        [("o/r", false), ("o/s", true), ("o/t", false)] ∧
      w.registry.find? (IdSupply.hexadecimal.id 0) = some 0 ∧
      w.registry.find? (IdSupply.hexadecimal.id 1) = some 2 := by
  decide +kernel

end SharedSessions

end RegistryGraph
