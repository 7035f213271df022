import RegistryGraph.Proofs.Session.Sharing

/-!
# What becomes of posted requests

The requests that a session has accepted are those that were received, those that wait, and those
that were lost when the receiving end was given up, in this order.  The session is found at one
moment and posted to at a later one, and may have been unregistered in between; then it refuses.

* `SharedSessions.Keeps.step`: one action keeps the ledger of a session.
* `SharedSessions.drained`: what is received from a session after it has been unregistered.
* `SharedSessions.conveys_run`: what who posts, and who receives, can rely on at every moment.
-/

namespace RegistryGraph

/-- The request that a look into an inbox has delivered. -/
def Receipt.request? : Receipt → Option Rpc.Request
  | .request r => some r
  | .empty | .disconnected => none

/-- The requests that looks into an inbox have delivered. -/
def Receipt.received (receipts : List Receipt) : List Rpc.Request := receipts.filterMap request?

/-- What is received adds up. -/
theorem Receipt.received_append (before after : List Receipt) :
    received (before ++ after) = received before ++ received after :=
  List.filterMap_append

namespace SharedSessions

/-! ## The ledger of a session -/

/-- What a session accepts by an action. -/
def Action.accepts (limit : Nat) : Action → Session → List Rpc.Request
  | .post request, s => if (s.post limit request).2 = .accepted then [request] else []
  | .rest, _ | .receive, _ | .close, _ | .dropInbox, _ => []

/-- What a look into the inbox delivers by an action. -/
def Action.delivers : Action → Session → List Receipt
  | .receive, s => s.receive.2.toList
  | .rest, _ | .post _, _ | .close, _ | .dropInbox, _ => []

/-- The accepted requests of a session are those that were received, those that wait, and those that
were lost, and none are lost while somebody can receive. -/
structure Keeps (limit : Nat) (accepted : List Rpc.Request) (receipts : List Receipt)
    (s : Session) : Prop where
  waiting_le : s.waiting.length ≤ limit
  in_order : ∃ lost, accepted = Receipt.received receipts ++ s.waiting ++ lost ∧
    (s.receiving = true → lost = [])

/-- A fresh session has accepted nothing and owes nothing. -/
theorem keeps_fresh (limit : Nat) (id repo : String) : Keeps limit [] [] (.fresh id repo) where
  waiting_le := Nat.zero_le limit
  in_order := ⟨[], rfl, fun _ => rfl⟩

/-- **One action.** -/
theorem Keeps.step {limit : Nat} {accepted : List Rpc.Request} {receipts : List Receipt}
    {s : Session} (h : Keeps limit accepted receipts s) (a : Action) :
    Keeps limit (accepted ++ a.accepts limit s) (receipts ++ a.delivers s)
      (a.onSession limit s) := by
  obtain ⟨hle, lost, haccepted, hlost⟩ := h
  cases a with
  | rest =>
      exact ⟨hle, lost, by
        simpa [Action.accepts, Action.delivers, Action.onSession] using haccepted, hlost⟩
  | close =>
      exact ⟨hle, lost, by
        simpa [Action.accepts, Action.delivers, Action.onSession, Session.close] using haccepted,
        hlost⟩
  | dropInbox =>
      -- What waited is lost.
      refine ⟨Nat.zero_le limit, s.waiting ++ lost, ?_, fun hreceiving => by cases hreceiving⟩
      simpa [Action.accepts, Action.delivers, Action.onSession, Session.dropInbox] using haccepted
  | post request =>
      dsimp only [Action.accepts, Action.delivers, Action.onSession]
      by_cases hanswer : (s.post limit request).2 = .accepted
      · obtain ⟨_, hreceiving, hroom⟩ := (Session.post_answer limit request s).2.2.1.1 hanswer
        rw [if_pos hanswer, Session.post_of_accepted hanswer]
        refine ⟨?_, [], ?_, fun _ => rfl⟩
        · rw [List.length_append, List.length_singleton]
          exact hroom
        · rw [haccepted, hlost hreceiving]
          simp
      · rw [if_neg hanswer, Session.post_of_refused hanswer]
        exact ⟨hle, lost, by simpa using haccepted, hlost⟩
  | receive =>
      dsimp only [Action.accepts, Action.delivers, Action.onSession, Session.receive]
      split
      next hreceiving =>
        cases hwaiting : s.waiting with
        | nil =>
            have hnone : Receipt.received [if s.closed then .disconnected else .empty] = [] := by
              split <;> rfl
            refine ⟨hle, lost, ?_, hlost⟩
            dsimp only [Option.toList_some]
            rw [haccepted, Receipt.received_append, hnone, List.append_nil, List.append_nil]
        | cons first rest =>
            have hfirst : Receipt.received [.request first] = [first] := rfl
            rw [hwaiting] at hle
            refine ⟨Nat.le_of_succ_le hle, lost, ?_, hlost⟩
            dsimp only [Option.toList_some]
            rw [haccepted, hwaiting, Receipt.received_append, hfirst]
            simp
      next =>
        exact ⟨hle, lost, by simpa using haccepted, hlost⟩

variable {postings : Nat → Posting} {w : SharedSessions} {n i : Nat} {session : Session}

/-- What one step writes down about a session. -/
theorem ledger_next (postings : Nat → Posting) (h : w.registry.session? n = some session)
    (e : SessionEvent) :
    (w.next postings e).accepted n =
        w.accepted n ++ (w.actionOn postings n e).accepts w.registry.inboxLimit session ∧
      (w.next postings e).receipts n =
        w.receipts n ++ (w.actionOn postings n e).delivers session := by
  cases e with
  | register repo =>
      dsimp only [next, actionOn]
      split <;> simp [Action.accepts, Action.delivers]
  | unregister id =>
      dsimp only [next, actionOn]
      split <;> simp [Action.accepts, Action.delivers]
  | get id => simp [next, actionOn, Action.accepts, Action.delivers]
  | dropInbox number =>
      dsimp only [next, actionOn]
      split <;> simp [Action.accepts, Action.delivers]
  | receive number =>
      dsimp only [next, actionOn]
      by_cases hn : number = n
      · subst hn
        rw [if_pos rfl, SessionRegistry.receive, h]
        simp [Action.accepts, Action.delivers]
      · rw [if_neg hn, Function.update_of_ne (Ne.symm hn)]
        simp [Action.accepts, Action.delivers]
  | advance i =>
      dsimp only [next, actionOn]
      cases w.progress i with
      | lookUp => simp [Action.accepts, Action.delivers]
      | done delivery => simp [Action.accepts, Action.delivers]
      | post number =>
          dsimp only
          by_cases hn : number = n
          · subst hn
            rw [if_pos rfl, SessionRegistry.post_of_session h]
            dsimp only [Action.accepts, Action.delivers]
            split <;> simp
          · have hother : PostingState.post number ≠ .post n := by simpa using hn
            rw [if_neg hother]
            split <;> simp [Action.accepts, Action.delivers, Function.update_of_ne (Ne.symm hn)]

/-- A session that does not exist yet has nothing in the ledger. -/
def LedgerHolds (w : SharedSessions) (n : Nat) : Prop :=
  match w.registry.session? n with
  | none => w.accepted n = [] ∧ w.receipts n = []
  | some s => Keeps w.registry.inboxLimit (w.accepted n) (w.receipts n) s

/-- Nothing is written down about a session that does not exist. -/
theorem ledger_next_of_none (postings : Nat → Posting) (h : w.registry.session? n = none)
    (e : SessionEvent) :
    (w.next postings e).accepted n = w.accepted n ∧
      (w.next postings e).receipts n = w.receipts n := by
  cases e with
  | register repo =>
      dsimp only [next]
      split <;> exact ⟨rfl, rfl⟩
  | unregister id => exact ⟨rfl, rfl⟩
  | get id => exact ⟨rfl, rfl⟩
  | dropInbox number => exact ⟨rfl, rfl⟩
  | receive number =>
      refine ⟨rfl, ?_⟩
      dsimp only [next]
      by_cases hn : number = n
      · subst hn
        rw [SessionRegistry.receive, h]
        simp
      · rw [Function.update_of_ne (Ne.symm hn)]
  | advance i =>
      dsimp only [next]
      cases w.progress i with
      | lookUp => exact ⟨rfl, rfl⟩
      | done delivery => exact ⟨rfl, rfl⟩
      | post number =>
          refine ⟨?_, rfl⟩
          dsimp only
          by_cases hn : number = n
          · subst hn
            rw [SessionRegistry.post, h]
            rfl
          · split
            · rw [Function.update_of_ne (Ne.symm hn)]
            · rfl

/-- A session that comes into being is fresh. -/
theorem session?_next_of_none (postings : Nat → Posting) (h : w.registry.session? n = none)
    (e : SessionEvent) :
    (w.next postings e).registry.session? n = none ∨
      ∃ id repo, (w.next postings e).registry.session? n = some (.fresh id repo) := by
  cases e with
  | register repo =>
      dsimp only [next]
      cases hregister : w.registry.register? repo with
      | none => exact .inl h
      | some result =>
          dsimp only
          rw [SessionRegistry.session?_register hregister]
          split
          · exact .inr ⟨_, _, rfl⟩
          · exact .inl h
  | unregister id =>
      left
      dsimp only [next]
      rw [SessionRegistry.session?_unregister_eq, h, Option.map_none]
  | get id => exact .inl h
  | advance i =>
      left
      dsimp only [next]
      cases w.progress i with
      | lookUp => exact h
      | done delivery => exact h
      | post number =>
          dsimp only
          rw [SessionRegistry.session?_post_eq, h, Option.map_none]
  | receive number =>
      left
      dsimp only [next]
      rw [SessionRegistry.session?_receive, h, Option.map_none]
  | dropInbox number =>
      left
      dsimp only [next]
      rw [SessionRegistry.session?_dropInbox, h, Option.map_none]

/-- A step keeps the ledger of a session. -/
theorem ledgerHolds_next (h : w.LedgerHolds n) (e : SessionEvent) :
    (w.next postings e).LedgerHolds n := by
  have hlimit : (w.next postings e).registry.inboxLimit = w.registry.inboxLimit :=
    (limits_next postings w e).2.1
  unfold LedgerHolds at h ⊢
  cases hsession : w.registry.session? n with
  | none =>
      rw [hsession] at h
      obtain ⟨haccepted, hreceipts⟩ := ledger_next_of_none postings hsession e
      rcases session?_next_of_none postings hsession e with hnone | ⟨id, repo, hfresh⟩
      · rw [hnone, haccepted, hreceipts]
        exact h
      · rw [hfresh, haccepted, hreceipts, h.1, h.2]
        exact keeps_fresh _ id repo
  | some session =>
      rw [hsession] at h
      obtain ⟨haccepted, hreceipts⟩ := ledger_next postings hsession e
      rw [session?_next postings hsession e, haccepted, hreceipts, hlimit]
      exact h.step (w.actionOn postings n e)

/-- **Any interleaving** keeps the ledger of a session. -/
theorem ledgerHolds_run (h : w.LedgerHolds n) (events : List SessionEvent) :
    (w.run postings events).LedgerHolds n :=
  run_keeps (fun w => w.LedgerHolds n) (fun _ e hw => ledgerHolds_next hw e) h events

/-! ## Posting to a session that was found earlier -/

/-- A posting gets on only by its own steps. -/
theorem progress_next {e : SessionEvent} (h : e ≠ .advance i) :
    (w.next postings e).progress i = w.progress i := by
  cases e with
  | register repo =>
      dsimp only [next]
      split <;> rfl
  | unregister id => rfl
  | get id => rfl
  | receive number => rfl
  | dropInbox number => rfl
  | advance j =>
      have hij : i ≠ j := by
        rintro rfl
        exact h rfl
      dsimp only [next]
      cases w.progress j with
      | lookUp => exact Function.update_of_ne hij ..
      | post number => exact Function.update_of_ne hij ..
      | done delivery => rfl

/-- A posting that takes no step stays where it is. -/
theorem progress_run {events : List SessionEvent} (h : .advance i ∉ events) :
    (w.run postings events).progress i = w.progress i := by
  induction events generalizing w with
  | nil => rfl
  | cons e events ih =>
      rw [List.mem_cons, not_or] at h
      exact (ih h.2).trans (progress_next (Ne.symm h.1))

/-- Who has found a session has found one with the id that was asked for. -/
def Handles (postings : Nat → Posting) (w : SharedSessions) : Prop :=
  ∀ i n, w.progress i = .post n →
    ∃ s, w.registry.session? n = some s ∧ s.id = (postings i).id

/-- A step keeps every handle on the session that it was found under. -/
theorem handles_next (hlinked : w.registry.Linked) (h : w.Handles postings) (e : SessionEvent) :
    (w.next postings e).Handles postings := by
  -- What was found is still there.
  have hkept : ∀ i n, w.progress i = .post n →
      ∃ s, (w.next postings e).registry.session? n = some s ∧ s.id = (postings i).id := by
    intro i n hprogress
    obtain ⟨s, hs, hid⟩ := h i n hprogress
    exact ⟨_, session?_next postings hs e, (Action.onSession_frame _ _ s).1.trans hid⟩
  intro i n hprogress
  by_cases he : e = .advance i
  · subst he
    cases hbefore : w.progress i with
    | post m =>
        simp [next, hbefore] at hprogress
    | done delivery =>
        simp [next, hbefore] at hprogress
    | lookUp =>
        dsimp only [next] at hprogress ⊢
        rw [hbefore] at hprogress ⊢
        dsimp only at hprogress ⊢
        rw [Function.update_self] at hprogress
        cases hfind : w.registry.find? (postings i).id with
        | none =>
            rw [hfind] at hprogress
            cases hprogress
        | some m =>
            rw [hfind] at hprogress
            cases hprogress
            obtain ⟨s, hs, hid, _⟩ := hlinked.found _ _ hfind
            exact ⟨s, hs, hid⟩
  · rw [progress_next he] at hprogress
    exact hkept i n hprogress

/-- Any interleaving keeps every handle on the session that it was found under. -/
theorem handles_run (hlinked : w.registry.Linked) (h : w.Handles postings)
    (events : List SessionEvent) : (w.run postings events).Handles postings := by
  have hboth : (w.run postings events).registry.Linked ∧ (w.run postings events).Handles postings :=
    run_keeps (fun w => w.registry.Linked ∧ w.Handles postings)
      (fun _ e hw => ⟨linked_next hw.1 e, handles_next hw.1 hw.2 e⟩) ⟨hlinked, h⟩ events
  exact hboth.2

/-! ## Receiving after the session has been unregistered -/

/-- Only receiving from a session receives from it. -/
theorem actionOn_eq_receive_iff (e : SessionEvent) :
    w.actionOn postings n e = .receive ↔ e = .receive n := by
  cases e with
  | register repo => simp [actionOn]
  | get id => simp [actionOn]
  | unregister id =>
      dsimp only [actionOn]
      split <;> simp
  | advance i =>
      dsimp only [actionOn]
      split <;> simp
  | receive number =>
      dsimp only [actionOn]
      split <;> simp_all
  | dropInbox number =>
      dsimp only [actionOn]
      split <;> simp

/-- Only giving up a session's receiving end gives it up. -/
theorem actionOn_eq_dropInbox_iff (e : SessionEvent) :
    w.actionOn postings n e = .dropInbox ↔ e = .dropInbox n := by
  cases e with
  | register repo => simp [actionOn]
  | get id => simp [actionOn]
  | unregister id =>
      dsimp only [actionOn]
      split <;> simp
  | advance i =>
      dsimp only [actionOn]
      split <;> simp
  | receive number =>
      dsimp only [actionOn]
      split <;> simp
  | dropInbox number =>
      dsimp only [actionOn]
      split <;> simp_all

/-- A closed session accepts nothing. -/
theorem Action.accepts_of_closed {s : Session} (h : s.closed = true) (limit : Nat) (a : Action) :
    a.accepts limit s = [] := by
  cases a with
  | post request =>
      have hanswer : (s.post limit request).2 = .closed := by simp [Session.post, h]
      rw [accepts, hanswer, if_neg (by decide)]
  | rest | receive | close | dropInbox => rfl

/-- A closed session accepts nothing any more. -/
theorem accepted_run_of_closed (hsession : w.registry.session? n = some session)
    (hclosed : session.closed = true) (events : List SessionEvent) :
    (w.run postings events).accepted n = w.accepted n := by
  induction events generalizing w session with
  | nil => rfl
  | cons e events ih =>
      have hstill :
          ((w.actionOn postings n e).onSession w.registry.inboxLimit session).closed = true :=
        (Action.onSession_frame _ _ session).2.2.2 (.inl hclosed)
      rw [run_cons, ih (session?_next postings hsession e) hstill,
        (ledger_next postings hsession e).1, Action.accepts_of_closed hclosed, List.append_nil]

/-- Only receiving, and giving up the receiving end, changes a closed session. -/
theorem Action.onSession_of_closed {s : Session} (h : s.closed = true) (limit : Nat) {a : Action}
    (hreceive : a ≠ .receive) (hdrop : a ≠ .dropInbox) :
    a.onSession limit s = s ∧ a.delivers s = [] := by
  cases a with
  | rest => exact ⟨rfl, rfl⟩
  | post request => exact ⟨by simp [onSession, Session.post, h], rfl⟩
  | receive => exact absurd rfl hreceive
  | close => exact ⟨by rw [onSession, Session.close, ← h], rfl⟩
  | dropInbox => exact absurd rfl hdrop

/-- Looking `k` times into the inbox of a closed session delivers what waits, and then that nothing
can come any more. -/
theorem drained (hsession : w.registry.session? n = some session) (hclosed : session.closed = true)
    (hreceiving : session.receiving = true) {events : List SessionEvent}
    (hkept : .dropInbox n ∉ events) :
    (w.run postings events).receipts n = w.receipts n ++
      ((session.waiting.take (events.count (.receive n))).map .request ++
        List.replicate (events.count (.receive n) - session.waiting.length) .disconnected) := by
  induction events generalizing w session with
  | nil => simp
  | cons e events ih =>
      rw [List.mem_cons, not_or] at hkept
      have hnext := session?_next postings hsession e
      have hreceipts := (ledger_next postings hsession e).2
      by_cases he : e = .receive n
      · rw [(actionOn_eq_receive_iff e).2 he] at hnext hreceipts
        rw [he, List.count_cons_self, run_cons]
        rw [he] at hnext hreceipts
        dsimp only [Action.onSession, Action.delivers, Session.receive] at hnext hreceipts
        rw [if_pos hreceiving] at hnext hreceipts
        cases hwaiting : session.waiting with
        | nil =>
            rw [hwaiting, hclosed] at hreceipts
            rw [hwaiting] at hnext
            dsimp only at hnext
            rw [ih hnext hclosed hreceiving hkept.2, hreceipts, hwaiting]
            simp [List.replicate_succ]
        | cons first rest =>
            rw [hwaiting] at hnext hreceipts
            dsimp only at hnext hreceipts
            rw [ih hnext hclosed hreceiving hkept.2, hreceipts]
            simp
      · have hreceive : w.actionOn postings n e ≠ .receive := mt (actionOn_eq_receive_iff e).1 he
        have hdrop : w.actionOn postings n e ≠ .dropInbox :=
          mt (actionOn_eq_dropInbox_iff e).1 (Ne.symm hkept.1)
        obtain ⟨hsame, hnothing⟩ :=
          Action.onSession_of_closed hclosed w.registry.inboxLimit hreceive hdrop
        rw [hsame] at hnext
        rw [hnothing, List.append_nil] at hreceipts
        rw [run_cons, ih hnext hclosed hreceiving hkept.2, hreceipts,
          List.count_cons_of_ne he]

/-! ## What can be relied on -/

/-- What who posts, and who receives, can rely on, where an inbox has room for `limit` requests. -/
structure Conveys (limit : Nat) (postings : Nat → Posting) (w : SharedSessions) : Prop where
  /-- Requests are received in the order in which they were accepted, each of them once. -/
  in_order : ∀ n, Receipt.received (w.receipts n) <+: w.accepted n
  /-- What was accepted and has not been received waits, while somebody can receive. -/
  waiting : ∀ n s, w.registry.session? n = some s → s.waiting.length ≤ limit ∧
    (s.receiving = true → w.accepted n = Receipt.received (w.receipts n) ++ s.waiting)
  /-- Looking a session up changes nothing else, and only who finds none is told so. -/
  looked_up : ∀ i, w.progress i = .lookUp →
    ∃ found,
      w.next postings (.advance i) = { w with progress := Function.update w.progress i found } ∧
      (found = .done .notFound ∧ w.registry.find? (postings i).id = none ∨
        ∃ n, found = .post n ∧ w.registry.find? (postings i).id = some n)
  /-- Whether a session that was found is closed depends on what has happened since. -/
  closed_since : ∀ i n, w.progress i = .lookUp → w.registry.find? (postings i).id = some n →
    ∀ between : List SessionEvent, .advance i ∉ between →
      let w' := (w.next postings (.advance i)).run postings between
      w'.progress i = .post n ∧ ∃ s, w'.registry.session? n = some s ∧
        (s.closed = true ↔ .unregister (postings i).id ∈ between)
  /-- What is answered, and what an accepted request and a refused one do. -/
  answered : ∀ i n, w.progress i = .post n →
    ∃ s delivery, w.registry.session? n = some s ∧ s.id = (postings i).id ∧
      (w.next postings (.advance i)).progress i = .done delivery ∧
      (delivery = .closed ↔ s.closed = true ∨ s.receiving = false) ∧
      (delivery = .full ↔ s.closed = false ∧ s.receiving = true ∧ s.waiting.length = limit) ∧
      (delivery = .accepted ↔ s.closed = false ∧ s.receiving = true ∧ s.waiting.length < limit) ∧
      delivery ≠ .notFound ∧
      w.next postings (.advance i) =
        if delivery = .accepted then
          { w with
            registry := w.registry.replace n
              { s with waiting := s.waiting ++ [(postings i).request] }
            progress := Function.update w.progress i (.done delivery)
            accepted := Function.update w.accepted n (w.accepted n ++ [(postings i).request]) }
        else { w with progress := Function.update w.progress i (.done delivery) }
  /-- A session that is unregistered accepts nothing any more.  What it has accepted can still be
  received, and after that it is told that nothing can come. -/
  unregistered : ∀ id n s, w.registry.find? id = some n → w.registry.session? n = some s →
    ∀ later : List SessionEvent,
      let w' := (w.next postings (.unregister id)).run postings later
      w'.accepted n = w.accepted n ∧
      (∀ i, w'.progress i = .post n →
        (w'.next postings (.advance i)).progress i = .done .closed) ∧
      (s.receiving = true → .dropInbox n ∉ later →
        let looks := later.count (.receive n)
        w'.receipts n = w.receipts n ++ ((s.waiting.take looks).map .request ++
          List.replicate (looks - s.waiting.length) .disconnected))

/-- A locked send posts to the session that was found, and writes down what it accepts. -/
theorem next_of_post (hprogress : w.progress i = .post n)
    (hsession : w.registry.session? n = some session) :
    let delivery := (session.post w.registry.inboxLimit (postings i).request).2
    w.next postings (.advance i) =
      if delivery = .accepted then
        { w with
          registry := w.registry.replace n
            { session with waiting := session.waiting ++ [(postings i).request] }
          progress := Function.update w.progress i (.done delivery)
          accepted := Function.update w.accepted n (w.accepted n ++ [(postings i).request]) }
      else { w with progress := Function.update w.progress i (.done delivery) } := by
  dsimp only [next]
  rw [hprogress]
  dsimp only
  rw [SessionRegistry.post_of_session hsession]
  dsimp only
  by_cases haccepted : (session.post w.registry.inboxLimit (postings i).request).2 = .accepted
  · rw [if_pos haccepted, if_pos haccepted, Session.post_of_accepted haccepted]
  · rw [if_neg haccepted, if_neg haccepted, Session.post_of_refused haccepted,
      SessionRegistry.replace_eq_self hsession]

/-- A locked send ends with what the session answers. -/
theorem progress_of_post (hprogress : w.progress i = .post n)
    (hsession : w.registry.session? n = some session) :
    (w.next postings (.advance i)).progress i =
      .done (session.post w.registry.inboxLimit (postings i).request).2 := by
  rw [next_of_post hprogress hsession]
  split <;> exact Function.update_self ..

/-- Where ledgers and handles hold, requests are conveyed. -/
theorem conveys_of_ledger (hlinked : w.registry.Linked) (hhandles : w.Handles postings)
    (hledger : ∀ n, w.LedgerHolds n) : Conveys w.registry.inboxLimit postings w := by
  have hkeeps : ∀ n s, w.registry.session? n = some s →
      Keeps w.registry.inboxLimit (w.accepted n) (w.receipts n) s := by
    intro n s hs
    have hholds := hledger n
    unfold LedgerHolds at hholds
    rwa [hs] at hholds
  constructor
  case in_order =>
    intro n
    have hholds := hledger n
    unfold LedgerHolds at hholds
    cases hsession : w.registry.session? n with
    | none =>
        rw [hsession] at hholds
        rw [hholds.1, hholds.2]
        exact List.prefix_rfl
    | some s =>
        obtain ⟨lost, haccepted, _⟩ := (hkeeps n s hsession).in_order
        rw [haccepted, List.append_assoc]
        exact List.prefix_append ..
  case waiting =>
    intro n s hs
    obtain ⟨hle, lost, haccepted, hlost⟩ := hkeeps n s hs
    refine ⟨hle, ?_⟩
    intro hreceiving
    rw [haccepted, hlost hreceiving, List.append_nil]
  case looked_up =>
    intro i hprogress
    dsimp only [next]
    rw [hprogress]
    dsimp only
    cases hfind : w.registry.find? (postings i).id with
    | none => exact ⟨_, rfl, .inl ⟨rfl, rfl⟩⟩
    | some n => exact ⟨_, rfl, .inr ⟨n, rfl, rfl⟩⟩
  case closed_since =>
    intro i n hprogress hfind between hbetween
    have hfound : (w.next postings (.advance i)).progress i = .post n := by
      dsimp only [next]
      rw [hprogress]
      dsimp only
      rw [hfind, Function.update_self]
    obtain ⟨session, hsession, hid, hopen⟩ := hlinked.found _ n hfind
    obtain ⟨s, hs, _, _, hclosed⟩ :=
      session?_run postings hlinked hsession (.advance i :: between)
    refine ⟨(progress_run hbetween).trans hfound, s, hs, ?_⟩
    rw [hclosed, hopen, hid, List.mem_cons]
    simp
  case answered =>
    intro i n hprogress
    obtain ⟨s, hs, hid⟩ := hhandles i n hprogress
    obtain ⟨hclosed, hfull, haccepted, hfound⟩ :=
      Session.post_answer w.registry.inboxLimit (postings i).request s
    have hle := (hkeeps n s hs).waiting_le
    refine ⟨s, _, hs, hid, progress_of_post hprogress hs, hclosed, ?_, haccepted, hfound,
      next_of_post hprogress hs⟩
    rw [hfull]
    have hexact : w.registry.inboxLimit ≤ s.waiting.length ↔
        s.waiting.length = w.registry.inboxLimit := by omega
    rw [hexact]
  case unregistered =>
    intro id n s hfind hs later
    have hclosed : (w.next postings (.unregister id)).registry.session? n = some s.close := by
      dsimp only [next]
      rw [SessionRegistry.session?_unregister_eq, hs, Option.map_some, if_pos hfind]
    refine ⟨accepted_run_of_closed hclosed rfl later, ?_, ?_⟩
    · intro i hprogress
      obtain ⟨s', hs', _, _, hclosed'⟩ :=
        session?_run postings (linked_next hlinked (.unregister id)) hclosed later
      have hanswer := (Session.post_answer
        ((w.next postings (.unregister id)).run postings later).registry.inboxLimit
        (postings i).request s').1.2 (.inl (hclosed'.2 (.inl rfl)))
      rw [progress_of_post hprogress hs', hanswer]
    · intro hreceiving hkept
      exact drained hclosed rfl hreceiving hkept

/-- **Whoever posts and receives can rely on it at every moment**, whatever else happens, and in
whatever order. -/
theorem conveys_run (ids : IdGenerator) (limit inboxLimit : Nat) (postings : Nat → Posting)
    (events : List SessionEvent) :
    Conveys (max inboxLimit 1) postings ((start ids limit inboxLimit).run postings events) := by
  have hlinked : (start ids limit inboxLimit).registry.Linked :=
    SessionRegistry.linked_ofLimits ids limit inboxLimit
  have hhandles : (start ids limit inboxLimit).Handles postings := by
    intro i n hprogress
    cases hprogress
  have hledger : ∀ n, (start ids limit inboxLimit).LedgerHolds n := fun n => ⟨rfl, rfl⟩
  have hlimit : ((start ids limit inboxLimit).run postings events).registry.inboxLimit =
      max inboxLimit 1 := (limits_run postings (start ids limit inboxLimit) events).2.1
  have hconveys := conveys_of_ledger (linked_run hlinked events)
    (handles_run hlinked hhandles events) fun n => ledgerHolds_run (hledger n) events
  rwa [hlimit] at hconveys

/-- The first request is accepted, the second finds the inbox full, and the third comes too late
although its session was found in time. -/
example :
    let id := IdSupply.hexadecimal.id 0
    let w := (start .hexadecimal 1 0).run (fun _ => ⟨id, ⟨.null, "ping", none⟩⟩)
      [.register "o/r", .advance 0, .advance 0, .advance 1, .advance 1, .advance 2, .unregister id,
        .advance 2, .advance 3]
    [0, 1, 2, 3].map w.progress =
      [.done .accepted, .done .full, .done .closed, .done .notFound] := by
  decide +kernel

end SharedSessions

end RegistryGraph
