import RegistryGraph.Proofs.Service.Delivery
import RegistryGraph.Proofs.Service.Ledger

/-!
# Places in the registry

A service has a limited number of places for sessions.  However requests, clients and loops get in one
another's way, no place is lost: when the loops of the streams that were left or unregistered have ended,
there are as many sessions as streams that are still there.

* `Ledger.Fits.openNumbers_eq`: which sessions are open can be read off the ledger.
* `Service.exists_end`: a loop whose client is gone, or whose session is closed, can come to its end.
* `Occupancy.accounted_run`: no place is lost, and nobody is turned away while there is one.
-/

namespace RegistryGraph

namespace Ledger

variable {o : Ledger} {s : Service} {n : Nat}

/-- The streams that were left, but not unregistered, and whose loops have not ended. -/
def departing (o : Ledger) (s : Service) : Finset Nat :=
  (o.left \ o.unregistered).filter fun n => !s.hasEnded n

/-- **Which sessions are open** can be read off the ledger. -/
theorem Fits.mem_openNumbers_iff (h : o.Fits s) (hsound : s.Sound) :
    n ∈ s.sessions.openNumbers ↔
      n ∈ o.opened ∧ n ∉ o.unregistered ∧ s.hasEnded n = false := by
  rw [SessionRegistry.mem_openNumbers_iff, h.opened_eq, Finset.mem_range]
  have hclosed_iff : ∀ {stream session}, s.Shows n stream session →
      (session.closed = false ↔ n ∉ o.unregistered ∧ s.hasEnded n = false) := by
    intro stream session hshows
    have hended : s.hasEnded n = stream.hasEnded := by rw [Service.hasEnded, hshows.1, Option.any_some]
    rw [hended, ← Bool.not_eq_true, (h.tells n stream session hshows).closed_iff, not_or,
      Bool.not_eq_true]
  constructor
  · rintro ⟨session, hsession, hopen⟩
    have hlt : n < s.streams.length := hsound.length_eq ▸ (List.getElem?_eq_some_iff.1 hsession).1
    exact ⟨hlt, (hclosed_iff ⟨List.getElem?_eq_getElem hlt, hsession⟩).1 hopen⟩
  · rintro ⟨hlt, hrest⟩
    obtain ⟨session, hshows⟩ := hsound.exists_shows (List.getElem?_eq_getElem hlt)
    exact ⟨session, hshows.2, (hclosed_iff hshows).2 hrest⟩

/-- A stream whose loop has ended was left or unregistered. -/
theorem Fits.mem_gone (h : o.Fits s) (hsound : s.Sound) (hended : s.hasEnded n = true) :
    n ∈ o.gone := by
  rw [Service.hasEnded, Option.any_eq_true] at hended
  obtain ⟨stream, hstream, hended⟩ := hended
  obtain ⟨session, hshows⟩ := hsound.exists_shows hstream
  exact Finset.mem_union.2 ((h.tells n stream session hshows).of_ended hended)

/-- **The open sessions** are those of the streams that are present, and of those that were left and are
about to end. -/
theorem Fits.openNumbers_eq (h : o.Fits s) (hsound : s.Sound) :
    s.sessions.openNumbers = o.present ∪ o.departing s := by
  ext n
  rw [h.mem_openNumbers_iff hsound, present, gone, departing, Finset.mem_union, Finset.mem_sdiff,
    Finset.mem_union, Finset.mem_filter, Finset.mem_sdiff, Bool.not_eq_true']
  constructor
  · rintro ⟨hopened, hregistered, hserves⟩
    by_cases hleft : n ∈ o.left
    · exact .inr ⟨⟨hleft, hregistered⟩, hserves⟩
    · exact .inl ⟨hopened, not_or.2 ⟨hleft, hregistered⟩⟩
  · rintro (⟨hopened, hstays⟩ | ⟨⟨hleft, hregistered⟩, hserves⟩)
    · refine ⟨hopened, fun hgone => hstays (.inr hgone), ?_⟩
      rw [Bool.eq_false_iff]
      exact fun hended => hstays (Finset.mem_union.1 (h.mem_gone hsound hended))
    · exact ⟨h.left_subset hleft, hregistered, hserves⟩

/-- A stream that departs is not present. -/
theorem disjoint_departing (o : Ledger) (s : Service) : Disjoint o.present (o.departing s) := by
  rw [Finset.disjoint_left]
  intro n hpresent hdeparting
  have hleft := (Finset.mem_sdiff.1 (Finset.mem_filter.1 hdeparting).1).1
  exact (Finset.mem_sdiff.1 hpresent).2 (Finset.mem_union_left _ hleft)

/-- What a loop and its client do is not in the ledger. -/
theorem after_of_isOwn {e : ServiceEvent} (o : Ledger) (s : Service) (h : Service.IsOwn n e) :
    o.after s e = o := by
  rcases h with rfl | ⟨uptime, step, rfl⟩ <;> rfl

end Ledger

/-! ## The end of a loop -/

/-- A loop that has ended does nothing any more. -/
theorem StreamStep.hasEnded {stream stream' : EventStream} {session session' : Session}
    {accepted : List Rpc.Request} {taken : List Event}
    (h : StreamStep stream session accepted taken stream' session') (hended : stream.hasEnded = true) :
    stream'.hasEnded = true := by
  have himpossible : ∀ {phase : StreamPhase}, stream.phase = phase → phase.isEnded = true :=
    fun hphase => (EventStream.hasEnded_of_eq hphase).symm.trans hended
  cases h with
  | announce hannouncing => cases himpossible hannouncing
  | answer hserving => cases himpossible hserving
  | tick hserving => cases himpossible hserving
  | send hsending => cases himpossible hsending
  | finish => rfl
  | _ => exact hended

namespace Service

variable {s : Service} {n : Nat} {stream : EventStream} {session : Session}

/-- A loop that has ended does not start again. -/
theorem hasEnded_after (hsound : s.Sound) (h : s.hasEnded n = true) (e : ServiceEvent) :
    (s.after e).hasEnded n = true := by
  rw [hasEnded, Option.any_eq_true] at h
  obtain ⟨stream, hstream, hended⟩ := h
  obtain ⟨session, hshows⟩ := hsound.exists_shows hstream
  obtain ⟨stream', session', hshows', hstep⟩ := streamStep_after hsound hshows e
  rw [hasEnded, hshows'.1, Option.any_some]
  exact hstep.hasEnded hended

/-- Whatever happens, a loop that has ended does not start again. -/
theorem hasEnded_run (hsound : s.Sound) (h : s.hasEnded n = true) (events : List ServiceEvent) :
    (s.run events).hasEnded n = true := by
  induction events generalizing s with
  | nil => exact h
  | cons e rest ih => exact ih (hsound.after e) (hasEnded_after hsound h e)

/-- A loop whose client is gone can end at once, unless it has not even begun. -/
theorem hasEnded_close (hshows : s.Shows n stream session) (hgone : stream.connected = false)
    (hbegun : stream.phase ≠ .announcing) : (s.after (.loop n 0 .close)).hasEnded n = true := by
  have hlt := (List.getElem?_eq_some_iff.1 hshows.1).1
  cases hphase : stream.phase with
  | announcing => exact absurd hphase hbegun
  | ended =>
      have hstep : s.loopStep? 0 n .close = none := by
        rw [loopStep?, hshows.1, Option.bind_some, hphase]
        rfl
      rw [after, hstep, Option.getD_none, hasEnded, hshows.1, Option.any_some]
      exact EventStream.hasEnded_of_eq hphase
  | serving | sending =>
      have hstep : s.loopStep? 0 n .close = some
          ({ s with sessions := s.sessions.unregister stream.id }.setStream n
            { stream with phase := .ended }) := by
        rw [loopStep?, hshows.1, Option.bind_some, hphase]
        simp [hgone]
      rw [after, hstep, Option.getD_some, hasEnded, setStream, List.getElem?_set_self hlt]
      rfl

/-- **A loop can come to its end** if its client is gone or its session is closed; the loop and the client
need nobody else for it. -/
theorem exists_end (hsound : s.Sound) (hshows : s.Shows n stream session)
    (h : stream.connected = false ∨ session.closed = true) :
    ∃ more, (∀ e ∈ more, IsOwn n e) ∧ (s.run more).hasEnded n = true := by
  cases hconnected : stream.connected with
  | true =>
      have hclosed : session.closed = true := by
        refine h.resolve_left ?_
        rw [hconnected]
        exact Bool.false_ne_true.symm
      obtain ⟨more, stream', session', hown, hshows', _, hended⟩ :=
        exists_finish hsound hshows hconnected hclosed
      refine ⟨more, hown, ?_⟩
      rw [hasEnded, hshows'.1, Option.any_some]
      exact EventStream.hasEnded_of_eq hended
  | false =>
      have hown : ∀ step, IsOwn n (.loop n 0 step) := fun step => .inr ⟨0, step, rfl⟩
      by_cases hphase : stream.phase = .announcing
      · have hstep : s.after (.loop n 0 .announce) =
            s.setStream n { stream with phase := .sending (.endpoint stream.address) } := by
          rw [after, loopStep?, hshows.1, Option.bind_some, hphase]
          rfl
        have hshows' := hshows.of_setStream hstep rfl hshows.2
        have hbegun : StreamPhase.sending (.endpoint stream.address) ≠ .announcing := by
          intro hsame
          cases hsame
        exact ⟨[.loop n 0 .announce, .loop n 0 .close], by simp [hown],
          hasEnded_close hshows' hconnected hbegun⟩
      · exact ⟨[.loop n 0 .close], by simp [hown], hasEnded_close hshows hconnected hphase⟩

end Service

/-- A stream that was left or unregistered can come to its end. -/
theorem Ledger.Fits.exists_end {o : Ledger} {s : Service} {n : Nat} (h : o.Fits s) (hsound : s.Sound)
    (hgone : n ∈ o.gone) :
    ∃ more, (∀ e ∈ more, Service.IsOwn n e) ∧ (s.run more).hasEnded n = true := by
  have hlt : n < s.streams.length := by
    rw [← Finset.mem_range, ← h.opened_eq]
    exact Finset.union_subset h.left_subset h.unregistered_subset hgone
  obtain ⟨session, hshows⟩ := hsound.exists_shows (List.getElem?_eq_getElem hlt)
  have htells := h.tells n _ session hshows
  refine Service.exists_end hsound hshows ?_
  rcases Finset.mem_union.1 hgone with hleft | hunregistered
  · exact .inl (htells.gone_iff.2 hleft)
  · exact .inr (htells.closed_iff.2 (.inl hunregistered))

/-! ## Turned away or let in -/

section

variable {s : Service} {t : FileTree} {uptime : Nat} {r : HttpRequest} {name : RepoName}
  {context : ToolContext}

/-- A request for the events of a repository that loads is refused only for want of a place. -/
theorem Service.status_of_loaded (hget : r.method = "GET") (hname : r.repository? = some name)
    (hloaded : (s.contextOf t name).2 = .ok context) :
    (s.respond t uptime r).2.status = if s.sessions.limit ≤ s.sessions.size then 503 else 200 := by
  have hsessions := (Service.contextOf_keeps s t name).1
  cases hcontext : s.contextOf t name with
  | mk s₁ outcome =>
      rw [hcontext] at hloaded hsessions
      dsimp only at hloaded hsessions
      subst hloaded
      have hhead : r.method ≠ "HEAD" := by
        rw [hget]
        decide
      rw [Service.respond_of_repository hname hhead]
      simp only [Service.respondAt, hget, Service.openStream, hcontext, hsessions]
      by_cases hfull : s.sessions.limit ≤ s.sessions.size
      · have hnone : s.sessions.register? name.text = none :=
          SessionRegistry.register?_eq_none_iff.2 hfull
        rw [hnone, if_pos hfull]
        rfl
      · cases hregister : s.sessions.register? name.text with
        | none => exact absurd (SessionRegistry.register?_eq_none_iff.1 hregister) hfull
        | some registered =>
            rw [if_neg hfull]
            rfl

/-- The same at the moment when the repository has been loaded. -/
theorem Exchange.status_of_opening (s : Service) :
    ∃ response, ((opening name context).step t uptime r s).2 = .answered response ∧
      response.status = if s.sessions.limit ≤ s.sessions.size then 503 else 200 := by
  rw [step, Service.openOn]
  by_cases hfull : s.sessions.limit ≤ s.sessions.size
  · have hnone : s.sessions.register? name.text = none :=
      SessionRegistry.register?_eq_none_iff.2 hfull
    rw [hnone, if_pos hfull]
    obtain ⟨response, hdeliver, hstatus, _⟩ := deliver_eq r
      ((Service.responseOf (.error .tooManySessions)).withHeaders Service.sharingHeaders)
    exact ⟨response, hdeliver, hstatus⟩
  · cases hregister : s.sessions.register? name.text with
    | none => exact absurd (SessionRegistry.register?_eq_none_iff.1 hregister) hfull
    | some registered =>
        rw [if_neg hfull]
        obtain ⟨response, hdeliver, hstatus, _⟩ := deliver_eq r _
        exact ⟨response, hdeliver, hstatus⟩

end

/-! ## Runs -/

/-- A service that answers requests step by step, and its ledger. -/
structure Occupancy where
  world : SharedService
  ledger : Ledger

namespace Occupancy

/-- The number of registered sessions. -/
def size (o : Occupancy) : Nat := o.world.service.sessions.size

/-- A service that has not answered anything. -/
def start (settings : Settings) (root : String) (ids : IdGenerator) : Occupancy :=
  ⟨.start settings root ids, .blank⟩

/-- What an event does; exchange number `i` answers the request `requests i`. -/
def next (requests : Nat → HttpRequest) (o : Occupancy) (e : SharedServiceEvent) : Occupancy where
  world := o.world.next requests e
  ledger :=
    match e with
    | .proceed i t uptime =>
      o.ledger.enter ((requests i).opened?
        ((o.world.exchange i).nextResponse? t uptime (requests i) o.world.service))
    | .other e => o.ledger.after o.world.service e

/-- What events do, one after the other. -/
def run (requests : Nat → HttpRequest) (o : Occupancy) (events : List SharedServiceEvent) :
    Occupancy :=
  events.foldl (next requests) o

/-- The service is in order, it has `limit` places, and its ledger fits. -/
structure Kept (requests : Nat → HttpRequest) (limit : Nat) (o : Occupancy) : Prop where
  accountable : o.world.Accountable requests
  sound : o.world.service.Sound
  limit_eq : o.world.service.sessions.limit = limit
  fits : o.ledger.Fits o.world.service

variable {requests : Nat → HttpRequest} {limit : Nat} {o : Occupancy}

/-- A service that has not answered anything is kept. -/
theorem kept_start (settings : Settings) (root : String) (supply : IdSupply) :
    (start settings root supply).Kept requests settings.maxSessions where
  accountable := SharedService.accountable_start settings root supply
  sound := Service.sound_start settings root supply
  limit_eq := rfl
  fits := Ledger.fits_blank settings root supply

/-- **One event.** -/
theorem Kept.next (h : o.Kept requests limit) (e : SharedServiceEvent) :
    (o.next requests e).Kept requests limit := by
  have hlinked := h.accountable.linked
  have haccountable := h.accountable.next e
  cases e with
  | proceed i t uptime =>
      have hfounded := h.accountable.founded i
      have hdoes : Exchange.Does (requests i) o.world.service (o.world.exchange i)
          ((o.world.exchange i).step t uptime (requests i) o.world.service) :=
        Exchange.does_step hlinked hfounded
      obtain ⟨hmoves, _, _⟩ := hdoes
      have hadmits : o.world.service.Admits (requests i)
          ((o.world.exchange i).step t uptime (requests i) o.world.service).1
          ((o.world.exchange i).nextResponse? t uptime (requests i) o.world.service) :=
        Exchange.admits_step hfounded
      exact ⟨haccountable, h.sound.admits hadmits, hmoves.limit_eq.trans h.limit_eq,
        h.fits.admits h.sound hadmits⟩
  | other e =>
      have hmoves := Service.moves_after o.world.service e
      exact ⟨haccountable, h.sound.after e, hmoves.limit_eq.trans h.limit_eq,
        h.fits.after h.sound e⟩

/-- **A whole run.** -/
theorem Kept.run (h : o.Kept requests limit) (events : List SharedServiceEvent) :
    (o.run requests events).Kept requests limit := by
  induction events generalizing o with
  | nil => exact h
  | cons e rest ih => exact ih (h.next e)

/-- No more sessions are registered than there are places. -/
theorem Kept.size_le (h : o.Kept requests limit) : o.size ≤ limit :=
  h.limit_eq ▸ h.accountable.linked.size_le

/-- Only a service without a place turns away. -/
theorem Kept.status_iff {status : Nat} (h : o.Kept requests limit)
    (hstatus : status =
      if o.world.service.sessions.limit ≤ o.world.service.sessions.size then 503 else 200) :
    (status = 503 ↔ o.size = limit) ∧ (o.size ≠ limit → status = 200) := by
  rw [h.limit_eq] at hstatus
  by_cases hfull : limit ≤ o.size
  · have heq : o.size = limit := Nat.le_antisymm h.size_le hfull
    exact ⟨iff_of_true (hstatus.trans (if_pos hfull)) heq, fun hne => absurd heq hne⟩
  · have hne : o.size ≠ limit := fun heq => hfull heq.ge
    have hroom : status = 200 := hstatus.trans (if_neg hfull)
    refine ⟨iff_of_false ?_ hne, fun _ => hroom⟩
    rw [hroom]
    decide

/-- The registered sessions are those present and those departing. -/
theorem Kept.size_eq (h : o.Kept requests limit) :
    o.size = o.ledger.present.card + (o.ledger.departing o.world.service).card := by
  calc o.size
      = o.world.service.sessions.openNumbers.card := h.accountable.linked.toLinked.size_eq_card
    _ = (o.ledger.present ∪ o.ledger.departing o.world.service).card := by
        rw [h.fits.openNumbers_eq h.sound]
    _ = o.ledger.present.card + (o.ledger.departing o.world.service).card :=
        Finset.card_union_of_disjoint (o.ledger.disjoint_departing o.world.service)

/-- When all loops have ended that have a reason to, nobody is about to leave. -/
theorem Kept.size_of_ended (h : o.Kept requests limit)
    (hended : ∀ n ∈ o.ledger.gone, o.world.service.hasEnded n = true) :
    o.size = o.ledger.present.card := by
  have hnone : o.ledger.departing o.world.service = ∅ := by
    rw [Ledger.departing, Finset.filter_eq_empty_iff]
    intro n hn
    have hgone : n ∈ o.ledger.gone := Finset.mem_union_left _ (Finset.mem_sdiff.1 hn).1
    rw [hended n hgone]
    exact Bool.false_ne_true
  rw [h.size_eq, hnone, Finset.card_empty, Nat.add_zero]

/-- What loops and clients do on their own is not in the ledger. -/
theorem run_own (requests : Nat → HttpRequest) (o : Occupancy) {events : List ServiceEvent}
    (h : ∀ e ∈ events, ∃ n, Service.IsOwn n e) :
    (o.run requests (events.map .other)).world.service = o.world.service.run events ∧
      (o.run requests (events.map .other)).ledger = o.ledger := by
  induction events generalizing o with
  | nil => exact ⟨rfl, rfl⟩
  | cons e rest ih =>
      rw [List.forall_mem_cons] at h
      obtain ⟨⟨n, hown⟩, hrest⟩ := h
      obtain ⟨hservice, hledger⟩ := ih (o.next requests (.other e)) hrest
      exact ⟨hservice, hledger.trans (o.ledger.after_of_isOwn o.world.service hown)⟩

/-- One loop after the other can come to its end. -/
theorem Kept.exists_ends (h : o.Kept requests limit) {numbers : Finset Nat}
    (hsubset : numbers ⊆ o.ledger.gone) :
    ∃ more, (∀ e ∈ more, ∃ n ∈ o.ledger.gone, Service.IsOwn n e) ∧
      ∀ n ∈ numbers, (o.world.service.run more).hasEnded n = true := by
  induction numbers using Finset.induction_on with
  | empty => exact ⟨[], List.forall_mem_nil _, fun n hn => absurd hn (Finset.notMem_empty n)⟩
  | insert n numbers _ ih =>
      rw [Finset.insert_subset_iff] at hsubset
      obtain ⟨hgone, hsubset⟩ := hsubset
      obtain ⟨more, hown, hended⟩ := ih hsubset
      have hkept := h.run (more.map .other)
      have hall : ∀ e ∈ more, ∃ n, Service.IsOwn n e := fun e he =>
        (hown e he).imp fun _ hboth => hboth.2
      obtain ⟨hservice, hledger⟩ := run_own requests o hall
      have hfits := hkept.fits
      have hsound := hkept.sound
      rw [hservice, hledger] at hfits
      rw [hservice] at hsound
      obtain ⟨last, hown', hended'⟩ := hfits.exists_end hsound hgone
      have hrun : o.world.service.run (more ++ last) = (o.world.service.run more).run last :=
        List.foldl_append
      refine ⟨more ++ last, ?_, ?_⟩
      · intro e he
        rcases List.mem_append.1 he with hmore | hlast
        · exact hown e hmore
        · exact ⟨n, hgone, hown' e hlast⟩
      · intro m hm
        rw [hrun]
        rcases Finset.mem_insert.1 hm with rfl | hm
        · exact hended'
        · exact Service.hasEnded_run hsound (hended m hm) last

/-- What can be relied on about the places of a service, `limit` in number. -/
structure Accounted (requests : Nat → HttpRequest) (limit : Nat) (o : Occupancy) : Prop where
  size_le : o.size ≤ limit
  /-- Sessions are held by the streams that are present, and by those that were left and whose loops
  have not noticed. -/
  size_eq : o.size = o.ledger.present.card + (o.ledger.departing o.world.service).card
  /-- When the loops of all streams that were left or unregistered have ended, only those that are
  present hold a session. -/
  size_of_ended : (∀ n ∈ o.ledger.gone, o.world.service.hasEnded n = true) →
    o.size = o.ledger.present.card
  /-- It can come to this by what these loops and their clients do alone. -/
  can_end : ∃ more : List ServiceEvent, (∀ e ∈ more, ∃ n ∈ o.ledger.gone, Service.IsOwn n e) ∧
    let o' := o.run requests (more.map .other)
    o'.ledger = o.ledger ∧ (∀ n ∈ o'.ledger.gone, o'.world.service.hasEnded n = true) ∧
      o'.size = o.ledger.present.card
  /-- A request for the events of a repository that loads is turned away exactly if all places are
  taken. -/
  refused_iff : ∀ t uptime (r : HttpRequest) name context, r.method = "GET" →
    r.repository? = some name → (o.world.service.contextOf t name).2 = .ok context →
      ((o.world.service.respond t uptime r).2.status = 503 ↔ o.size = limit) ∧
        (o.size ≠ limit → (o.world.service.respond t uptime r).2.status = 200)
  /-- If its steps are interleaved with others, it depends on the moment when the repository has been
  loaded. -/
  opening_refused_iff : ∀ i t uptime name context, o.world.exchange i = .opening name context →
    ∃ response, (o.next requests (.proceed i t uptime)).world.exchange i = .answered response ∧
      (response.status = 503 ↔ o.size = limit) ∧ (o.size ≠ limit → response.status = 200)

/-- **No place is lost.**  Whatever requests are answered, at once or step by step, whatever their order,
and whichever clients go away and sessions are unregistered in between. -/
theorem accounted_run (settings : Settings) (root : String) (supply : IdSupply)
    (requests : Nat → HttpRequest) (events : List SharedServiceEvent) :
    ((start settings root supply).run requests events).Accounted requests settings.maxSessions := by
  have h : ((start settings root supply).run requests events).Kept requests settings.maxSessions :=
    (kept_start settings root supply).run events
  generalize (start settings root supply).run requests events = o at h
  constructor
  case size_le => exact h.size_le
  case size_eq => exact h.size_eq
  case size_of_ended => exact h.size_of_ended
  case can_end =>
    obtain ⟨more, hown, hended⟩ := h.exists_ends (Finset.Subset.refl _)
    have hall : ∀ e ∈ more, ∃ n, Service.IsOwn n e := fun e he =>
      (hown e he).imp fun _ hboth => hboth.2
    obtain ⟨hservice, hledger⟩ := run_own requests o hall
    refine ⟨more, hown, hledger, ?_, ?_⟩
    · rw [hledger, hservice]
      exact hended
    · rw [← hledger]
      refine (h.run (more.map .other)).size_of_ended ?_
      rw [hledger, hservice]
      exact hended
  case refused_iff =>
    intro t uptime r name context hget hname hloaded
    exact h.status_iff (Service.status_of_loaded hget hname hloaded)
  case opening_refused_iff =>
    intro i t uptime name context hopening
    obtain ⟨response, hanswered, hresponse⟩ :=
      Exchange.status_of_opening o.world.service
    refine ⟨response, ?_, h.status_iff hresponse⟩
    simp only [next, SharedService.next, Function.update_self, hopening]
    exact hanswered

end Occupancy

end RegistryGraph
