import Mathlib.Data.Finset.Card
import RegistryGraph.Proofs.Service.Atomicity

/-!
# The ledger of the streams

A request that is answered with a stream takes one place in the registry, and the loop of the stream gives
it back when it ends, by whichever way it comes to its end.  Whoever unregisters the session gives it back
before.  The ledger has what can be seen of this from outside: the streams that were opened, those whose
clients went away, and those that were unregistered.

* `SessionRegistry.Linked.size_eq_card`: the places that are taken are those of the open sessions.
* `Exchange.admits_step`: what one step of a request does.
* `Service.loopStep?_ends`: what one step of a loop does.
* `Ledger.Fits.after`: streams and sessions are what the ledger says they are.
-/

namespace RegistryGraph

/-! ## Open sessions -/

namespace SessionRegistry

variable {r r' : SessionRegistry} {n : Nat} {repo : String}

/-- The numbers of the open sessions. -/
def openNumbers (r : SessionRegistry) : Finset Nat :=
  (Finset.range r.sessions.length).filter fun n => (r.session? n).any fun session => !session.closed

/-- The open numbers are those of sessions that are not closed. -/
theorem mem_openNumbers_iff :
    n ∈ r.openNumbers ↔ ∃ session, r.session? n = some session ∧ session.closed = false := by
  rw [openNumbers, Finset.mem_filter, Finset.mem_range]
  constructor
  · rintro ⟨_, hopen⟩
    cases hsession : r.session? n with
    | none =>
        rw [hsession] at hopen
        cases hopen
    | some session =>
        rw [hsession] at hopen
        exact ⟨session, rfl, by simpa using hopen⟩
  · rintro ⟨session, hsession, hopen⟩
    refine ⟨(List.getElem?_eq_some_iff.1 hsession).1, ?_⟩
    rw [hsession, Option.any_some, hopen]
    rfl

/-- **The registered sessions are the open ones.** -/
theorem Linked.size_eq_card (h : r.Linked) : r.size = r.openNumbers.card := by
  let idOf : Nat → String := fun n => ((r.session? n).map (·.id)).getD ""
  have hidOf : ∀ {n session}, r.session? n = some session → idOf n = session.id := by
    intro n session hsession
    dsimp only [idOf]
    rw [hsession]
    rfl
  have hkeys : r.registered.keys.toFinset = r.openNumbers.image idOf := by
    ext id
    rw [List.mem_toFinset, Finset.mem_image, Std.ExtTreeMap.mem_keys,
      Std.ExtTreeMap.mem_iff_isSome_getElem?, Option.isSome_iff_exists]
    constructor
    · rintro ⟨n, hfind⟩
      obtain ⟨session, hsession, hid, hopen⟩ := h.found id n hfind
      exact ⟨n, mem_openNumbers_iff.2 ⟨session, hsession, hopen⟩, (hidOf hsession).trans hid⟩
    · rintro ⟨n, hn, rfl⟩
      obtain ⟨session, hsession, hopen⟩ := mem_openNumbers_iff.1 hn
      exact ⟨n, hidOf hsession ▸ h.registered n session hsession hopen⟩
  have hinjective : Set.InjOn idOf r.openNumbers := by
    intro m hm n hn hid
    obtain ⟨s, hs, hopen⟩ := mem_openNumbers_iff.1 hm
    obtain ⟨s', hs', hopen'⟩ := mem_openNumbers_iff.1 hn
    rw [hidOf hs, hidOf hs'] at hid
    exact h.number_unique hs hs' hopen hopen' hid
  calc r.size
      = r.registered.keys.length := Std.ExtTreeMap.length_keys.symm
    _ = r.registered.keys.toFinset.card :=
        (List.toFinset_card_of_nodup Std.ExtTreeMap.nodup_keys).symm
    _ = r.openNumbers.card := by rw [hkeys, Finset.card_image_of_injOn hinjective]

/-- Unregistering keeps the limit. -/
theorem limit_unregister (r : SessionRegistry) (id : String) :
    (r.unregister id).limit = r.limit := by
  unfold unregister
  split <;> rfl

/-- Where every session keeps its state, the same ones are closed. -/
theorem closed_map (f : Nat → Session → Session) (hf : ∀ m s, (f m s).closed = s.closed)
    (h : ∀ m, r'.session? m = (r.session? m).map (f m)) :
    r'.sessions.map (·.closed) = r.sessions.map (·.closed) := by
  refine List.ext_getElem? ?_
  intro m
  have hm : r'.sessions[m]? = (r.sessions[m]?).map (f m) := h m
  rw [List.getElem?_map, List.getElem?_map, hm]
  cases r.sessions[m]? with
  | none => rfl
  | some session => exact congrArg some (hf m session)

/-- Posting closes no session. -/
theorem closed_post (r : SessionRegistry) (number : Nat) (request : Rpc.Request) :
    (r.post number request).1.sessions.map (·.closed) = r.sessions.map (·.closed) := by
  refine closed_map _ ?_ (session?_post_eq r number request)
  intro m s
  split
  · exact (Session.post_frame r.inboxLimit request s).2.2
  · rfl

/-- Receiving closes no session. -/
theorem closed_receive (r : SessionRegistry) (number : Nat) :
    (r.receive number).1.sessions.map (·.closed) = r.sessions.map (·.closed) := by
  refine closed_map _ ?_ (session?_receive r number)
  intro m s
  split
  · exact (Session.receive_frame s).2.2
  · rfl

/-- Nothing that happens to a registry changes the number of its places. -/
theorem Moves.limit_eq (h : r.Moves r') : r'.limit = r.limit := by
  cases h with
  | stay => rfl
  | post number request => exact (post_frame r number request).1
  | register hregister => exact (size_register hregister).2.1
  | unregister id => exact limit_unregister r id
  | receive number => exact (receive_frame r number).1

end SessionRegistry

/-! ## Steps of requests and loops -/

/-- A text is no stream. -/
theorem HttpBody.text_ne_stream {s : String} {n : Nat} : text s ≠ stream n := by
  intro h
  cases h

namespace Exchange

/-- The response that has been given. -/
def response? : Exchange → Option HttpResponse
  | .answered response => some response
  | _ => none

/-- The response that the next step gives. -/
def nextResponse? (t : FileTree) (uptime : Nat) (r : HttpRequest) (s : Service) :
    Exchange → Option HttpResponse
  | .answered _ => none
  | exchange => (exchange.step t uptime r s).2.response?

variable {s s' : Service} {t : FileTree} {uptime : Nat} {r : HttpRequest} {exchange : Exchange}

/-- Whether no response that has been given has a stream for its body. -/
def Unopened (exchange : Exchange) : Prop :=
  ∀ response, exchange.response? = some response → ∀ n, response.body ≠ .stream n

/-- A response without a stream opens none when it is delivered. -/
theorem unopened_deliver {response : HttpResponse} (h : ∀ n, response.body ≠ .stream n) :
    (deliver r response).Unopened := by
  intro given hgiven n
  rw [deliver, response?, Option.some.injEq] at hgiven
  subst hgiven
  split
  · exact HttpBody.text_ne_stream
  · exact h n

/-- Nothing has been opened as long as there is no response. -/
theorem unopened_of_waits (h : exchange.response? = none) : exchange.Unopened := by
  intro response hsome
  cases h.symm.trans hsome

/-- A refusal opens no stream, and neither does anything else that has no stream for its body. -/
theorem unopened_conclude {outcome : Except Refusal HttpResponse}
    (h : ∀ response, outcome = .ok response → ∀ n, response.body ≠ .stream n) :
    (conclude r outcome).Unopened := by
  refine unopened_deliver fun n => ?_
  cases outcome with
  | ok response => exact h response rfl n
  | error refusal =>
      cases refusal with
      | body fault => cases fault <;> exact HttpBody.text_ne_stream
      | _ => exact HttpBody.text_ne_stream

/-- A refusal opens no stream. -/
theorem unopened_of_error (refusal : Refusal) : (conclude r (.error refusal)).Unopened := by
  refine unopened_conclude ?_
  intro response hresponse
  cases hresponse

/-- What is done first about a request opens no stream. -/
theorem unopened_admission (name : RepoName) : (admission s r name).Unopened := by
  rw [admission]
  split
  · refine unopened_conclude ?_
    intro response hresponse n
    cases hresponse
    exact HttpBody.text_ne_stream
  · exact unopened_of_waits rfl
  · split
    · split
      · exact unopened_of_waits rfl
      · exact unopened_of_error _
    · split
      · exact unopened_of_error _
      · split
        · exact unopened_of_error _
        · exact unopened_of_waits rfl
  · exact unopened_of_error _

/-- A body that has been read opens no stream by itself. -/
theorem unopened_received (name : RepoName) (octets : Octets) (id? : Option String) :
    (received r name octets id?).Unopened := by
  cases id? with
  | none => exact unopened_of_waits rfl
  | some id =>
      rw [received]
      split
      · exact unopened_of_error _
      · exact unopened_of_waits rfl

/-- A step of an open exchange is one that the service admits. -/
theorem admits_of_isOpen (hfounded : exchange.Founded s.sessions r) (hopen : exchange.IsOpen) :
    s.Admits r (exchange.step t uptime r s).1 (exchange.step t uptime r s).2.response? := by
  cases exchange with
  | begun =>
      rw [step]
      split
      · exact .keeps (.inl rfl) rfl (unopened_deliver fun _ => HttpBody.text_ne_stream)
      · refine .keeps (.inl rfl) rfl (unopened_deliver fun n => ?_)
        unfold Service.health
        split <;> exact HttpBody.text_ne_stream
      · split
        · exact .keeps (.inl rfl) rfl (unopened_deliver fun _ => HttpBody.text_ne_stream)
        · exact .keeps (.inl rfl) rfl (unopened_admission _)
  | reading name id? arrived rest =>
      cases rest with
      | nil => exact .keeps (.inl rfl) rfl (unopened_received name arrived id?)
      | cons part rest =>
          cases part with
          | failure => exact .keeps (.inl rfl) rfl (unopened_of_error _)
          | data octets =>
              rw [step]
              split
              · exact .keeps (.inl rfl) rfl (unopened_of_error _)
              · exact .keeps (.inl rfl) rfl (unopened_of_waits rfl)
  | finding id request =>
      rw [step]
      split
      · exact .keeps (.inl rfl) rfl (unopened_of_error _)
      · exact .keeps (.inl rfl) rfl (unopened_of_waits rfl)
  | posting number request =>
      refine .keeps (.inr ⟨number, request, rfl⟩) rfl (unopened_conclude ?_)
      intro response hresponse n
      rw [Service.postTo] at hresponse
      dsimp only at hresponse
      split at hresponse
      · cases hresponse
        exact HttpBody.text_ne_stream
      · cases hresponse
      · cases hresponse
      · cases hresponse
  | loading name message? =>
      obtain ⟨hsessions, hstreams⟩ := s.contextOf_keeps t name
      refine .keeps (.inl hsessions) hstreams ?_
      change (loaded r name message? (s.contextOf t name).2).Unopened
      unfold loaded
      split
      · exact unopened_of_error _
      · split <;> exact unopened_of_waits rfl
  | opening name context =>
      obtain ⟨_, hget⟩ := hfounded
      rw [step, Service.openOn]
      cases hregister : s.sessions.register? name.text with
      | none => exact .keeps (.inl rfl) rfl (unopened_of_error _)
      | some registered =>
          obtain ⟨sessions, number⟩ := registered
          have hgiven (response : HttpResponse) :
              (conclude r (.ok response)).response? =
                some (response.withHeaders Service.sharingHeaders) := by
            rw [conclude, deliver, if_neg (by rw [hget]; decide)]
            rfl
          exact .opens hget hregister rfl rfl (hgiven _) rfl rfl
  | handling context message =>
      refine .keeps (.inl rfl) rfl (unopened_conclude ?_)
      intro response hresponse n
      rw [Service.handleOn] at hresponse
      cases hresponse
      split <;> exact HttpBody.text_ne_stream
  | answered response => exact hopen.elim

/-- **What one step of a request does.** -/
theorem admits_step (hfounded : exchange.Founded s.sessions r) :
    s.Admits r (exchange.step t uptime r s).1 (exchange.nextResponse? t uptime r s) := by
  cases exchange with
  | answered response =>
      refine .keeps (.inl rfl) rfl ?_
      intro given hgiven
      cases hgiven
  | _ => exact admits_of_isOpen hfounded trivial

end Exchange

/-- Whether a loop is at its end. -/
def StreamPhase.isEnded : StreamPhase → Bool
  | .ended => true
  | .announcing | .serving | .sending _ => false

/-- Whether the loop of a stream has ended. -/
def EventStream.hasEnded (stream : EventStream) : Bool := stream.phase.isEnded

/-- Whether a stream has ended is seen from its phase. -/
theorem EventStream.hasEnded_of_eq {stream : EventStream} {phase : StreamPhase}
    (h : stream.phase = phase) : stream.hasEnded = phase.isEnded := by
  rw [hasEnded, h]

namespace Service

variable {s s' : Service} {n : Nat}

/-- Unregistering closes the session of which the stream has the id, and no other. -/
theorem closed_unregister_iff {id : String} {stream : EventStream} {session session' : Session}
    (hsound : s.Sound) (hshows : s.Shows n stream session)
    (h : (s.sessions.unregister id).session? n = some session') :
    session'.closed = true ↔ session.closed = true ∨ id = stream.id := by
  have hid : stream.id = s.sessions.ids.draw n := hsound.id_eq n stream hshows.1
  rw [SessionRegistry.session?_unregister_eq, hshows.2, Option.map_some, Option.some.injEq] at h
  subst h
  by_cases hfind : s.sessions.find? id = some n
  · rw [if_pos hfind]
    exact iff_of_true rfl (.inr ((hsound.sessions.found id n hfind).trans hid.symm))
  · rw [if_neg hfind]
    refine ⟨.inl, ?_⟩
    rintro (hclosed | rfl)
    · exact hclosed
    · cases hopen : session.closed with
      | true => rfl
      | false => exact absurd (hid ▸ hsound.sessions.registered n session hshows.2 hopen) hfind

/-- **What one step of a loop does to its stream and its session.**  It goes on, or it ends, which it does
only when the client is gone or the session is closed. -/
theorem loopStep?_ends {uptime : Nat} {step : LoopStep} (hsound : s.Sound)
    (h : s.loopStep? uptime n step = some s') :
    ∃ stream session, s.Shows n stream session ∧ stream.hasEnded = false ∧
      ((∃ phase buffer, phase.isEnded = false ∧
          s'.streams = s.streams.set n { stream with phase, buffer } ∧
          (s'.sessions = s.sessions ∨ s'.sessions = (s.sessions.receive n).1)) ∨
        (stream.connected = false ∨ session.closed = true) ∧
          s'.streams = s.streams.set n { stream with phase := .ended } ∧
          s'.sessions = s.sessions.unregister stream.id) := by
  rw [loopStep?, Option.bind_eq_some_iff] at h
  obtain ⟨stream, hstream, h⟩ := h
  obtain ⟨session, hshows⟩ := hsound.exists_shows hstream
  have hreceiving := hsound.sessions.receiving n session hshows.2
  refine ⟨stream, session, hshows, ?_⟩
  split at h
  next hphase =>
    cases h
    exact ⟨EventStream.hasEnded_of_eq hphase,
      .inl ⟨.sending (.endpoint stream.address), stream.buffer, rfl, rfl, .inl rfl⟩⟩
  next hphase =>
    rw [serveNext?] at h
    split at h
    next sessions request hreceive =>
      cases h
      refine ⟨EventStream.hasEnded_of_eq hphase, .inl ⟨_, stream.buffer, ?_, rfl, .inr ?_⟩⟩
      · split <;> rfl
      · rw [hreceive]
        rfl
    next => cases h
  next hphase =>
    cases h
    exact ⟨EventStream.hasEnded_of_eq hphase,
      .inl ⟨.sending .keepalive, stream.buffer, rfl, rfl, .inl rfl⟩⟩
  next event hphase =>
    rw [Option.ite_none_right_eq_some] at h
    cases h.2
    exact ⟨EventStream.hasEnded_of_eq hphase,
      .inl ⟨.serving, stream.buffer ++ [event], rfl, rfl, .inl rfl⟩⟩
  next phase =>
    dsimp only at h
    rw [Option.ite_none_right_eq_some] at h
    obtain ⟨hover, h⟩ := h
    cases h
    cases hphase : stream.phase with
    | serving =>
        rw [hphase, Bool.or_eq_true_iff] at hover
        refine ⟨EventStream.hasEnded_of_eq hphase, .inr ⟨?_, rfl, rfl⟩⟩
        rcases hover with hgone | hdrained
        · exact .inl (by simpa using hgone)
        · exact .inr ((isDrained_iff hshows hreceiving).1 hdrained).1
    | sending event =>
        rw [hphase] at hover
        exact ⟨EventStream.hasEnded_of_eq hphase,
          .inr ⟨.inl (by simpa using hover), rfl, rfl⟩⟩
    | announcing | ended =>
        rw [hphase] at hover
        cases hover
  next => cases h

end Service

/-! ## The ledger -/

/-- The stream that a `GET` has opened, if it was answered with 200. -/
def HttpRequest.opened? (r : HttpRequest) (response? : Option HttpResponse) : Option Nat :=
  response?.bind fun response =>
    match response.body with
    | .stream n => if r.method = "GET" ∧ response.status = 200 then some n else none
    | .text _ => none

/-- What counts of a stream: whether its client is there, and whether its loop has ended. -/
def EventStream.standing (stream : EventStream) : Bool × Bool := (stream.connected, stream.hasEnded)

/-- Whether the loop of the stream with a number has ended. -/
def Service.hasEnded (s : Service) (n : Nat) : Bool := (s.streams[n]?).any EventStream.hasEnded

/-- What has become of the streams of a service, as far as it can be seen from outside. -/
structure Ledger where
  /-- The streams that were opened. -/
  opened : Finset Nat
  /-- Those whose clients went away. -/
  left : Finset Nat
  /-- Those whose sessions somebody unregistered. -/
  unregistered : Finset Nat

namespace Ledger

/-- The ledger before anything has happened. -/
def blank : Ledger := ⟨∅, ∅, ∅⟩

/-- A stream is opened, or none. -/
def enter (o : Ledger) (n? : Option Nat) : Ledger := { o with opened := o.opened ∪ n?.toFinset }

/-- What an event adds to the ledger. -/
def after (o : Ledger) (s : Service) : ServiceEvent → Ledger
  | .request t uptime r => o.enter (r.opened? (some (s.respond t uptime r).2))
  | .unregister id =>
    { o with
      unregistered := o.unregistered ∪ o.opened.filter fun n => (s.streams[n]?).any (·.id = id) }
  | .disconnect n => { o with left := o.left ∪ o.opened ∩ {n} }
  | .post .. | .loop .. | .take _ => o

/-- The streams that were left or unregistered. -/
def gone (o : Ledger) : Finset Nat := o.left ∪ o.unregistered

/-- The streams that were opened and neither left nor unregistered. -/
def present (o : Ledger) : Finset Nat := o.opened \ o.gone

/-- What the entries of a ledger say about one stream and its session. -/
structure Tells (left unregistered : Prop) (stream : EventStream) (session : Session) : Prop where
  gone_iff : stream.connected = false ↔ left
  closed_iff : session.closed = true ↔ unregistered ∨ stream.hasEnded = true
  of_ended : stream.hasEnded = true → left ∨ unregistered

/-- Whether a ledger is that of a service. -/
structure Fits (o : Ledger) (s : Service) : Prop where
  opened_eq : o.opened = Finset.range s.streams.length
  left_subset : o.left ⊆ o.opened
  unregistered_subset : o.unregistered ⊆ o.opened
  tells : ∀ n stream session, s.Shows n stream session →
    Tells (n ∈ o.left) (n ∈ o.unregistered) stream session

/-- The blank ledger is that of a service that has not answered anything. -/
theorem fits_blank (settings : Settings) (root : String) (supply : IdSupply) :
    blank.Fits (.start settings root supply) where
  opened_eq := rfl
  left_subset := Finset.empty_subset _
  unregistered_subset := Finset.empty_subset _
  tells := by
    intro n stream session hshows
    cases hshows.1

variable {o : Ledger} {s s' : Service} {n : Nat} {stream : EventStream} {session : Session}

/-- A stream that is there has been opened. -/
theorem Fits.mem_opened (h : o.Fits s) (hshows : s.Shows n stream session) : n ∈ o.opened := by
  rw [h.opened_eq, Finset.mem_range]
  exact (List.getElem?_eq_some_iff.1 hshows.1).1

/-- What opens and closes nothing, and concerns no client, is not in the ledger. -/
theorem Fits.of_same (h : o.Fits s)
    (hstreams : s'.streams.map EventStream.standing = s.streams.map EventStream.standing)
    (hsessions : s'.sessions.sessions.map (·.closed) = s.sessions.sessions.map (·.closed)) :
    o.Fits s' where
  opened_eq := by
    have hlength := congrArg List.length hstreams
    rw [List.length_map, List.length_map] at hlength
    rw [hlength]
    exact h.opened_eq
  left_subset := h.left_subset
  unregistered_subset := h.unregistered_subset
  tells := by
    intro n stream' session' hshows'
    obtain ⟨stream, hstream, hstanding⟩ := Service.exists_of_map_eq hstreams hshows'.1
    obtain ⟨session, hsession, hclosed⟩ := Service.exists_of_map_eq hsessions hshows'.2
    obtain ⟨hconnected, hended⟩ := Prod.mk.inj hstanding
    have htells := h.tells n stream session ⟨hstream, hsession⟩
    constructor
    · rw [← hconnected]
      exact htells.gone_iff
    · rw [← hclosed, ← hended]
      exact htells.closed_iff
    · rw [← hended]
      exact htells.of_ended

/-- A stream that is opened is entered. -/
theorem Fits.opens {repo path : String} {context : ToolContext} {sessions : SessionRegistry}
    {number : Nat} (h : o.Fits s) (hsound : s.Sound)
    (hregistered : s.sessions.register? repo = some (sessions, number))
    (hsessions : s'.sessions = sessions)
    (hstreams : s'.streams = s.streams ++ [.fresh (s.sessions.nextId) context path]) :
    (o.enter (some number)).Fits s' := by
  obtain ⟨hnumber, _, happend⟩ := SessionRegistry.register?_eq_some hregistered
  rw [← hsound.length_eq] at hnumber
  subst hnumber
  have hnew : s.streams.length ∉ o.opened := by
    rw [h.opened_eq]
    exact Finset.notMem_range_self
  rw [enter, Option.toFinset_some]
  constructor
  case opened_eq =>
    rw [h.opened_eq, hstreams, List.length_append, List.length_singleton, Finset.range_add_one,
      Finset.union_comm]
    rfl
  case left_subset => exact h.left_subset.trans Finset.subset_union_left
  case unregistered_subset => exact h.unregistered_subset.trans Finset.subset_union_left
  case tells =>
    intro n stream session hshows
    obtain ⟨hstream, hsession⟩ := hshows
    rw [hstreams] at hstream
    rw [hsessions, SessionRegistry.session?, happend] at hsession
    by_cases hn : n < s.streams.length
    · rw [List.getElem?_append_left hn] at hstream
      rw [List.getElem?_append_left (hsound.length_eq ▸ hn)] at hsession
      exact h.tells n stream session ⟨hstream, hsession⟩
    · have hlt : n < (s.streams ++ [_]).length := (List.getElem?_eq_some_iff.1 hstream).1
      rw [List.length_append, List.length_singleton] at hlt
      obtain rfl : n = s.streams.length := by omega
      rw [List.getElem?_concat_length] at hstream
      rw [hsound.length_eq, List.getElem?_concat_length] at hsession
      cases hstream
      cases hsession
      constructor
      · exact iff_of_false Bool.false_ne_true.symm fun hleft => hnew (h.left_subset hleft)
      · refine iff_of_false Bool.false_ne_true ?_
        rintro (hgone | hended)
        · exact hnew (h.unregistered_subset hgone)
        · cases hended
      · intro hended
        cases hended

/-- A request takes a place and is entered, or does neither. -/
theorem Fits.admits {r : HttpRequest} {response? : Option HttpResponse} (h : o.Fits s)
    (hsound : s.Sound) (hadmits : s.Admits r s' response?) :
    (o.enter (r.opened? response?)).Fits s' := by
  cases hadmits with
  | keeps hsame hstreams hunopened =>
      have hnone : r.opened? response? = none := by
        rw [HttpRequest.opened?, Option.bind_eq_none_iff]
        intro response hgiven
        cases hbody : response.body with
        | text s => rfl
        | stream n => exact absurd hbody (hunopened response hgiven n)
      rw [hnone, enter, Option.toFinset_none, Finset.union_empty]
      refine h.of_same (by rw [hstreams]) ?_
      rcases hsame with hsame | ⟨number, request, hsame⟩
      · rw [hsame]
      · rw [hsame]
        exact SessionRegistry.closed_post _ number request
  | @opens _ _ _ _ number _ hget hregistered hsessions hstreams hgiven hstatus hbody =>
      have hopened : r.opened? response? = some number := by
        rw [HttpRequest.opened?, hgiven, Option.bind_some, hbody]
        exact if_pos ⟨hget, hstatus⟩
      rw [hopened]
      exact h.opens hsound hregistered hsessions hstreams

/-- A loop that ends gives its place back, and no other. -/
theorem Fits.closes {m : Nat} (h : o.Fits s) (hsound : s.Sound) (hshows : s.Shows m stream session)
    (hserves : stream.hasEnded = false) (hover : stream.connected = false ∨ session.closed = true)
    (hstreams : s'.streams = s.streams.set m { stream with phase := .ended })
    (hsessions : s'.sessions = s.sessions.unregister stream.id) : o.Fits s' := by
  have htells := h.tells m stream session hshows
  constructor
  case opened_eq =>
    rw [hstreams, List.length_set]
    exact h.opened_eq
  case left_subset => exact h.left_subset
  case unregistered_subset => exact h.unregistered_subset
  case tells =>
    intro n stream' session' hshows'
    obtain ⟨hstream', hsession'⟩ := hshows'
    rw [hstreams] at hstream'
    rw [hsessions] at hsession'
    by_cases hn : m = n
    · subst hn
      rw [List.getElem?_set_self (List.getElem?_eq_some_iff.1 hshows.1).1] at hstream'
      cases hstream'
      have hclosed := (Service.closed_unregister_iff hsound hshows hsession').2 (.inr rfl)
      refine ⟨htells.gone_iff, iff_of_true hclosed (.inr rfl), fun _ => ?_⟩
      rcases hover with hgone | hclosed
      · exact .inl (htells.gone_iff.1 hgone)
      · rw [htells.closed_iff, hserves] at hclosed
        exact .inr (hclosed.resolve_right Bool.false_ne_true)
    · rw [List.getElem?_set_ne hn] at hstream'
      obtain ⟨session₁, hshows₁⟩ := hsound.exists_shows hstream'
      have htells₁ := h.tells n stream' session₁ hshows₁
      -- Ids are distinct, so this session is not the one that is unregistered.
      have hid : stream.id ≠ stream'.id := by
        rw [hsound.id_eq m stream hshows.1, hsound.id_eq n stream' hstream']
        exact fun hsame => hn (hsound.sessions.fresh m n hsame)
      have hclosed := Service.closed_unregister_iff hsound hshows₁ hsession'
      rw [or_iff_left hid] at hclosed
      exact ⟨htells₁.gone_iff, hclosed.trans htells₁.closed_iff, htells₁.of_ended⟩

/-- A step of a loop keeps the ledger fitting. -/
theorem Fits.loopStep? {uptime m : Nat} {step : LoopStep} (h : o.Fits s) (hsound : s.Sound)
    (hstep : s.loopStep? uptime m step = some s') : o.Fits s' := by
  obtain ⟨stream, session, hshows, hserves, hstep⟩ := Service.loopStep?_ends hsound hstep
  rcases hstep with ⟨phase, buffer, hphase, hstreams, hsessions⟩ | ⟨hover, hstreams, hsessions⟩
  · refine h.of_same ?_ ?_
    · rw [hstreams]
      refine Service.map_set_of_eq hshows.1 ?_
      rw [EventStream.standing, EventStream.standing, hserves]
      exact congrArg (Prod.mk stream.connected) hphase
    · rcases hsessions with hsessions | hsessions
      · rw [hsessions]
      · rw [hsessions]
        exact SessionRegistry.closed_receive _ m
  · exact h.closes hsound hshows hserves hover hstreams hsessions

/-- Unregistering is entered for the stream of which the session has the id. -/
theorem Fits.unregister (h : o.Fits s) (hsound : s.Sound) (id : String) :
    (o.after s (.unregister id)).Fits (s.after (.unregister id)) where
  opened_eq := h.opened_eq
  left_subset := h.left_subset
  unregistered_subset := Finset.union_subset h.unregistered_subset (Finset.filter_subset _ _)
  tells := by
    intro n stream session' hshows'
    obtain ⟨session, hshows⟩ := hsound.exists_shows hshows'.1
    have htells := h.tells n stream session hshows
    have hmem : n ∈ (o.after s (.unregister id)).unregistered ↔
        n ∈ o.unregistered ∨ id = stream.id := by
      have hstream : s.streams[n]? = some stream := hshows.1
      rw [after, Finset.mem_union, Finset.mem_filter, hstream, Option.any_some, decide_eq_true_iff,
        and_iff_right (h.mem_opened hshows), eq_comm]
    have hclosed := Service.closed_unregister_iff hsound hshows hshows'.2
    constructor
    · exact htells.gone_iff
    · rw [hclosed, htells.closed_iff, hmem, or_right_comm]
    · intro hended
      rw [hmem, ← or_assoc]
      exact .inl (htells.of_ended hended)

/-- A client that leaves is entered in the ledger. -/
theorem Fits.disconnect (h : o.Fits s) (number : Nat) :
    (o.after s (.disconnect number)).Fits (s.after (.disconnect number)) where
  opened_eq := by
    rw [Service.after, Service.disconnect, List.length_modify]
    exact h.opened_eq
  left_subset := Finset.union_subset h.left_subset Finset.inter_subset_left
  unregistered_subset := h.unregistered_subset
  tells := by
    intro n stream' session hshows'
    obtain ⟨hstream', hsession⟩ := hshows'
    rw [Service.after, Service.disconnect, List.getElem?_modify, Option.map_eq_map,
      Option.map_eq_some_iff] at hstream'
    obtain ⟨stream, hstream, rfl⟩ := hstream'
    have hshows : s.Shows n stream session := ⟨hstream, hsession⟩
    have htells := h.tells n stream session hshows
    have hmem : n ∈ (o.after s (.disconnect number)).left ↔ n ∈ o.left ∨ number = n := by
      rw [after, Finset.mem_union, Finset.mem_inter, Finset.mem_singleton,
        and_iff_right (h.mem_opened hshows), eq_comm]
    by_cases hn : number = n
    · rw [if_pos hn]
      have hleft := hmem.2 (.inr hn)
      exact ⟨iff_of_true rfl hleft, htells.closed_iff, fun _ => .inl hleft⟩
    · rw [if_neg hn]
      rw [or_iff_left hn] at hmem
      exact ⟨htells.gone_iff.trans hmem.symm, htells.closed_iff, fun hended =>
        (htells.of_ended hended).imp_left hmem.2⟩

/-- **One event.** -/
theorem Fits.after (h : o.Fits s) (hsound : s.Sound) (e : ServiceEvent) :
    (o.after s e).Fits (s.after e) := by
  cases e with
  | request t uptime r =>
      exact h.admits hsound (Service.admits_handled (Service.handled_respond s t uptime r))
  | post number request => exact h.of_same rfl (SessionRegistry.closed_post _ number request)
  | loop number uptime step =>
      rw [Ledger.after, Service.after]
      cases hstep : s.loopStep? uptime number step with
      | none => exact h
      | some s' => exact h.loopStep? hsound hstep
  | take number =>
      rw [Ledger.after, Service.after]
      cases htake : s.takeEvent? number with
      | none => exact h
      | some taken =>
          obtain ⟨stream, rest, hstream, _, hs⟩ := Service.takeEvent?_eq_some htake
          rw [Option.map_some, Option.getD_some, hs]
          exact h.of_same (Service.map_set_of_eq hstream rfl) rfl
  | unregister id => exact h.unregister hsound id
  | disconnect number => exact h.disconnect number

end Ledger

end RegistryGraph
