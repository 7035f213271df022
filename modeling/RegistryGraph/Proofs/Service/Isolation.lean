import RegistryGraph.Proofs.Service.Delivery
import RegistryGraph.Proofs.Store.Overtaking

/-!
# Repositories keep apart

A session belongs to the repository on which it was opened, and a stored snapshot to the repository
from which it was read.  Both are told apart by the text `owner/repo`.  The name with which
something is opened or read is proper, while a request that is posted can come with any name, also
with one that has a separator in its parts; `RepoName.eq_of_text_eq` is why this does not matter.

* `Service.repo_run`: a session keeps its repository.
* `Service.boundTo_run`: only requests for its repository reach a session.
* `SharedStore.labelled_run`: a call hands out a snapshot of the repository that it is for.
* `Service.repositories_apart`: the two together.
-/

namespace RegistryGraph

/-! ## Sessions -/

/-- Nothing that happens to a session moves it to another repository. -/
theorem StreamStep.repo_eq {stream stream' : EventStream} {session session' : Session}
    {accepted : List Rpc.Request} {taken : List Event}
    (h : StreamStep stream session accepted taken stream' session') :
    session'.repo = session.repo := by
  cases h with
  | finish hsession _ => rcases hsession with rfl | rfl <;> rfl
  | _ => rfl

namespace Service

variable {s : Service} {n : Nat} {stream : EventStream} {session : Session} {name : RepoName}
  {t : FileTree} {uptime : Nat} {r : HttpRequest} {id : String}

/-- A session keeps its repository, and its stream the id. -/
theorem repo_run (hsound : s.Sound) (hshows : s.Shows n stream session)
    (events : List ServiceEvent) :
    ∃ stream' session', (s.run events).Shows n stream' session' ∧ stream'.id = stream.id ∧
      session'.repo = session.repo := by
  induction events generalizing s stream session with
  | nil => exact ⟨stream, session, hshows, rfl, rfl⟩
  | cons e rest ih =>
      obtain ⟨stream₁, session₁, hshows₁, hstep⟩ := streamStep_after hsound hshows e
      obtain ⟨stream', session', hshows', hid, hrepo⟩ := ih (hsound.after e) hshows₁
      exact ⟨stream', session', hshows', hid.trans hstep.keeps.1, hrepo.trans hstep.repo_eq⟩

/-- Whether requests for a repository can be posted to the session with an id. -/
def admits (s : Service) (name : RepoName) (id : String) : Bool :=
  match (s.sessions.find? id).bind s.sessions.session? with
  | none => false
  | some session => session.repo = name.text

/-- Posting to a session of another repository is refused and changes nothing. -/
theorem postToSession_of_not_admits (h : s.admits name id = false) :
    s.postToSession name id r = (s, .error .unknownSession) := by
  rw [postToSession]
  rw [admits] at h
  cases hsession : (s.sessions.find? id).bind s.sessions.session? with
  | none => rfl
  | some session =>
      rw [hsession] at h
      dsimp only
      rw [if_pos (of_decide_eq_false h)]

/-- A path that leads to no repository changes nothing. -/
theorem respond_of_no_repository (h : r.repository? = none) : (s.respond t uptime r).1 = s := by
  rw [respond]
  dsimp only
  rw [HttpRequest.repository?] at h
  cases hroute : Route.ofPath? r.target.path with
  | none => rfl
  | some route =>
      cases route with
      | health => rfl
      | repository owner repo =>
          rw [hroute] at h
          dsimp only at h
          rw [respondOn]
          cases hdecode : RepoName.decode owner repo with
          | error part => rfl
          | ok name =>
              rw [hdecode] at h
              cases h

/-- A request that is posted to a session. -/
theorem respond_of_post (hpost : r.method = "POST") (hid : r.sessionId? = some id)
    (hname : r.repository? = some name) :
    s.respond t uptime r =
      ((s.postToSession name id r).1,
        (responseOf (s.postToSession name id r).2).withHeaders sharingHeaders) := by
  have hhead : r.method ≠ "HEAD" := by
    rw [hpost]
    decide
  rw [respond_of_repository hname hhead]
  simp only [respondAt, hpost, hid]

/-- Session `n` has the id and belongs to the repository: only requests for it reach the session. -/
structure BoundTo (name : RepoName) (n : Nat) (id : String) (s : Service) : Prop where
  belongs : ∃ stream session, s.Shows n stream session ∧ stream.id = id ∧ session.repo = name.text
  /-- The id leads to no other session. -/
  leads : ∀ m, s.sessions.find? id = some m → m = n
  /-- Whoever is let in at this moment, and posts at a later one, posts for the repository. -/
  admitted : ∀ name', s.admits name' id = true → name' = name
  /-- A request that changes the session is one for its repository, posted with the id. -/
  reached : ∀ t uptime r, (s.respond t uptime r).1.sessions.session? n ≠ s.sessions.session? n →
    r.method = "POST" ∧ r.sessionId? = some id ∧ r.repository? = some name
  /-- Any other repository is told that there is no such session, and nothing changes. -/
  refused : ∀ t uptime r name', r.method = "POST" → r.sessionId? = some id →
    r.repository? = some name' → name' ≠ name →
      s.respond t uptime r =
        (s, (HttpResponse.plain 404 "unknown session").withHeaders sharingHeaders)

/-- What is decided about a repository by the text of its name is decided by its name. -/
theorem boundTo_of_shows (hsound : s.Sound) (hshows : s.Shows n stream session)
    (hproper : name.isProper = true) (hrepo : session.repo = name.text) :
    BoundTo name n stream.id s := by
  have hid : stream.id = s.sessions.ids.draw n := hsound.id_eq n stream hshows.1
  have hleads : ∀ m, s.sessions.find? stream.id = some m → m = n := by
    intro m hfind
    have hm : stream.id = s.sessions.ids.draw m := hsound.sessions.found _ m hfind
    exact hsound.sessions.fresh m n (hm.symm.trans hid)
  have hadmitted : ∀ name', s.admits name' stream.id = true → name' = name := by
    intro name' hadmits
    rw [admits] at hadmits
    cases hfind : s.sessions.find? stream.id with
    | none =>
        rw [hfind] at hadmits
        cases hadmits
    | some m =>
        obtain rfl := hleads m hfind
        rw [hfind, Option.bind_some, hshows.2] at hadmits
        have htext : session.repo = name'.text := of_decide_eq_true hadmits
        exact RepoName.eq_of_text_eq hproper (htext.symm.trans hrepo)
  have hrefused : ∀ t uptime r name', r.method = "POST" → r.sessionId? = some stream.id →
      r.repository? = some name' → name' ≠ name →
        s.respond t uptime r =
          (s, (HttpResponse.plain 404 "unknown session").withHeaders sharingHeaders) := by
    intro t uptime r name' hpost hnames hname hne
    have hnot : s.admits name' stream.id = false := by
      cases hadmits : s.admits name' stream.id with
      | false => rfl
      | true => exact absurd (hadmitted name' hadmits) hne
    rw [respond_of_post hpost hnames hname, postToSession_of_not_admits hnot]
    rfl
  refine ⟨⟨stream, session, hshows, rfl, hrepo⟩, hleads, hadmitted, ?_, hrefused⟩
  intro t uptime r hchanged
  cases handled_respond s t uptime r with
  | kept hsessions => exact absurd (by rw [hsessions]) hchanged
  | @opened _ _ _ number _ _ _ hregistered hsessions =>
      -- A new session does not touch those that are there.
      refine absurd ?_ hchanged
      have hnumber := (SessionRegistry.register?_eq_some hregistered).1
      have hlt : n < s.sessions.sessions.length := (List.getElem?_eq_some_iff.1 hshows.2).1
      rw [hsessions, SessionRegistry.session?_register hregistered, if_neg (by omega)]
  | @queued id number _ request hpost hnames hfound _ _ haccepted =>
      have hnumber : number = n := by
        apply Classical.byContradiction
        intro hne
        apply hchanged
        have hsessions : (s.respond t uptime r).1.sessions =
            (s.sessions.post number request).1 := by rw [haccepted]
        rw [hsessions, SessionRegistry.session?_post_eq, hshows.2, Option.map_some, if_neg hne]
      have hmine : id = stream.id := by
        rw [hid, ← hnumber]
        exact hsound.sessions.found id number hfound
      rw [hmine] at hnames
      refine ⟨hpost, hnames, ?_⟩
      cases hname : r.repository? with
      | none => exact absurd (by rw [respond_of_no_repository hname]) hchanged
      | some name' =>
          by_cases heq : name' = name
          · rw [heq]
          · exact absurd (by rw [hrefused t uptime r name' hpost hnames hname heq]) hchanged

/-- **A session that is opened on a repository is bound to it for ever.** -/
theorem boundTo_run {settings : Settings} {root : String} {supply : IdSupply}
    {before : List ServiceEvent} (hs : s = (start settings root supply).run before)
    (hbody : (s.respond t uptime r).2.body = .stream n) :
    ∃ name id, r.repository? = some name ∧
      (HttpRequest.sessionHeader, id) ∈ (s.respond t uptime r).2.headers ∧
      ∀ between, BoundTo name n id ((s.respond t uptime r).1.run between) := by
  have hsound : s.Sound := hs ▸ (sound_start settings root supply).run before
  have hhandled := handled_respond s t uptime r
  have hsound' := hsound.handled hhandled
  cases hhandled with
  | kept _ _ hunopened => exact absurd hbody (hunopened n)
  | queued _ _ _ _ _ _ _ hunopened => exact absurd hbody (hunopened n)
  | @opened name context sessions number _ hleads hloaded hregistered hsessions hstreams _ hbody'
      htells =>
      obtain rfl : number = n := HttpBody.stream.inj (hbody'.symm.trans hbody)
      have hnumber := (SessionRegistry.register?_eq_some hregistered).1
      have hproper : name.isProper = true := by
        rw [contextOf] at hloaded
        cases hdirectory : s.store.directory? t name with
        | none =>
            rw [hdirectory] at hloaded
            cases hloaded
        | some directory => exact (RepoStore.directory?_eq_some_iff.1 hdirectory).1
      have hshows : (s.respond t uptime r).1.Shows number
          (.fresh (s.sessions.nextId) context r.target.path)
          (.fresh (s.sessions.nextId) name.text) := by
        constructor
        · rw [hstreams, hnumber, ← hsound.length_eq, List.getElem?_concat_length]
        · rw [hsessions, SessionRegistry.session?_register hregistered, if_pos rfl]
      refine ⟨name, s.sessions.nextId, hleads, htells, ?_⟩
      intro between
      obtain ⟨stream, session, hshows', hid, hrepo⟩ := repo_run hsound' hshows between
      have hid' : stream.id = s.sessions.nextId := hid
      rw [← hid']
      exact boundTo_of_shows (hsound'.run between) hshows' hproper hrepo

end Service

/-! ## Snapshots -/

/-- A loading is labelled with the repository that it is started for. -/
theorem Loading.repo_start {directory repo : String} {answer : Except FileFault Octets}
    {l : Loading} (h : start directory repo answer = .ok l) : l.repo = repo := by
  cases answer with
  | error fault => cases h
  | ok octets =>
      rw [start] at h
      cases hload : Declaration.load octets repo with
      | error failure =>
          rw [hload] at h
          cases h
      | ok declaration =>
          rw [hload] at h
          cases h
          rfl

/-- A step of loading keeps the label. -/
theorem Loading.repo_advance (t : FileTree) (directory : String) (l : Loading) :
    (l.advance t directory).repo = l.repo := by
  rw [advance]
  split
  · rfl
  · rw [supply]
    split
    · rfl
    · split <;> rfl

/-- Every stored snapshot is labelled with the name under which it is stored. -/
def RepoStore.Labelled (store : RepoStore) : Prop :=
  ∀ (key : String) (stored : StoredSnapshot), store.snapshots[key]? = some stored →
    stored.snapshot.repo = key

/-- What a call has in hand belongs to the repository that it is for. -/
def SnapshotCall.BelongsTo (name : RepoName) : SnapshotCall → Prop
  | .resolve | .done (.error _) => True
  | .check _ | .readDeclaration _ => name.isProper = true
  | .readSources _ l => name.isProper = true ∧ l.repo = name.text
  | .takeStamps _ s | .insert _ s => name.isProper = true ∧ s.repo = name.text
  | .done (.ok stored) => name.isProper = true ∧ stored.snapshot.repo = name.text

/-- A snapshot that is stored under its own label keeps the store labelled. -/
theorem RepoStore.Labelled.insert {store : RepoStore} (h : store.Labelled) {name : RepoName}
    {s : Snapshot} (hrepo : s.repo = name.text) (stamps : List (Option FileStamp)) :
    (store.insert name stamps s).1.Labelled := by
  intro key stored hstored
  rw [RepoStore.insert, Std.ExtTreeMap.getElem?_insert] at hstored
  split at hstored
  next heq =>
    cases hstored
    exact hrepo.trans (Std.LawfulEqCmp.eq_of_compare heq)
  next => exact h key stored hstored

/-- **One step of a call.** -/
theorem RepoStore.Labelled.step {store : RepoStore} {name : RepoName} {call : SnapshotCall}
    (h : store.Labelled) (hcall : call.BelongsTo name) (t : FileTree) :
    (call.step t name store).1.Labelled ∧ (call.step t name store).2.BelongsTo name := by
  cases call with
  | resolve =>
      rw [SnapshotCall.step]
      cases hdirectory : store.directory? t name with
      | none => exact ⟨h, trivial⟩
      | some directory => exact ⟨h, (RepoStore.directory?_eq_some_iff.1 hdirectory).1⟩
  | check directory =>
      rw [SnapshotCall.step]
      cases hcurrent : store.current? t name directory with
      | none => exact ⟨h, hcall⟩
      | some stored =>
          have hstored := (Option.filter_eq_some_iff.1 hcurrent).1
          exact ⟨h, hcall, h name.text stored hstored⟩
  | readDeclaration directory =>
      rw [SnapshotCall.step]
      cases hstart : Loading.start directory name.text
          (t.read (Loading.declarationPath directory)) with
      | error failure => exact ⟨h, trivial⟩
      | ok l => exact ⟨h, hcall, Loading.repo_start hstart⟩
  | readSources directory l =>
      obtain ⟨hproper, hrepo⟩ := hcall
      rw [SnapshotCall.step]
      split
      · exact ⟨h, hproper, hrepo⟩
      · exact ⟨h, hproper, (Loading.repo_advance t directory l).trans hrepo⟩
  | takeStamps directory s => exact ⟨h, hcall⟩
  | insert stamps s => exact ⟨h.insert hcall.2 stamps, hcall⟩
  | done outcome => exact ⟨h, hcall⟩

namespace SharedStore

variable {names : Nat → RepoName} {w : SharedStore}

/-- **Run.** -/
theorem labelled_run (h : w.store.Labelled) (hcalls : ∀ i, (w.call i).BelongsTo (names i))
    (events : List SharedEvent) :
    (w.run names events).store.Labelled ∧
      ∀ i, ((w.run names events).call i).BelongsTo (names i) := by
  induction events generalizing w with
  | nil => exact ⟨h, hcalls⟩
  | cons event rest ih =>
      cases event with
      | change c => exact ih h hcalls
      | step i =>
          obtain ⟨hstore, hcall⟩ := h.step (hcalls i) w.tree
          refine ih hstore ?_
          intro j
          by_cases hj : j = i
          · subst hj
            simpa only [next, Function.update_self] using hcall
          · simpa only [next, Function.update_of_ne hj] using hcalls j

/-- No snapshot is shared by two repositories: neither in the store, nor by what calls have handed
out. -/
structure Apart (names : Nat → RepoName) (w : SharedStore) : Prop where
  stored : ∀ name name' directory directory' a b,
    w.store.directory? w.tree name = some directory →
    w.store.directory? w.tree name' = some directory' → name ≠ name' →
    w.store.snapshots[name.text]? = some a → w.store.snapshots[name'.text]? = some b →
      a.snapshot ≠ b.snapshot
  handed : ∀ i j a b, w.call i = .done (.ok a) → w.call j = .done (.ok b) → names i ≠ names j →
    a.snapshot ≠ b.snapshot
  own : ∀ i a, w.call i = .done (.ok a) → a.snapshot.repo = (names i).text

/-- **Any interleaving** keeps the snapshots of repositories apart. -/
theorem apart_run (names : Nat → RepoName) (root : String) (t : FileTree)
    (events : List SharedEvent) : Apart names ((start root t).run names events) := by
  have hempty : (start root t).store.Labelled := by
    intro key stored hstored
    simp [start, RepoStore.ofRoot] at hstored
  have hresolve : ∀ i, ((start root t).call i).BelongsTo (names i) := fun _ => trivial
  obtain ⟨hlabelled, hcalls⟩ := labelled_run hempty hresolve events
  have hown : ∀ i a, ((start root t).run names events).call i = .done (.ok a) →
      (names i).isProper = true ∧ a.snapshot.repo = (names i).text := by
    intro i a hdone
    have hcall := hcalls i
    rw [hdone] at hcall
    exact hcall
  constructor
  case stored =>
    intro name name' directory directory' a b hdirectory _ hne ha hb hsame
    have hproper := (RepoStore.directory?_eq_some_iff.1 hdirectory).1
    apply hne
    apply Eq.symm
    apply RepoName.eq_of_text_eq hproper
    rw [← hlabelled _ a ha, ← hlabelled _ b hb, hsame]
  case handed =>
    intro i j a b ha hb hne hsame
    obtain ⟨hproper, hrepo⟩ := hown i a ha
    have hrepo' := (hown j b hb).2
    apply hne
    apply Eq.symm
    apply RepoName.eq_of_text_eq hproper
    rw [← hrepo, ← hrepo', hsame]
  case own =>
    intro i a ha
    exact (hown i a ha).2

end SharedStore

namespace Service

/-- **Repositories keep apart.**  A session that is opened on a repository can be reached only by
requests for this repository, whatever has happened in between and however the parts of the name in
the path are encoded; and no call for a snapshot gets one that belongs to another repository. -/
theorem repositories_apart (settings : Settings) (root : String) (supply : IdSupply)
    (names : Nat → RepoName) :
    (∀ (before : List ServiceEvent) (t : FileTree) (uptime : Nat) (r : HttpRequest) (n : Nat),
      let s := (start settings root supply).run before
      (s.respond t uptime r).2.body = .stream n →
        ∃ name id, r.repository? = some name ∧
          (HttpRequest.sessionHeader, id) ∈ (s.respond t uptime r).2.headers ∧
          ∀ between, BoundTo name n id ((s.respond t uptime r).1.run between)) ∧
      ∀ (t : FileTree) (events : List SharedEvent),
        SharedStore.Apart names ((SharedStore.start root t).run names events) := by
  constructor
  · intro before t uptime r n s hbody
    exact boundTo_run rfl hbody
  · intro t events
    exact SharedStore.apart_run names root t events

/-- A request with the id of the new session, for a repository whose owner has a separator in its
name. -/
def foreignRequest : HttpRequest :=
  ⟨"POST", ⟨"/o%2Fr/x/mcp", "sessionId=00000000000000000000000000000000"⟩, [], []⟩

/-- It is refused, while the repository of the session is let in. -/
theorem repositories_apart_foreign :
    ((start .default "" .hexadecimal).respond oneSourceTree 0 streamRequest).2.body = .stream 0 ∧
      streamService.admits ⟨"o", "r"⟩ (IdSupply.hexadecimal.id 0) = true ∧
      streamService.respond oneSourceTree 0 foreignRequest =
        (streamService, (HttpResponse.plain 404 "unknown session").withHeaders sharingHeaders) := by
  obtain ⟨store, cache, context, hbody, hservice⟩ := exists_streamService
  obtain ⟨name, id, hname, _, hbound⟩ :=
    (repositories_apart .default "" .hexadecimal fun _ => ⟨"o", "r"⟩).1 [] oneSourceTree 0
      streamRequest 0 hbody
  obtain rfl : name = ⟨"o", "r"⟩ := by
    have hown : streamRequest.repository? = some ⟨"o", "r"⟩ := by decide +kernel
    exact Option.some.inj (hname.symm.trans hown)
  have hnow : BoundTo ⟨"o", "r"⟩ 0 id streamService := hbound []
  obtain ⟨stream, session, hshows, hid, _⟩ := hnow.belongs
  obtain rfl : id = IdSupply.hexadecimal.id 0 := by
    have hstream : streamService.streams[0]? =
        some (.fresh (IdSupply.hexadecimal.id 0) context "/o/r/mcp") := by
      rw [hservice]
      rfl
    rw [← hid, Option.some.inj (hshows.1.symm.trans hstream)]
    rfl
  have hadmits : streamService.admits ⟨"o", "r"⟩ (IdSupply.hexadecimal.id 0) = true := by
    have hfind : ((∅ : Keyed Nat).insert (IdSupply.hexadecimal.id 0) 0)[
        IdSupply.hexadecimal.id 0]? = some 0 := by decide +kernel
    rw [hservice, admits, SessionRegistry.find?]
    dsimp only
    rw [hfind]
    decide
  have hnames : foreignRequest.sessionId? = some (IdSupply.hexadecimal.id 0) := by decide +kernel
  have hforeign : foreignRequest.repository? = some ⟨"o/r", "x"⟩ := by decide +kernel
  exact ⟨hbody, hadmits,
    hnow.refused oneSourceTree 0 foreignRequest ⟨"o/r", "x"⟩ rfl hnames hforeign (by decide)⟩

end Service

end RegistryGraph
