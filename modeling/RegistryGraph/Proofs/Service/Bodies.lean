import RegistryGraph.Service.Answer

/-!
# Bodies that arrive in parts

A body is collected part by part.  Collecting ends early, at the first part with which the body would be too
large or at which the connection fails, whichever comes first.  Nevertheless it is only the octets in front of
a failure that decide: how they are split into parts makes no difference.

* `BodyPart.arrivals`: what arrives in front of a failure.
* `Collects`: the stages through which a body is collected.
* `collectBody_eq`: what collecting comes to.
* `Service.body_read`: how a service reads the body of a request.
-/

namespace RegistryGraph

/-- The octets of the parts in front of the first failure, part by part. -/
def BodyPart.arrivals : List BodyPart → List Octets
  | .data octets :: rest => octets :: arrivals rest
  | _ => []

open BodyPart (arrivals)

variable {limit : Nat} {arrived octets : Octets} {parts rest : List BodyPart}

/-- Without a failure every part arrives. -/
theorem arrivals_map_data (chunks : List Octets) : arrivals (chunks.map .data) = chunks := by
  induction chunks with
  | nil => rfl
  | cons octets rest ih => rw [List.map_cons, arrivals, ih]

/-! ## Stages -/

/-- The stages of collecting a body of at most `limit` octets: what has been kept of the parts that are
done, and the parts that are still to come. -/
inductive Collects (limit : Nat) (parts : List BodyPart) : Octets → List BodyPart → Prop where
  | start : Collects limit parts [] parts
  | data {arrived octets : Octets} {rest : List BodyPart}
      (stage : Collects limit parts arrived (.data octets :: rest))
      (fits : arrived.length + octets.length ≤ limit) : Collects limit parts (arrived ++ octets) rest

/-- What is kept never exceeds the limit. -/
theorem Collects.length_le (h : Collects limit parts arrived rest) : arrived.length ≤ limit := by
  cases h with
  | start => exact Nat.zero_le limit
  | data _ hfits => rwa [List.length_append]

/-- Every stage is one of collecting the whole. -/
theorem Collects.collectBody_eq (h : Collects limit parts arrived rest) :
    collectBody limit [] parts = collectBody limit arrived rest := by
  induction h with
  | start => rfl
  | data _ hfits ih => rw [ih, collectBody, if_neg (by omega)]

/-- Nothing is lost at any stage. -/
theorem Collects.flatten_eq (h : Collects limit parts arrived rest) :
    (arrivals parts).flatten = arrived ++ (arrivals rest).flatten := by
  induction h with
  | start => rfl
  | data _ _ ih => rw [ih, arrivals, List.flatten_cons, List.append_assoc]

/-- No failure is passed over. -/
theorem Collects.failure_mem_iff (h : Collects limit parts arrived rest) :
    .failure ∈ parts ↔ .failure ∈ rest := by
  induction h with
  | start => exact Iff.rfl
  | data _ _ ih => simpa using ih

/-- How collecting ends at a stage at which it does. -/
inductive Ends (limit : Nat) (arrived : Octets) : List BodyPart → Except BodyFault Octets → Prop where
  | done : Ends limit arrived [] (.ok arrived)
  | broken {rest : List BodyPart} : Ends limit arrived (.failure :: rest) (.error .broken)
  | tooLarge {octets : Octets} {rest : List BodyPart}
      (exceeds : limit < arrived.length + octets.length) : Ends limit arrived (.data octets :: rest) (.error .tooLarge)

/-- From every stage on, collecting goes through stages to an end. -/
theorem Collects.exists_ends (h : Collects limit parts arrived rest) :
    ∃ kept left, Collects limit parts kept left ∧ Ends limit kept left (collectBody limit arrived rest) := by
  induction rest generalizing arrived with
  | nil => exact ⟨arrived, [], h, .done⟩
  | cons part rest ih =>
      cases part with
      | failure => exact ⟨arrived, _, h, .broken⟩
      | data octets =>
          rw [collectBody]
          by_cases hexceeds : limit < arrived.length + octets.length
          · rw [if_pos hexceeds]
            exact ⟨arrived, _, h, .tooLarge hexceeds⟩
          · rw [if_neg hexceeds]
            exact ih (h.data (by omega))

/-! ## What collecting comes to -/

/-- **What collecting comes to** is decided by the octets in front of a failure. -/
theorem collectBody_eq (limit : Nat) (parts : List BodyPart) :
    collectBody limit [] parts =
      if limit < (arrivals parts).flatten.length then .error .tooLarge
      else if .failure ∈ parts then .error .broken
      else .ok (arrivals parts).flatten := by
  have hstart : Collects limit parts [] parts := .start
  obtain ⟨kept, left, hstage, hends⟩ := hstart.exists_ends
  have hkept : kept.length ≤ limit := hstage.length_le
  generalize collectBody limit [] parts = outcome at hends ⊢
  simp only [hstage.flatten_eq, hstage.failure_mem_iff, List.length_append]
  cases hends with
  | done =>
      have hnothing : (arrivals []).flatten = [] := rfl
      rw [hnothing, if_neg (by simpa using hkept), if_neg List.not_mem_nil, List.append_nil]
  | broken =>
      have hnothing : ∀ rest, (arrivals (.failure :: rest)).flatten = [] := fun _ => rfl
      rw [hnothing, if_neg (by simpa using hkept), if_pos List.mem_cons_self]
  | tooLarge hexceeds =>
      rw [arrivals, List.flatten_cons, List.length_append, if_pos (by omega)]

/-- A body is too large exactly if more arrives than the limit allows. -/
theorem collectBody_eq_tooLarge_iff :
    collectBody limit [] parts = .error .tooLarge ↔ limit < (arrivals parts).flatten.length := by
  rw [collectBody_eq]
  by_cases hlarge : limit < (arrivals parts).flatten.length
  · rw [if_pos hlarge]
    exact iff_of_true rfl hlarge
  · rw [if_neg hlarge]
    refine iff_of_false ?_ hlarge
    split <;> exact nofun

/-- A body is broken exactly if a part fails and no more arrives than is allowed. -/
theorem collectBody_eq_broken_iff :
    collectBody limit [] parts = .error .broken ↔
      .failure ∈ parts ∧ (arrivals parts).flatten.length ≤ limit := by
  rw [collectBody_eq]
  by_cases hlarge : limit < (arrivals parts).flatten.length
  · rw [if_pos hlarge]
    exact iff_of_false nofun (by omega)
  · rw [if_neg hlarge]
    by_cases hbroken : .failure ∈ parts
    · rw [if_pos hbroken]
      exact iff_of_true rfl ⟨hbroken, by omega⟩
    · rw [if_neg hbroken]
      exact iff_of_false nofun fun h => hbroken h.1

/-- A body is read exactly if no part fails and no more arrives than is allowed. -/
theorem collectBody_eq_ok_iff :
    collectBody limit [] parts = .ok octets ↔
      .failure ∉ parts ∧ (arrivals parts).flatten.length ≤ limit ∧ octets = (arrivals parts).flatten := by
  rw [collectBody_eq]
  by_cases hlarge : limit < (arrivals parts).flatten.length
  · rw [if_pos hlarge]
    exact iff_of_false nofun (by omega)
  · rw [if_neg hlarge]
    by_cases hbroken : .failure ∈ parts
    · rw [if_pos hbroken]
      exact iff_of_false nofun fun h => h.1 hbroken
    · rw [if_neg hbroken, Except.ok.injEq]
      constructor
      · intro heq
        exact ⟨hbroken, by omega, heq.symm⟩
      · exact fun h => h.2.2.symm

/-! ## Reading the body of a request -/

/-- **How a body is read.**  It is refused as too large just in case the octets in front of a failure are
more than the limit, and as broken just in case there is a failure and they are not; otherwise it is what the
parts are together.  Of a body without failures only these octets count, and no more than the limit is kept
at any stage. -/
structure BodyRead (limit : Nat) (parts : List BodyPart) (outcome : Except Refusal Octets) : Prop where
  tooLarge_iff : (∃ refusal, outcome = .error refusal ∧
      refusal.response = .plain 413 "request body too large") ↔
    limit < (arrivals parts).flatten.length
  broken_iff : (∃ refusal, outcome = .error refusal ∧
      refusal.response = .plain 400 "failed to read request body") ↔
    .failure ∈ parts ∧ (arrivals parts).flatten.length ≤ limit
  read_iff : ∀ octets, outcome = .ok octets ↔
    .failure ∉ parts ∧ (arrivals parts).flatten.length ≤ limit ∧ octets = (arrivals parts).flatten
  unsplit : ∀ chunks : List Octets, parts = chunks.map .data →
    outcome =
      if limit < chunks.flatten.length then .error (.body .tooLarge) else .ok chunks.flatten
  staged : ∃ kept left ending, Collects limit parts kept left ∧ Ends limit kept left ending ∧
    outcome = ending.mapError .body
  kept_le : ∀ kept left, Collects limit parts kept left →
    kept.length ≤ limit ∧ (arrivals parts).flatten = kept ++ (arrivals left).flatten

/-- The refusals of bodies differ in their responses. -/
theorem refused_iff {outcome : Except BodyFault Octets} (fault : BodyFault) :
    (∃ refusal, outcome.mapError Refusal.body = .error refusal ∧
      refusal.response = (Refusal.body fault).response) ↔ outcome = .error fault := by
  constructor
  · rintro ⟨refusal, heq, hresponse⟩
    cases outcome with
    | ok octets => cases heq
    | error fault' =>
        obtain rfl := Except.error.inj heq
        have hstatus := congrArg HttpResponse.status hresponse
        cases fault with
        | tooLarge =>
            cases fault' with
            | tooLarge => rfl
            | broken => exact absurd hstatus (by decide)
        | broken =>
            cases fault' with
            | tooLarge => exact absurd hstatus (by decide)
            | broken => rfl
  · rintro rfl
    exact ⟨_, rfl, rfl⟩

/-- A fault that is worded as a refusal does not change what is read. -/
theorem mapError_eq_ok_iff {outcome : Except BodyFault Octets} :
    outcome.mapError Refusal.body = .ok octets ↔ outcome = .ok octets := by
  constructor
  · intro h
    cases outcome with
    | ok octets' => cases h; rfl
    | error fault => cases h
  · rintro rfl
    rfl

/-- **A service reads bodies like this.** -/
theorem Service.body_read (s : Service) (r : HttpRequest) :
    BodyRead s.settings.maxBodySize r.body (s.bodyOf r) where
  tooLarge_iff := (refused_iff .tooLarge).trans collectBody_eq_tooLarge_iff
  broken_iff := (refused_iff .broken).trans collectBody_eq_broken_iff
  read_iff _ := mapError_eq_ok_iff.trans collectBody_eq_ok_iff
  unsplit := by
    intro chunks hchunks
    have hfailure : .failure ∉ r.body := by
      rw [hchunks]
      simp
    rw [bodyOf, collectBody_eq, if_neg hfailure, hchunks, arrivals_map_data]
    split <;> rfl
  staged := by
    have hstart : Collects s.settings.maxBodySize r.body [] r.body := .start
    obtain ⟨kept, left, hstage, hends⟩ := hstart.exists_ends
    exact ⟨kept, left, _, hstage, hends, rfl⟩
  kept_le _ _ hstage := ⟨hstage.length_le, hstage.flatten_eq⟩

end RegistryGraph
