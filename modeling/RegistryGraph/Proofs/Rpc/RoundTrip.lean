import RegistryGraph.Proofs.Json.RoundTrip
import RegistryGraph.Proofs.Rpc.Decisions

/-!
# Requests read back

Whoever writes a request writes its members in their own order, and leaves out parameters that are absent.
The reader looks the members up in any order.  It gets the same request, and tells parameters that are
absent from parameters that are null.

* `Rpc.Request.parse_serialize_iff`: a request is read as it was written, up to the depth of the reader.
-/

namespace RegistryGraph.Rpc

/-- An id is read back from its JSON value. -/
theorem MessageId.ofJson?_toJson (id : MessageId) : ofJson? id.toJson = some id := by
  cases id <;> rfl

namespace Request

/-- Whether a request is one without floating-point numbers, with the members of its parameters in
order. -/
structure IsExact (r : Request) : Prop where
  exact_id : r.id.toJson.IsExact
  exact_params : ∀ params, r.params = some params → params.IsExact ∧ params.IsOrdered

variable {r : Request}

/-- The JSON value of an exact request is exact. -/
theorem IsExact.toJson (h : r.IsExact) : r.toJson.IsExact := by
  refine .object ?_
  intro m hm
  rcases List.mem_append.1 hm with hfixed | hparams
  · simp only [List.mem_cons, List.not_mem_nil, or_false] at hfixed
    rcases hfixed with rfl | rfl | rfl
    · exact .string version
    · exact h.exact_id
    · exact .string r.method
  · cases hr : r.params with
    | none =>
        rw [hr] at hparams
        cases hparams
    | some params =>
        rw [hr] at hparams
        obtain rfl := List.mem_singleton.1 hparams
        exact (h.exact_params params hr).1

/-- The parameters of an exact request are canonical. -/
theorem IsExact.canonical_params (h : r.IsExact) : r.params.map Json.canonical = r.params := by
  cases hr : r.params with
  | none => rfl
  | some params =>
      rw [Option.map_some, Json.canonical_of_isOrdered (h.exact_params params hr).2]

/-- What is found under the keys of a request that has been written. -/
theorem last?_toJson (r : Request) :
    r.toJson.last? "jsonrpc" = some (.string version) ∧ r.toJson.last? "id" = some r.id.toJson ∧
      r.toJson.last? "method" = some (.string r.method) ∧ r.toJson.last? "params" = r.params := by
  rw [toJson]
  cases r.params with
  | none => exact ⟨rfl, rfl, rfl, rfl⟩
  | some params => exact ⟨rfl, rfl, rfl, rfl⟩

/-- The members of a request that has been written, in any order, are the request. -/
theorem ofMembers_toJson {members : List (String × Json)} (h : r.IsExact)
    (hcanonical : r.toJson.canonical = .object members) : ofMembers members = .ok r := by
  obtain ⟨hversion, hid, hmethod, hparams⟩ := r.last?_toJson
  have hgivenId : givenId (some r.toJson) = r.id.toJson := by
    rw [givenId, Option.bind_some, hid, Option.getD_some]
  have hgivenVersion : givenText (some r.toJson) "jsonrpc" = some version := by
    rw [givenText, Option.bind_some, hversion]
    rfl
  have hgivenMethod : givenText (some r.toJson) "method" = some r.method := by
    rw [givenText, Option.bind_some, hmethod]
    rfl
  have hgivenParams : Json.member? members "params" = r.params := by
    rw [member?_of_canonical hcanonical, hparams, h.canonical_params]
  rw [ofMembers, ofJson?_of_canonical hcanonical, hgivenId, MessageId.ofJson?_toJson]
  dsimp only
  rw [text_of_canonical hcanonical, hgivenVersion, if_neg (not_not.2 rfl),
    text_of_canonical hcanonical, hgivenMethod, hgivenParams]

/-- **A request is read as it was written**, exactly if it is nested no more deeply than the reader goes.
Parameters that are absent stay absent, and null stays null. -/
theorem parse_serialize_iff (r : Request) (h : r.IsExact) :
    parse (Utf8.encode r.serialize) = .ok r ↔ r.toJson.depth < Json.depthLimit := by
  obtain ⟨hread, hrefused⟩ := Json.parseRaw_compact h.toJson
  obtain ⟨members, hcanonical⟩ : ∃ members, r.toJson.canonical = .object members := ⟨_, rfl⟩
  rw [parse, Json.parse, serialize]
  constructor
  · intro hparse
    by_contra hdeep
    obtain ⟨e, herror, _⟩ := hrefused hdeep
    rw [herror] at hparse
    cases hparse
  · intro hdepth
    rw [hread hdepth, Except.map, hcanonical]
    exact ofMembers_toJson h hcanonical

/-- A request with a negative id, a quoted name and parameters of every kind. -/
def nestedRequest : Request where
  id := .number (.integer (-7))
  method := "\"tools\"\n"
  params := some (.object
    [("list", .array [.null, .bool true, .number (.integer 18446744073709551615), .array []]),
      ("text", .string "\x01\\é"), ("union", .object [])])

/-- The nested request is exact. -/
theorem isExact_nestedRequest : nestedRequest.IsExact where
  exact_id := .integer (by decide) (by decide)
  exact_params := by
    intro params hparams
    obtain rfl := Option.some.inj hparams
    have hnone {P : Json → Prop} : ∀ v ∈ ([] : List Json), P v := List.forall_mem_nil P
    have hnone' {P : String × Json → Prop} : ∀ m ∈ ([] : List (String × Json)), P m :=
      List.forall_mem_nil P
    constructor
    · refine .object ?_
      simp only [List.forall_mem_cons]
      refine ⟨.array ?_, .string _, .object hnone', hnone'⟩
      simp only [List.forall_mem_cons]
      exact ⟨.null, .bool true, .integer (by decide) (by decide), .array hnone, hnone⟩
    · refine .object (by decide) ?_
      simp only [List.forall_mem_cons]
      refine ⟨.array ?_, .string _, .object .nil hnone', hnone'⟩
      simp only [List.forall_mem_cons]
      exact ⟨.null, .bool true, .number _, .array hnone, hnone⟩

/-- The nested request is within the depth limit and is read back. -/
theorem parse_serialize_nestedRequest :
    nestedRequest.IsExact ∧ nestedRequest.toJson.depth < Json.depthLimit ∧
      parse (Utf8.encode nestedRequest.serialize) = .ok nestedRequest :=
  ⟨isExact_nestedRequest, by decide,
    (parse_serialize_iff nestedRequest isExact_nestedRequest).2 (by decide)⟩

end Request

end RegistryGraph.Rpc
