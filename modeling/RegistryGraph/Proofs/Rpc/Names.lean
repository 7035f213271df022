import RegistryGraph.Proofs.Rpc.Counting
import RegistryGraph.Proofs.Rpc.RoundTrip
import RegistryGraph.Proofs.Tool.Addresses
import RegistryGraph.Proofs.Tool.Outcome

/-!
# The names under which calls are counted

A call is counted under the name that the message gives, before anybody asks whether there is a tool of this
name.  So the table of the calls has the names that messages call for its keys: the tools are eight, but a
client can make the table as large as it likes.

* `SharedDispatch.NamesCounted`: which names the table has at every moment, and in the end.
* `SharedDispatch.exists_many_names`: there is no bound for their number.
* `SharedDispatch.names_counted`: both.
* `SharedDispatch.names_of_unknown`: a single message leaves the name of no tool.
-/

namespace RegistryGraph.Rpc

open Increment (tools)

namespace Handling

variable {ctx : ToolContext} {octets : Octets} {handling : Handling} {made : List Increment}

/-- All that is made for a message names the tool that it calls. -/
theorem tools_of_all (octets : Octets) (response : Option Response) :
    tools (openingFor octets ++ Dispatch.closing response) = (calledTool? octets).toList := by
  have hclosing : tools (Dispatch.closing response) = [] := by
    cases response with
    | none => rfl
    | some response =>
        rw [Dispatch.closing]
        split <;> rfl
  rw [tools, List.filterMap_append, ← tools, ← tools, hclosing, List.append_nil, openingFor_eq]
  cases calledTool? octets <;> rfl

/-- What has been made for a message names the tool that it calls, if it names any. -/
theorem Keeps.calledTool?_eq (h : Keeps ctx octets handling made) {name : String}
    (hname : name ∈ tools made) : calledTool? octets = some name := by
  obtain ⟨response, hbegins⟩ := h.exists_prefix
  have hmem := (hbegins.filterMap _).subset hname
  rw [← tools, tools_of_all] at hmem
  simpa using hmem

/-- When a message is done, its tool has been named. -/
theorem Keeps.mem_tools_of_done {response : Option Response} (h : Keeps ctx octets (.done response) made)
    {name : String} (hcalled : calledTool? octets = some name) : name ∈ tools made := by
  cases h with
  | done _ all =>
      rw [all, tools_of_all, hcalled]
      exact List.mem_singleton_self name

end Handling

namespace SharedDispatch

variable {d : SharedDispatch} {messages : List (ToolContext × Octets)} {turns : List Turn}
  {name : String}

/-- A name has been made if it has for one of the messages. -/
theorem mem_tools_made_iff : name ∈ tools d.made ↔ ∃ e ∈ d.entries, name ∈ tools e.made := by
  rw [made, tools, List.filterMap_flatMap, List.mem_flatMap]
  rfl

/-- The names under which calls have been counted after some steps. -/
def namesAfter (messages : List (ToolContext × Octets)) (turns : List Turn) : List String :=
  ((start messages).run turns).stats.callsByTool.keys

/-- The names in the table are those that have been made for the messages. -/
theorem mem_namesAfter_iff :
    name ∈ namesAfter messages turns ↔
      ∃ e ∈ ((start messages).run turns).entries, name ∈ tools e.made := by
  have hkept := (kept_start messages).run turns
  rw [namesAfter, Std.ExtTreeMap.mem_keys, Std.ExtTreeMap.mem_iff_isSome_getElem?,
    hkept.callsByTool_eq, ← mem_tools_made_iff]
  split
  next h => simp [h]
  next h => simp [h]

/-- The messages stay what they are while they are handled. -/
theorem mem_calledTools_iff_entry (turns : List Turn) :
    name ∈ calledTools messages ↔
      ∃ e ∈ ((start messages).run turns).entries, calledTool? e.octets = some name := by
  have hmessages : ((start messages).run turns).entries.map (fun e => (e.context, e.octets)) =
      messages := by
    rw [messages_run, start, List.map_map]
    exact List.map_id _
  have hcalled : calledTools messages =
      ((start messages).run turns).entries.filterMap fun e => calledTool? e.octets :=
    (congrArg calledTools hmessages).symm.trans List.filterMap_map
  rw [hcalled, List.mem_filterMap]

/-- **At every moment the names are such that messages call.** -/
theorem mem_calledTools_of_mem_namesAfter (h : name ∈ namesAfter messages turns) :
    name ∈ calledTools messages := by
  obtain ⟨e, he, hname⟩ := mem_namesAfter_iff.1 h
  have hkept := (kept_start messages).run turns
  exact (mem_calledTools_iff_entry turns).2 ⟨e, he, (hkept.keeps e he).calledTool?_eq hname⟩

/-- **In the end the names are all that messages call.** -/
theorem exists_all_named (messages : List (ToolContext × Octets)) :
    ∃ turns, ∀ name, name ∈ namesAfter messages turns ↔ name ∈ calledTools messages := by
  obtain ⟨turns, hdone⟩ := exists_all_done (start messages)
  have hkept := (kept_start messages).run turns
  refine ⟨turns, fun name => ⟨mem_calledTools_of_mem_namesAfter, fun hcalled => ?_⟩⟩
  obtain ⟨e, he, hcalled⟩ := (mem_calledTools_iff_entry turns).1 hcalled
  obtain ⟨response, hresponse⟩ := hdone e he
  have hkeeps := hkept.keeps e he
  rw [hresponse] at hkeeps
  exact mem_namesAfter_iff.2 ⟨e, he, hkeeps.mem_tools_of_done hcalled⟩

/-- The names that messages call although there is no tool of the name. -/
def unknownNames (messages : List (ToolContext × Octets)) : List String :=
  (calledTools messages).filter fun name => !Tool.isKnown name

/-- What names there are in the table of calls. -/
structure NamesCounted (messages : List (ToolContext × Octets)) : Prop where
  called : ∀ turns, ∀ name ∈ namesAfter messages turns, name ∈ calledTools messages
  complete : ∃ turns, ∀ name, name ∈ namesAfter messages turns ↔ name ∈ calledTools messages
  /-- They are the names of tools just in case no message calls another name. -/
  known_iff : (∀ turns, ∀ name ∈ namesAfter messages turns, Tool.isKnown name = true) ↔
    ∀ name ∈ calledTools messages, Tool.isKnown name = true
  length_le : ∀ turns, (namesAfter messages turns).length ≤ 8 + (unknownNames messages).dedup.length
  /-- A report of the statistics tells the same names. -/
  told : ∀ turns uptime name, name ∈ namesAfter messages turns ↔
    (((((start messages).run turns).stats.toJson uptime).get? "tool_call_counts").bind
      (·.get? name)).isSome = true

/-- A known name is the name of a tool. -/
theorem mem_names_of_isKnown (h : Tool.isKnown name = true) : name ∈ Tool.all.map Tool.name := by
  obtain ⟨tool, htool⟩ := Option.isSome_iff_exists.1 h
  rw [← Tool.name_of_ofName? htool]
  exact List.mem_map_of_mem (List.mem_of_find?_eq_some htool)

/-- The table of calls has the names that messages call. -/
theorem counts_names (messages : List (ToolContext × Octets)) : NamesCounted messages where
  called _ _ := mem_calledTools_of_mem_namesAfter
  complete := exists_all_named messages
  known_iff := by
    constructor
    · intro h name hcalled
      obtain ⟨turns, hall⟩ := exists_all_named messages
      exact h turns name ((hall name).2 hcalled)
    · exact fun h turns name hname => h name (mem_calledTools_of_mem_namesAfter hname)
  length_le turns := by
    have hsubset : namesAfter messages turns ⊆
        Tool.all.map Tool.name ++ (unknownNames messages).dedup := by
      intro name hname
      rw [List.mem_append, List.mem_dedup]
      by_cases hknown : Tool.isKnown name = true
      · exact .inl (mem_names_of_isKnown hknown)
      · refine .inr (List.mem_filter.2 ⟨mem_calledTools_of_mem_namesAfter hname, ?_⟩)
        simpa using hknown
    have hnodup : (namesAfter messages turns).Nodup := Std.ExtTreeMap.nodup_keys
    have hle := (List.subperm_of_subset hnodup hsubset).length_le
    rwa [List.length_append] at hle
  told turns uptime name := by
    rw [(tells_toJson _ uptime).calls, Option.isSome_map, namesAfter, Std.ExtTreeMap.mem_keys,
      Std.ExtTreeMap.mem_iff_isSome_getElem?]

end SharedDispatch

/-! ## As many names as one likes -/

/-- The request to call a tool of the given name. -/
def callRequest (name : String) : Request :=
  ⟨.number (.integer 1), "tools/call", some (.object [("name", .string name)])⟩

/-- A request to call a tool of any name is exact. -/
theorem isExact_callRequest (name : String) : (callRequest name).IsExact where
  exact_id := .integer (by decide) (by decide)
  exact_params := by
    intro params hparams
    obtain rfl := Option.some.inj hparams
    constructor
    · refine .object ?_
      simp only [List.forall_mem_singleton]
      exact .string name
    · refine .object (List.pairwise_singleton _ _) ?_
      simp only [List.forall_mem_singleton]
      exact .string name

/-- A serialized call is read back. -/
theorem parse_callRequest (name : String) :
    Request.parse (Utf8.encode (callRequest name).serialize) = .ok (callRequest name) := by
  have hexact := isExact_callRequest name
  have hdepth : (callRequest name).toJson.depth < Json.depthLimit := Nat.le_of_ble_eq_true rfl
  obtain ⟨members, hcanonical⟩ : ∃ members, (callRequest name).toJson.canonical = .object members :=
    ⟨_, rfl⟩
  rw [Request.parse, Json.parse, Request.serialize, (Json.parseRaw_compact hexact.toJson).1 hdepth,
    Except.map, hcanonical]
  exact Request.ofMembers_toJson hexact hcanonical

/-- Any name but the empty one can be called. -/
theorem calledTool?_callRequest {name : String} (h : name ≠ "") :
    calledTool? (Utf8.encode (callRequest name).serialize) = some name := by
  have hcommand : Command.ofRequest (callRequest name) = .ok (.callTool ⟨name, .object []⟩) := by
    have hfull : ¬name.isEmpty = true := by simpa using h
    have hcall : ToolCall.ofParams (callRequest name).params = .ok ⟨name, .object []⟩ := if_neg hfull
    have hmethod : (callRequest name).method = "tools/call" := rfl
    rw [Command.ofRequest, hmethod, if_neg (by decide), if_neg (by decide), if_pos rfl, hcall]
    rfl
  rcases calledTool?_of_accepted (parse_callRequest name) with ⟨call, hcall, _, hcalled⟩ | ⟨hnone, _⟩
  · rw [hcommand] at hcall
    obtain rfl : ToolCall.mk name (.object []) = call := Command.callTool.inj (Except.ok.inj hcall)
    exact hcalled
  · exact absurd hcommand (hnone _)

namespace SharedDispatch

/-- A context over an index without entities. -/
def bareContext : ToolContext := .ofIndex (.empty "f" "v")

/-- One call for every name. -/
def callsOf (names : List String) : List (ToolContext × Octets) :=
  names.map fun name => (bareContext, Utf8.encode (callRequest name).serialize)

/-- Calls of names call these names, unless a name is empty. -/
theorem calledTools_callsOf {names : List String} (h : ∀ name ∈ names, name ≠ "") :
    calledTools (callsOf names) = names := by
  induction names with
  | nil => rfl
  | cons name rest ih =>
      obtain ⟨hname, hrest⟩ := List.forall_mem_cons.1 h
      rw [callsOf, List.map_cons, calledTools, List.filterMap_cons,
        calledTool?_callRequest hname, ← calledTools, ← callsOf, ih hrest]

/-- **There is no bound for the number of names**, whatever messages come first. -/
theorem exists_many_names (messages : List (ToolContext × Octets)) (bound : Nat) :
    ∃ more turns, bound < (namesAfter (messages ++ more) turns).length := by
  -- Names of different lengths are different.
  let names := (List.range (bound + 1)).map fun k => String.ofList (List.replicate (k + 1) 'x')
  have hnodup : names.Nodup := by
    refine List.Nodup.map ?_ List.nodup_range
    intro k l hkl
    have hlengths := congrArg (fun s : String => s.toList.length) hkl
    simpa using hlengths
  have hfull : ∀ name ∈ names, name ≠ "" := by
    intro name hname hempty
    obtain ⟨k, _, rfl⟩ := List.mem_map.1 hname
    have hlength := congrArg (fun s : String => s.toList.length) hempty
    simp at hlength
  obtain ⟨turns, hall⟩ := exists_all_named (messages ++ callsOf names)
  refine ⟨callsOf names, turns, ?_⟩
  have hsubset : names ⊆ namesAfter (messages ++ callsOf names) turns := by
    intro name hname
    rw [hall, calledTools, List.filterMap_append, ← calledTools, ← calledTools,
      calledTools_callsOf hfull]
    exact List.mem_append_right _ hname
  have hle := (List.subperm_of_subset hnodup hsubset).length_le
  have hlength : names.length = bound + 1 := by simp [names]
  omega

/-- **Which names are counted**: those that messages call, be they names of tools or not. More messages
bring the number of names above any bound. -/
theorem names_counted (messages : List (ToolContext × Octets)) (bound : Nat) :
    NamesCounted messages ∧ ∃ more turns, bound < (namesAfter (messages ++ more) turns).length :=
  ⟨counts_names messages, exists_many_names messages bound⟩

/-- A call of a name that no tool has. -/
def unknownCall : Octets :=
  Utf8.encode
    ("\x7b\"jsonrpc\":\"2.0\",\"id\":1,\"method\":\"tools/call\"," ++
      "\"params\":\x7b\"name\":\"nope\"\x7d\x7d")

/-- **A single message leaves the name of no tool** in the table of calls. -/
theorem names_of_unknown :
    ∃ turns, namesAfter [(bareContext, unknownCall)] turns = ["nope"] ∧
      Tool.isKnown "nope" = false := by
  refine ⟨List.replicate 4 ⟨0, 0⟩, ?_, ?_⟩
  · decide +kernel
  · decide

end SharedDispatch

end RegistryGraph.Rpc
