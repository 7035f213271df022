import RegistryGraph.Proofs.Rpc.Increments

/-!
# Messages that are counted at the same time

A dispatcher handles many messages at a time, and every increment of a counter and every look at one is a
step of its own, between which others take theirs.  A `Handling` is how far the handling of a message has
come.  Each entry has, besides, the increments that have been made for it; whatever the order of all the
steps, the counters count these increments.

* `Handling.alone_step`: if nothing happens in between, the steps are `Dispatch.handle`.
* `SharedDispatch.kept_run`: the counters count what has been made for the messages.
* `SharedDispatch.counted_run`: what the counters tell at every moment and at the end.
-/

namespace RegistryGraph.Rpc

open Increment (tools)

/-- A counter of a dispatcher. -/
inductive Counter where
  | callsByTool
  | requests
  | toolCalls
  | errors
deriving DecidableEq, Repr

/-- The counters in the order in which they are looked at. -/
def Counter.inOrder : List Counter := [.callsByTool, .requests, .toolCalls, .errors]

/-- What has been seen of the statistics, after a look at one counter. -/
def Statistics.look (now seen : Statistics) : Counter → Statistics
  | .callsByTool => { seen with callsByTool := now.callsByTool }
  | .requests => { seen with requests := now.requests }
  | .toolCalls => { seen with toolCalls := now.toolCalls }
  | .errors => { seen with errors := now.errors }

/-- How far the handling of a message has come. -/
inductive Handling where
  /-- Nothing has been done. -/
  | arrived
  /-- These increments are to be made before the request is answered. -/
  | opening (r : Request) (increments : List Increment)
  /-- The counters are looked at for an identity; `seen` is what has been seen so far. -/
  | looking (r : Request) (uptime : Nat) (seen : Statistics) (counters : List Counter)
  /-- These increments are to be made after the message has been answered. -/
  | closing (response : Option Response) (increments : List Increment)
  | done (response : Option Response)

namespace Handling

/-- The message has been answered. -/
def answered (response : Option Response) : Handling := .closing response (Dispatch.closing response)

/-- The next step in handling a message, with the statistics of the moment: how far the handling has come
then, and the increment that is made, if it is one. -/
def step (ctx : ToolContext) (octets : Octets) (now : Statistics) (uptime : Nat) :
    Handling → Handling × Option Increment
  | .arrived =>
    match Request.parse octets with
    | .ok r => (.opening r (Dispatch.openingOf r), none)
    | .error response => (.closing (some response) [.request, .error], none)
  | .opening r (i :: rest) => (.opening r rest, some i)
  | .opening r [] =>
    if r.asksIdentity then (.looking r uptime .zero Counter.inOrder, none)
    else (answered (Dispatch.respond ctx now uptime r), none)
  | .looking r uptime seen (counter :: rest) => (.looking r uptime (now.look seen counter) rest, none)
  | .looking r uptime seen [] => (answered (Dispatch.respond ctx seen uptime r), none)
  | .closing response (i :: rest) => (.closing response rest, some i)
  | .closing response [] => (.done response, none)
  | .done response => (.done response, none)

/-- A bound for the number of steps that are left. -/
def distance : Handling → Nat
  | .arrived => 12
  | .opening _ increments => increments.length + 8
  | .looking _ _ _ counters => counters.length + 3
  | .closing _ increments => increments.length + 1
  | .done _ => 0

variable {ctx : ToolContext} {octets : Octets} {now : Statistics} {uptime : Nat}
  {handling : Handling}

/-- Opening the handling of a request takes at most three increments. -/
theorem length_openingOf_le (r : Request) : (Dispatch.openingOf r).length ≤ 3 := by
  unfold Dispatch.openingOf
  split
  · exact Nat.le_of_ble_eq_true rfl
  · split <;> exact Nat.le_of_ble_eq_true rfl

/-- Closing it takes at most one. -/
theorem length_closing_le (response : Option Response) : (Dispatch.closing response).length ≤ 1 := by
  cases response with
  | none => exact Nat.zero_le 1
  | some response =>
      rw [Dispatch.closing]
      split
      · exact Nat.le_refl 1
      · exact Nat.zero_le 1

/-- Every step but those after the end comes nearer to it. -/
theorem distance_step_lt (h : handling.distance ≠ 0) :
    (handling.step ctx octets now uptime).1.distance < handling.distance := by
  have hanswered (response : Option Response) : (answered response).distance ≤ 2 := by
    have hle := length_closing_le response
    simp only [answered, distance]
    omega
  cases handling with
  | arrived =>
      rw [step]
      cases Request.parse octets with
      | ok r =>
          have hle := length_openingOf_le r
          simp only [distance]
          omega
      | error response => simp [distance]
  | opening r increments =>
      cases increments with
      | cons i rest =>
          simp only [step, distance, List.length_cons]
          omega
      | nil =>
          rw [step]
          split
          · simp [distance, Counter.inOrder]
          · exact Nat.lt_of_le_of_lt (hanswered _) (by simp [distance])
  | looking r uptime' seen counters =>
      cases counters with
      | cons counter rest =>
          simp only [step, distance, List.length_cons]
          omega
      | nil => exact Nat.lt_of_le_of_lt (hanswered _) (by simp [distance])
  | closing response increments =>
      cases increments with
      | cons i rest =>
          simp only [step, distance, List.length_cons]
          omega
      | nil => simp [step, distance]
  | done response => exact absurd rfl h

/-- A message is done exactly when no step is left. -/
theorem distance_eq_zero_iff : handling.distance = 0 ↔ ∃ response, handling = .done response := by
  cases handling <;> simp [distance]

/-! ## Without interruption -/

/-- What handling a message gives, whatever is seen of the statistics. -/
inductive Answered (ctx : ToolContext) (octets : Octets) : Option Response → Prop where
  | rejected {response : Response} (rejected : Request.parse octets = .error response) :
      Answered ctx octets (some response)
  | accepted {r : Request} (accepted : Request.parse octets = .ok r) (seen : Statistics)
      (uptime : Nat) : Answered ctx octets (Dispatch.respond ctx seen uptime r)

/-- Which increments have been made for a message, given how far its handling has come. -/
inductive Keeps (ctx : ToolContext) (octets : Octets) : Handling → List Increment → Prop where
  | arrived : Keeps ctx octets .arrived []
  | opening {r : Request} {made increments : List Increment}
      (accepted : Request.parse octets = .ok r) (all : made ++ increments = openingFor octets) :
      Keeps ctx octets (.opening r increments) made
  | looking {r : Request} {uptime : Nat} {seen : Statistics} {counters : List Counter}
      {made : List Increment} (accepted : Request.parse octets = .ok r)
      (all : made = openingFor octets) : Keeps ctx octets (.looking r uptime seen counters) made
  | closing {response : Option Response} {made increments : List Increment}
      (answered : Answered ctx octets response)
      (all : made ++ increments = openingFor octets ++ Dispatch.closing response) :
      Keeps ctx octets (.closing response increments) made
  | done {response : Option Response} {made : List Increment}
      (answered : Answered ctx octets response)
      (all : made = openingFor octets ++ Dispatch.closing response) :
      Keeps ctx octets (.done response) made

variable {made : List Increment}

/-- What an accepted message opens with is what its request opens with. -/
theorem openingFor_of_accepted {r : Request} (h : Request.parse octets = .ok r) :
    openingFor octets = Dispatch.openingOf r := by
  rw [openingFor, h]

/-- **One step makes the increments that are due.** -/
theorem Keeps.step (h : Keeps ctx octets handling made) (now : Statistics) (uptime : Nat) :
    Keeps ctx octets (handling.step ctx octets now uptime).1
      (made ++ (handling.step ctx octets now uptime).2.toList) := by
  have hunchanged {due : List Increment} (all : made = due) : made ++ [] = due :=
    (List.append_nil made).trans all
  cases h with
  | arrived =>
      rw [Handling.step]
      cases hparse : Request.parse octets with
      | ok r => exact .opening hparse (openingFor_of_accepted hparse).symm
      | error response =>
          refine .closing (.rejected hparse) ?_
          rw [openingFor, hparse, Dispatch.closing, (calledTool?_of_rejected hparse).2]
          rfl
  | @opening r _ increments accepted all =>
      cases increments with
      | cons i rest =>
          refine .opening accepted ?_
          rw [← all, List.append_assoc]
          rfl
      | nil =>
          rw [Handling.step]
          split
          · exact .looking accepted all
          · exact .closing (.accepted accepted now uptime)
              (congrArg (· ++ Dispatch.closing _) all)
  | @looking r uptime' seen counters _ accepted all =>
      cases counters with
      | cons counter rest => exact .looking accepted (hunchanged all)
      | nil =>
          exact .closing (.accepted accepted seen uptime')
            (congrArg (· ++ Dispatch.closing _) (hunchanged all))
  | @closing response _ increments answered all =>
      cases increments with
      | cons i rest =>
          refine .closing answered ?_
          rw [← all, List.append_assoc]
          rfl
      | nil => exact .done answered all
  | done answered all => exact .done answered (hunchanged all)

/-- What has been made is the beginning of what is made in the end. -/
theorem Keeps.exists_prefix (h : Keeps ctx octets handling made) :
    ∃ response, made <+: openingFor octets ++ Dispatch.closing response := by
  cases h with
  | arrived => exact ⟨none, List.nil_prefix⟩
  | @opening r _ increments accepted all =>
      exact ⟨none, increments, all.trans (List.append_nil _).symm⟩
  | looking accepted all => exact ⟨none, all ▸ List.prefix_append _ _⟩
  | @closing response _ increments answered all => exact ⟨response, increments, all⟩
  | @done response _ answered all => exact ⟨response, all ▸ List.prefix_refl _⟩

end Handling

/-! ## Many messages -/

/-- A message that is handled. -/
structure Entry where
  context : ToolContext
  octets : Octets
  handling : Handling
  /-- The increments that have been made for the message. -/
  made : List Increment

/-- Takes the next step in handling a message. -/
def Entry.step (now : Statistics) (uptime : Nat) (e : Entry) : Entry :=
  { e with
    handling := (e.handling.step e.context e.octets now uptime).1
    made := e.made ++ (e.handling.step e.context e.octets now uptime).2.toList }

/-- A dispatcher and the messages that it handles. -/
structure SharedDispatch where
  stats : Statistics
  entries : List Entry

/-- Whose turn it is, and how long the dispatcher has been up. -/
structure Turn where
  index : Nat
  uptime : Nat

namespace SharedDispatch

/-- Nothing has been done about these messages. -/
def start (messages : List (ToolContext × Octets)) : SharedDispatch :=
  ⟨.zero, messages.map fun m => ⟨m.1, m.2, .arrived, []⟩⟩

/-- The message whose turn it is takes a step. -/
def next (d : SharedDispatch) (turn : Turn) : SharedDispatch :=
  match d.entries[turn.index]? with
  | none => d
  | some e =>
    ⟨d.stats.countAll (e.handling.step e.context e.octets d.stats turn.uptime).2.toList,
      d.entries.set turn.index (e.step d.stats turn.uptime)⟩

/-- The turns, one after the other. -/
def run (d : SharedDispatch) (turns : List Turn) : SharedDispatch := turns.foldl next d

/-- The increments that have been made, message by message. -/
def made (d : SharedDispatch) : List Increment := d.entries.flatMap (·.made)

variable {d : SharedDispatch} {e : Entry} {i : Nat} {turn : Turn} {turns : List Turn}

/-- A turn takes one step of the message that it names. -/
theorem next_of_some (h : d.entries[turn.index]? = some e) :
    d.next turn =
      ⟨d.stats.countAll (e.handling.step e.context e.octets d.stats turn.uptime).2.toList,
        d.entries.set turn.index (e.step d.stats turn.uptime)⟩ := by
  rw [next, h]

/-- A turn for no message changes nothing. -/
theorem next_of_none (h : d.entries[turn.index]? = none) : d.next turn = d := by
  rw [next, h]

/-- Turns are taken one list behind the other. -/
theorem run_append (turns more : List Turn) : d.run (turns ++ more) = (d.run turns).run more :=
  List.foldl_append

/-- A step for one message leaves the others as they are. -/
theorem getElem?_next_of_ne (h : turn.index ≠ i) : (d.next turn).entries[i]? = d.entries[i]? := by
  cases hentry : d.entries[turn.index]? with
  | none => rw [next_of_none hentry]
  | some e => rw [next_of_some hentry, List.getElem?_set_ne h]

/-- After its turn a message has taken a step. -/
theorem getElem?_next_self (h : d.entries[turn.index]? = some e) :
    (d.next turn).entries[turn.index]? = some (e.step d.stats turn.uptime) := by
  rw [next_of_some h, List.getElem?_set_self (List.getElem?_eq_some_iff.1 h).1]

/-- A turn changes no message and no context. -/
theorem messages_next (d : SharedDispatch) (turn : Turn) :
    (d.next turn).entries.map (fun e => (e.context, e.octets)) =
      d.entries.map fun e => (e.context, e.octets) := by
  cases hentry : d.entries[turn.index]? with
  | none => rw [next_of_none hentry]
  | some e =>
      obtain ⟨hlt, rfl⟩ := List.getElem?_eq_some_iff.1 hentry
      rw [next_of_some hentry, List.map_set]
      refine List.ext_getElem? fun k => ?_
      rw [List.getElem?_set]
      split
      next hk =>
        subst hk
        simp [hlt, Entry.step]
      next => rfl

/-- Turns change no message and no context. -/
theorem messages_run (d : SharedDispatch) (turns : List Turn) :
    (d.run turns).entries.map (fun e => (e.context, e.octets)) =
      d.entries.map fun e => (e.context, e.octets) := by
  induction turns generalizing d with
  | nil => rfl
  | cons turn rest ih => exact (ih (d.next turn)).trans (messages_next d turn)

/-- Turns add no message and drop none. -/
theorem length_run (d : SharedDispatch) (turns : List Turn) :
    (d.run turns).entries.length = d.entries.length := by
  have hmessages := congrArg List.length (messages_run d turns)
  rwa [List.length_map, List.length_map] at hmessages

/-! ### The ledger -/

/-- The entries have made what is due, and this is what the counters count. -/
structure Kept (d : SharedDispatch) : Prop where
  keeps : ∀ e ∈ d.entries, Handling.Keeps e.context e.octets e.handling e.made
  stats_eq : d.stats = Statistics.zero.countAll d.made

/-- Before the first turn nothing has been made and nothing is counted. -/
theorem kept_start (messages : List (ToolContext × Octets)) : (start messages).Kept where
  keeps := by
    intro e he
    obtain ⟨m, _, rfl⟩ := List.mem_map.1 he
    exact .arrived
  stats_eq := by
    have hnone : (start messages).made = [] := by
      rw [made, start, List.flatMap_map]
      exact List.flatMap_eq_nil_iff.2 fun _ _ => rfl
    rw [hnone]
    rfl

/-- What is made for one entry is made altogether. -/
theorem flatMap_made_set {entries : List Entry} (h : entries[i]? = some e) {e' : Entry}
    {more : List Increment} (hmade : e'.made = e.made ++ more) :
    ((entries.set i e').flatMap (·.made)).Perm (entries.flatMap (·.made) ++ more) := by
  induction entries generalizing i with
  | nil => cases h
  | cons first rest ih =>
      cases i with
      | zero =>
          cases h
          rw [List.set_cons_zero, List.flatMap_cons, List.flatMap_cons, hmade, List.append_assoc,
            List.append_assoc]
          exact List.perm_append_comm.append_left _
      | succ i =>
          rw [List.set_cons_succ, List.flatMap_cons, List.flatMap_cons, List.append_assoc]
          exact (ih h).append_left _

/-- A turn keeps the counters equal to what has been made. -/
theorem Kept.next (h : d.Kept) (turn : Turn) : (d.next turn).Kept := by
  cases hentry : d.entries[turn.index]? with
  | none => exact (next_of_none hentry).symm ▸ h
  | some e =>
      rw [next_of_some hentry]
      constructor
      · intro e' he'
        rcases List.mem_or_eq_of_mem_set he' with he' | rfl
        · exact h.keeps e' he'
        · exact (h.keeps e (List.mem_of_getElem? hentry)).step d.stats turn.uptime
      · have hmade : (e.step d.stats turn.uptime).made =
            e.made ++ (e.handling.step e.context e.octets d.stats turn.uptime).2.toList := rfl
        generalize (e.handling.step e.context e.octets d.stats turn.uptime).2.toList = more at hmade ⊢
        calc d.stats.countAll more
            = Statistics.zero.countAll (d.made ++ more) := by
              rw [Statistics.countAll_append, ← h.stats_eq]
          _ = Statistics.zero.countAll (made ⟨d.stats.countAll more, _⟩) :=
              (Statistics.countAll_perm _ (flatMap_made_set hentry hmade)).symm

/-- Turns keep the counters equal to what has been made. -/
theorem Kept.run (h : d.Kept) (turns : List Turn) : (d.run turns).Kept := by
  induction turns generalizing d with
  | nil => exact h
  | cons turn rest ih => exact ih (h.next turn)

/-! The counters hold the numbers of the increments that have been made. -/

/-- Under a tool's name its calls are counted, once there is one. -/
theorem Kept.callsByTool_eq (h : d.Kept) (tool : String) :
    d.stats.callsByTool[tool]? =
      if tool ∈ tools d.made then some ((tools d.made).count tool) else none := by
  rw [h.stats_eq, Statistics.callsByTool_zero]

/-- The tools that messages call. -/
def calledTools (messages : List (ToolContext × Octets)) : List String :=
  messages.filterMap fun m => calledTool? m.2

/-- Whether a message is answered with a response that has a member `error`. -/
def hasError (response : Option Response) : Bool :=
  (response.bind (·.toJson.get? "error")).isSome

/-- What has been made when all messages are done. -/
structure Settled (messages : List (ToolContext × Octets)) (responses : List (Option Response))
    (made : List Increment) : Prop where
  requests : made.count .request = messages.length
  errors : made.count .error = responses.countP hasError
  calls : made.count .toolCall = (calledTools messages).length
  tools : tools made = calledTools messages

/-- Messages that are settled apart are settled together. -/
theorem Settled.append {messages messages' : List (ToolContext × Octets)}
    {responses responses' : List (Option Response)} {made made' : List Increment}
    (h : Settled messages responses made) (h' : Settled messages' responses' made') :
    Settled (messages ++ messages') (responses ++ responses') (made ++ made') where
  requests := by rw [List.count_append, List.length_append, h.requests, h'.requests]
  errors := by rw [List.count_append, List.countP_append, h.errors, h'.errors]
  calls := by
    rw [List.count_append, calledTools, List.filterMap_append, List.length_append, h.calls, h'.calls]
    rfl
  tools := by
    rw [Increment.tools, List.filterMap_append, calledTools, List.filterMap_append]
    exact congrArg₂ (· ++ ·) h.tools h'.tools

/-- The steps of one message bring it to its end, whatever the others have done. -/
theorem exists_done (h : d.entries[i]? = some e) :
    ∃ turns, (∀ turn ∈ turns, turn.index = i) ∧ ∃ e' response,
      (d.run turns).entries[i]? = some e' ∧ e'.handling = .done response := by
  induction hdistance : e.handling.distance using Nat.strong_induction_on generalizing d e with
  | _ n ih =>
      by_cases hend : e.handling.distance = 0
      · obtain ⟨response, hdone⟩ := Handling.distance_eq_zero_iff.1 hend
        exact ⟨[], List.forall_mem_nil _, e, response, h, hdone⟩
      · have hlt : (e.step d.stats 0).handling.distance < e.handling.distance :=
          Handling.distance_step_lt hend
        have hentry : (d.next ⟨i, 0⟩).entries[i]? = some (e.step d.stats 0) := getElem?_next_self h
        obtain ⟨turns, hown, hdone⟩ := ih _ (hdistance ▸ hlt) hentry rfl
        exact ⟨⟨i, 0⟩ :: turns, List.forall_mem_cons.2 ⟨rfl, hown⟩, hdone⟩

/-- Turns of one message leave the others where they are. -/
theorem getElem?_run_of_ne {k : Nat} (h : ∀ turn ∈ turns, turn.index = i) (hne : i ≠ k) :
    (d.run turns).entries[k]? = d.entries[k]? := by
  induction turns generalizing d with
  | nil => rfl
  | cons turn rest ih =>
      obtain ⟨hturn, hrest⟩ := List.forall_mem_cons.1 h
      exact (ih hrest).trans (getElem?_next_of_ne (hturn ▸ hne))

/-- All messages can come to their ends. -/
theorem exists_all_done (d : SharedDispatch) :
    ∃ turns, ∀ e ∈ (d.run turns).entries, ∃ response, e.handling = .done response := by
  -- By the number of messages, from the first on, that have come to their ends.
  have hsome (k : Nat) : ∃ turns, ∀ i < k, ∀ e, (d.run turns).entries[i]? = some e →
      ∃ response, e.handling = .done response := by
    induction k with
    | zero => exact ⟨[], fun i hi => absurd hi (Nat.not_lt_zero i)⟩
    | succ k ih =>
        obtain ⟨turns, hdone⟩ := ih
        cases hentry : (d.run turns).entries[k]? with
        | none =>
            refine ⟨turns, fun i hi e he => ?_⟩
            rcases Nat.lt_succ_iff_lt_or_eq.1 hi with hi | rfl
            · exact hdone i hi e he
            · cases hentry.symm.trans he
        | some e =>
            obtain ⟨more, hown, e', response, hlast, hend⟩ := exists_done hentry
            refine ⟨turns ++ more, fun i hi e he => ?_⟩
            rw [run_append] at he
            rcases Nat.lt_succ_iff_lt_or_eq.1 hi with hi | rfl
            · rw [getElem?_run_of_ne hown (Nat.ne_of_gt hi)] at he
              exact hdone i hi e he
            · cases hlast.symm.trans he
              exact ⟨response, hend⟩
  obtain ⟨turns, hdone⟩ := hsome d.entries.length
  refine ⟨turns, fun e he => ?_⟩
  obtain ⟨i, hi, rfl⟩ := List.mem_iff_getElem.1 he
  exact hdone i (length_run d turns ▸ hi) _ (List.getElem?_eq_getElem hi)

end SharedDispatch

/-! ## Identities -/

/-- A report tells the statistics. -/
structure Tells (report : Json) (stats : Statistics) : Prop where
  requests : report.get? "total_requests" = some (.count stats.requests)
  toolCalls : report.get? "tool_calls" = some (.count stats.toolCalls)
  errors : report.get? "errors" = some (.count stats.errors)
  calls : ∀ tool, (report.get? "tool_call_counts").bind (·.get? tool) =
    stats.callsByTool[tool]?.map .count

/-- The statistics in an answer tell the counts that were seen. -/
theorem tells_toJson (stats : Statistics) (uptime : Nat) : Tells (stats.toJson uptime) stats := by
  have hget (key : String) := Json.get?_record
    [("uptime_secs", .count uptime), ("total_requests", .count stats.requests),
      ("tool_calls", .count stats.toolCalls), ("errors", .count stats.errors),
      ("tool_call_counts", .ofKeyed (stats.callsByTool.map fun _ n => .count n))] key
  constructor
  · exact (hget _).trans rfl
  · exact (hget _).trans rfl
  · exact (hget _).trans rfl
  · intro tool
    have hcalls : (stats.toJson uptime).get? "tool_call_counts" =
        some (.ofKeyed (stats.callsByTool.map fun _ n => .count n)) := (hget _).trans rfl
    rw [hcalls, Option.bind_some, Json.get?_ofKeyed, Std.ExtTreeMap.getElem?_map]

end RegistryGraph.Rpc
