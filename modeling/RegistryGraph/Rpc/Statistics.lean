import RegistryGraph.Json.Basic
import RegistryGraph.Text.Keyed

/-!
# Statistics of a server

Four counters.  Handling a message increments some of them, one after the other, and messages that are
handled at the same time may do so in any order.
-/

namespace RegistryGraph.Rpc

/-- What a server has counted.  The counters are natural numbers; counters of 64 bits agree with them up to
`2 ^ 64 - 1` increments and start again at zero with the next one. -/
structure Statistics where
  requests : Nat
  toolCalls : Nat
  errors : Nat
  /-- The calls of each tool. -/
  callsByTool : Keyed Nat

/-- One increment. -/
inductive Increment where
  | request
  | error
  | toolCall
  | callOf (tool : String)
deriving DecidableEq, Repr

namespace Statistics

/-- Nothing has been counted. -/
def zero : Statistics := ⟨0, 0, 0, ∅⟩

/-- Counts one increment. -/
def count (s : Statistics) : Increment → Statistics
  | .request => { s with requests := s.requests + 1 }
  | .error => { s with errors := s.errors + 1 }
  | .toolCall => { s with toolCalls := s.toolCalls + 1 }
  | .callOf tool =>
    { s with callsByTool := s.callsByTool.insert tool (s.callsByTool.getD tool 0 + 1) }

/-- Counts increments from left to right. -/
def countAll (s : Statistics) (increments : List Increment) : Statistics :=
  increments.foldl count s

/-- The statistics of a server that has been up for some seconds, as a JSON value. -/
def toJson (s : Statistics) (uptime : Nat) : Json :=
  .record
    [("uptime_secs", .count uptime), ("total_requests", .count s.requests),
      ("tool_calls", .count s.toolCalls), ("errors", .count s.errors),
      ("tool_call_counts", .ofKeyed (s.callsByTool.map fun _ n => .count n))]

end Statistics

end RegistryGraph.Rpc
