import RegistryGraph.Json.Basic
import RegistryGraph.Text.Blank

/-!
# Arguments of tool calls

Arguments are the members of a JSON object; any other value has none.  A text argument is trimmed, and
null counts as absent.
-/

namespace RegistryGraph

/-- What is wrong with an argument. -/
inductive ArgumentFault where
  | missing (key : String)
  | blank (key : String)
  | notText (key : String)
  | notNumber (key : String)
deriving DecidableEq, Repr

/-- The wording of an argument fault. -/
def ArgumentFault.message : ArgumentFault → String
  | .missing key => s!"missing required parameter: {key}"
  | .blank key => s!"parameter '{key}' must not be empty"
  | .notText key => s!"parameter '{key}' must be a string"
  | .notNumber key => s!"parameter '{key}' must be a number"

namespace Arguments

/-- An argument that must be there. -/
def required (args : Json) (key : String) : Except ArgumentFault String :=
  match args.get? key with
  | some (.string s) => if Text.allBlank s then .error (.blank key) else .ok (Text.trim s)
  | some .null | none => .error (.missing key)
  | some _ => .error (.notText key)

/-- An argument that may be absent; a blank text counts as absent. -/
def optional (args : Json) (key : String) : Except ArgumentFault (Option String) :=
  match args.get? key with
  | some (.string s) => .ok (if Text.allBlank s then none else some (Text.trim s))
  | some .null | none => .ok none
  | some _ => .error (.notText key)

/-- The integer part of a number, or `least` if it is smaller than that. -/
def wholePart (least : Nat) : Json.Number → Nat
  | .integer n => max least n.toNat
  | .double x => if x.negative then least else max least x.floorMagnitude

/-- A count between `least` and `greatest`; `default` if it is absent. -/
def count (args : Json) (key : String) (least greatest default : Nat) :
    Except ArgumentFault Nat :=
  match args.get? key with
  | some .null | none => .ok default
  | some (.number n) => .ok (min (wholePart least n) greatest)
  | some _ => .error (.notNumber key)

end Arguments

end RegistryGraph
