import RegistryGraph.Number.Binary64
import RegistryGraph.Text.Keyed

/-!
# JSON values

A JSON value keeps the members of an object in a list.  A reader delivers them as they were written;
`Json.canonical` keeps the last member of every key, in ascending key order, and values that are built
from scratch with `Json.record` have that form from the start.
-/

namespace RegistryGraph

/-- An exact integer or a binary floating-point number. -/
inductive Json.Number where
  /-- An integer between `-2^63` and `2^64 - 1`. -/
  | integer (n : Int)
  | double (x : Binary64)
deriving DecidableEq, Repr

/-- A JSON value. -/
inductive Json where
  | null
  | bool (b : Bool)
  | number (n : Json.Number)
  | string (s : String)
  | array (items : List Json)
  | object (members : List (String × Json))
deriving Repr, Inhabited

namespace Json

/-- Files `v` under `key` in a list of members in ascending key order. -/
def insertMember (key : String) (v : Json) : List (String × Json) → List (String × Json)
  | [] => [(key, v)]
  | (k, w) :: rest =>
    if key < k then (key, v) :: (k, w) :: rest
    else if key = k then (key, v) :: rest
    else (k, w) :: insertMember key v rest

/-- The last member of every key, in ascending key order. -/
def sortMembers (members : List (String × Json)) : List (String × Json) :=
  members.foldl (fun sorted m => insertMember m.1 m.2 sorted) []

/-- The object with the given members, which may be written in any order. -/
def record (members : List (String × Json)) : Json := .object (sortMembers members)

/-- The object of a table. -/
def ofKeyed (t : Keyed Json) : Json := .object t.toList

/-- The value without the order and the repetitions of its members. -/
def canonical : Json → Json
  | .array items => .array (canonicalItems items)
  | .object members => .object (sortMembers (canonicalMembers members))
  | v => v
where
  /-- Each item in canonical form. -/
  canonicalItems : List Json → List Json
    | [] => []
    | v :: rest => canonical v :: canonicalItems rest
  /-- Each member with its value in canonical form. -/
  canonicalMembers : List (String × Json) → List (String × Json)
    | [] => []
    | (k, v) :: rest => (k, canonical v) :: canonicalMembers rest

/-- The member of a list that has the given key. -/
def member? (members : List (String × Json)) (key : String) : Option Json :=
  (members.find? (·.1 = key)).map (·.2)

/-- The member of an object; none for any other value. -/
def get? (key : String) : Json → Option Json
  | .object members => member? members key
  | _ => none

/-- The text of a string value. -/
def asString? : Json → Option String
  | .string s => some s
  | _ => none

/-- A count. -/
def count (n : Nat) : Json := .number (.integer n)

/-- A string, or null for none. -/
def optString : Option String → Json
  | some s => .string s
  | none => .null

/-- A list of strings. -/
def strings (ss : List String) : Json := .array (ss.map .string)

end Json

end RegistryGraph
