import RegistryGraph.Json.Printer

/-!
# Records in JSON

A record is a set of named fields.  In JSON it is an object, whose unknown members do not matter, or a
list of the fields in their order.  `Record.ofJson` takes either; `Record.required` and
`Record.optional` read one field.
-/

namespace RegistryGraph.Json

/-- Why a value does not have the shape that its reader wants. -/
inductive ShapeFault where
  /-- A value of another kind; `expected` names what is wanted. -/
  | mismatch (found : Json) (expected : String)
  | missingField (name : String)
  | repeatedField (name : String)
  /-- A list of a wrong length. -/
  | wrongLength (size : Nat) (expected : String)
deriving Repr

namespace ShapeFault

/-- A character of a quoted text in a message. -/
def quotedChar (c : Char) : List Char :=
  if c = '"' || c = '\\' then ['\\', c]
  else if c = '\n' then ['\\', 'n']
  else if c = '\r' then ['\\', 'r']
  else if c = '\t' then ['\\', 't']
  else if c.toNat = 0 then ['\\', '0']
  else if c.toNat < 0x20 || (0x7F ≤ c.toNat && c.toNat < 0xA0) then
    ['\\', 'u', '\x7b'] ++ Nat.toDigits 16 c.toNat ++ ['\x7d']
  else [c]

/-- A floating-point number without an exponent. -/
def plainDouble (x : Binary64) : List Char :=
  let sign := if x.negative then ['-'] else []
  if x.isZero then sign ++ ['0', '.', '0']
  else
    let (c, g) := x.shortest
    let ds := digits c
    sign ++ positional ds (g + ds.length - 1)

/-- The kind of a value, with the value of a scalar. -/
def kind : Json → String
  | .null => "null"
  | .bool b => s!"boolean `{b}`"
  | .number (.integer n) => s!"integer `{n}`"
  | .number (.double x) => s!"floating point `{String.ofList (plainDouble x)}`"
  | .string s => s!"string \"{String.ofList (s.toList.flatMap quotedChar)}\""
  | .array _ => "sequence"
  | .object _ => "map"

/-- The wording of a fault of shape. -/
def message : ShapeFault → String
  | .mismatch found expected => s!"invalid type: {kind found}, expected {expected}"
  | .missingField name => s!"missing field `{name}`"
  | .repeatedField name => s!"duplicate field `{name}`"
  | .wrongLength size expected => s!"invalid length {size}, expected {expected}"

end ShapeFault

/-! ## Values of one kind -/

/-- A text. -/
def readString : Json → Except ShapeFault String
  | .string s => .ok s
  | v => .error (.mismatch v "a string")

/-- A text, or none for null. -/
def readOptString : Json → Except ShapeFault (Option String)
  | .null => .ok none
  | v => (readString v).map some

/-- A truth value. -/
def readBool : Json → Except ShapeFault Bool
  | .bool b => .ok b
  | v => .error (.mismatch v "a boolean")

/-- A list whose items `read` takes. -/
def readList {α : Type} (read : Json → Except ShapeFault α) : Json → Except ShapeFault (List α)
  | .array items => items.mapM read
  | v => .error (.mismatch v "a sequence")

/-! ## Records -/

/-- The fields of a record. -/
structure Record where
  /-- What the record is called in messages. -/
  name : String
  /-- The names of its fields, in order. -/
  keys : List String
  fields : List (String × Json)
  /-- The number of items, if the record was written as a list. -/
  listed : Option Nat

namespace Record

/-- The first known field that occurs twice. -/
def repeated? (keys : List String) : List (String × Json) → Option String
  | [] => none
  | (k, _) :: rest =>
    if keys.contains k && rest.any (·.1 = k) then some k else repeated? keys rest

/-- The fields of a value. -/
def ofJson (name : String) (keys : List String) : Json → Except ShapeFault Record
  | .object members =>
    match repeated? keys members with
    | some k => .error (.repeatedField k)
    | none => .ok ⟨name, keys, members, none⟩
  | .array items => .ok ⟨name, keys, keys.zip items, some items.length⟩
  | v => .error (.mismatch v name)

/-- Reads a field, which counts as `default` if it is absent. -/
def optional {α : Type} (r : Record) (key : String) (default : α)
    (read : Json → Except ShapeFault α) : Except ShapeFault α :=
  match member? r.fields key with
  | some v => read v
  | none => .ok default

/-- Reads a field that must be there. -/
def required {α : Type} (r : Record) (key : String) (read : Json → Except ShapeFault α) :
    Except ShapeFault α :=
  match member? r.fields key with
  | some v => read v
  | none =>
    match r.listed with
    | some size => .error (.wrongLength size s!"{r.name} with {r.keys.length} elements")
    | none => .error (.missingField key)

/-- Refuses a list with more items than the record has fields. -/
def finish (r : Record) : Except ShapeFault Unit :=
  match r.listed with
  | some size =>
    if size > r.keys.length then .error (.wrongLength size "fewer elements in array") else .ok ()
  | none => .ok ()

end Record

end RegistryGraph.Json
