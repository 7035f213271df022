import RegistryGraph.Text.Utf8

/-!
# Comma-separated values

Records stand on lines that end with a line feed, fields are separated by commas.  A field that holds
a comma, a quote, a carriage return or a line feed stands between quotes, with every quote doubled.

`Csv.write` writes a table through a `Writer`, which wants as many fields in every record as in the
first one.  The octets go to a memory, and what is in the memory in the end is read as a text.
-/

namespace RegistryGraph.Csv

/-- Whether the character forces its field between quotes. -/
def isSpecial (c : Char) : Bool := c = ',' || c = '"' || c = '\r' || c = '\n'

/-- A character inside quotes: a quote is written twice. -/
def quotedChar (c : Char) : List Char := if c = '"' then [c, c] else [c]

/-- A field as it is written. -/
def field (s : String) : List Char :=
  let cs := s.toList
  if cs.any isSpecial then '"' :: (cs.flatMap quotedChar ++ ['"'])
  else cs

/-- The fields of a record with commas between them. -/
def fields : List String → List Char
  | [] => []
  | [s] => field s
  | s :: rest => field s ++ ',' :: fields rest

/-- A record as it is written. A single empty field is quoted, so that its line is not blank. -/
def record (r : List String) : List Char :=
  if r = [""] then ['"', '"', '\n'] else fields r ++ ['\n']

/-- Why a table cannot be written. -/
inductive Fault where
  /-- A record has not as many fields as the first one. -/
  | unequalLengths (expected found : Nat)
  | memoryFull
  /-- What has been written is no text. -/
  | encoding (fault : Utf8.Fault)
deriving DecidableEq, Repr

/-- The wording of a fault. -/
def Fault.message : Fault → String
  | .unequalLengths expected found =>
    s!"CSV error: found record with {found} fields, " ++
      s!"but the previous record has {expected} fields"
  | .memoryFull => "failed to flush CSV writer: failed to write whole buffer"
  | .encoding fault => s!"CSV output is not UTF-8: {fault.message}"

/-- Where octets are written to. -/
structure Memory where
  octets : Octets
  /-- How many octets there is room for; the memory grows if there is no bound. -/
  capacity : Option Nat

namespace Memory

/-- An empty memory that grows. -/
def growing : Memory := ⟨[], none⟩

/-- Takes octets, unless there is no room for them. -/
def take? (m : Memory) (octets : Octets) : Option Memory :=
  if m.capacity.all (m.octets.length + octets.length ≤ ·) then
    some { m with octets := m.octets ++ octets }
  else none

end Memory

/-- A table that is being written. -/
structure Writer where
  memory : Memory
  /-- The number of fields of the first record. -/
  width : Option Nat
  /-- The records that have not gone to the memory yet, latest first. -/
  pending : List Octets

namespace Writer

/-- A writer to a memory. -/
def ofMemory (memory : Memory) : Writer := ⟨memory, none, []⟩

/-- Writes a record. -/
def put (w : Writer) (r : List String) : Except Fault Writer :=
  let expected := w.width.getD r.length
  if r.length = expected then
    .ok { w with
      width := some expected
      pending := Utf8.encode (.ofList (record r)) :: w.pending }
  else .error (.unequalLengths expected r.length)

/-- What is in the memory when all records have gone there. -/
def finish (w : Writer) : Except Fault Octets :=
  match w.memory.take? w.pending.reverse.flatten with
  | some memory => .ok memory.octets
  | none => .error .memoryFull

end Writer

/-- Writes a table. -/
def write (records : List (List String)) : Except Fault String := do
  let w ← records.foldlM Writer.put (.ofMemory .growing)
  let octets ← w.finish
  (Utf8.decode octets).mapError .encoding

end RegistryGraph.Csv
