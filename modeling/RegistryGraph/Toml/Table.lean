import RegistryGraph.Toml.Scalar

/-!
# TOML tables

A TOML text fills a tree of tables.  Every table remembers how it came about, since that decides how it
may grow: a header opens a table once, dotted keys extend only tables that dotted keys have made, and
what stands behind an equals sign is closed.
-/

namespace RegistryGraph.Toml

/-- How a table came about. -/
inductive Origin where
  /-- By a header of its own. -/
  | header
  /-- On the way to a table with a header. -/
  | implied
  /-- By a dotted key. -/
  | dotted
deriving DecidableEq, Repr

/-- A value. -/
inductive Value where
  | scalar (s : Scalar)
  | array (items : List Value)
  /-- A table that is written as a value. -/
  | inline (entries : List (String × Value))
  /-- A table that may still grow. -/
  | table (origin : Origin) (entries : List (String × Value))
  /-- Tables that share a header, latest first. -/
  | tables (list : List (List (String × Value)))
deriving Repr, Inhabited

/-- The entries of a table, latest first. -/
abbrev Entries : Type := List (String × Value)

namespace Entries

/-- Replaces the value of a key that is there. -/
def replace (key : String) (v : Value) : Entries → Entries
  | [] => []
  | (k, w) :: rest => if k = key then (k, v) :: rest else (k, w) :: replace key v rest

/-- Adds a key that must not be there. -/
def add (entries : Entries) (key : String) (v : Value) : Except Fault Entries :=
  match entries.lookup key with
  | some _ => .error .repeatedKey
  | none => .ok ((key, v) :: entries)

/-- Assigns a value to a dotted key. If there is a dot, the table that gets the value must come from a
dotted key itself. -/
def assign (v : Value) (entries : Entries) : List String → Except Fault Entries
  | [] => .error .badKey
  | [key] => entries.add key v
  | key :: path =>
    match entries.lookup key with
    | none => do
      let inner ← assign v [] path
      return (key, .table .dotted inner) :: entries
    | some (.table .dotted inner) => do
      return entries.replace key (.table .dotted (← assign v inner path))
    | some (.table .implied inner) =>
      match path with
      | [_] => .error .repeatedKey
      | _ => do return entries.replace key (.table .implied (← assign v inner path))
    | some (.tables (inner :: earlier)) =>
      match path with
      | [_] => .error .repeatedKey
      | _ => do return entries.replace key (.tables ((← assign v inner path) :: earlier))
    | some _ => .error .repeatedKey

/-- Changes the table at a path of headers, making those that are not there. -/
def update (f : Entries → Except Fault Entries) (entries : Entries) :
    List String → Except Fault Entries
  | [] => f entries
  | key :: path =>
    match entries.lookup key with
    | none => do return (key, .table .implied (← update f [] path)) :: entries
    | some (.table origin inner) => do
      return entries.replace key (.table origin (← update f inner path))
    | some (.tables (inner :: earlier)) => do
      return entries.replace key (.tables ((← update f inner path) :: earlier))
    | some _ => .error .repeatedKey

/-- Opens the table `key` by its header. -/
def openTable (key : String) (entries : Entries) : Except Fault Entries :=
  match entries.lookup key with
  | none => .ok ((key, .table .header []) :: entries)
  | some (.table .implied inner) => .ok (entries.replace key (.table .header inner))
  | some _ => .error .repeatedKey

/-- Adds a table to those that share the header `key`. -/
def addTable (key : String) (entries : Entries) : Except Fault Entries :=
  match entries.lookup key with
  | none => .ok ((key, .tables [[]]) :: entries)
  | some (.tables list) => .ok (entries.replace key (.tables ([] :: list)))
  | some _ => .error .repeatedKey

end Entries

/-! ## Blanks, comments and keys -/

/-- Skips spaces and tabs. -/
def skipBlanks (cs : List Char) : List Char := cs.dropWhile fun c => c = ' ' || c = '\t'

/-- Skips a comment, if there is one. -/
def skipComment (cs : List Char) : Except Fault (List Char) :=
  match cs with
  | '#' :: rest =>
    let stop := rest.dropWhile isPlain
    match stop with
    | [] | '\n' :: _ | '\r' :: '\n' :: _ => .ok stop
    | _ => .error .badCharacter
  | _ => .ok cs

/-- Skips blanks, comments and line ends; every step takes one line. -/
def skipLines (cs : List Char) : Nat → Except Fault (List Char)
  | 0 => .error .badLine
  | steps + 1 => do
    match ← skipComment (skipBlanks cs) with
    | '\n' :: rest => skipLines rest steps
    | '\r' :: '\n' :: rest => skipLines rest steps
    | rest => return rest

/-- What stands behind the end of the line. -/
def finishLine (cs : List Char) : Except Fault (List Char) := do
  match ← skipComment (skipBlanks cs) with
  | [] => return []
  | '\n' :: rest => return rest
  | '\r' :: '\n' :: rest => return rest
  | _ => throw .badLine

/-- Whether the character can belong to a bare key. -/
def isKeyPart (c : Char) : Bool := c.isAlphanum || c = '_' || c = '-'

/-- Reads one part of a key. -/
def readSimpleKey (cs : List Char) : Except Fault (String × List Char) :=
  match cs with
  | '"' :: '"' :: '"' :: _ => .error .badKey
  | '\'' :: '\'' :: '\'' :: _ => .error .badKey
  | _ =>
    match readString? cs with
    | some r => r
    | none =>
      let word := cs.takeWhile isKeyPart
      if word.isEmpty then .error .badKey else .ok (.ofList word, cs.dropWhile isKeyPart)

/-- Reads a key, whose parts have dots between them; every step takes one part. -/
def readKey (cs : List Char) : Nat → Except Fault (List String × List Char)
  | 0 => .error .badKey
  | steps + 1 => do
    let (part, rest) ← readSimpleKey (skipBlanks cs)
    match skipBlanks rest with
    | '.' :: more =>
      let (parts, rest) ← readKey more steps
      return (part :: parts, rest)
    | rest => return ([part], rest)

/-! ## Values -/

mutual

/-- Reads a value. `steps` bounds the values inside one another and beside one another. -/
def readValue (cs : List Char) : Nat → Except Fault (Value × List Char)
  | 0 => .error .unfinishedValue
  | steps + 1 =>
    match cs with
    | '[' :: rest => do
      let (items, rest) ← readItems rest steps
      return (.array items, rest)
    | '\x7b' :: rest => do
      let (entries, rest) ← readEntries [] rest steps
      return (.inline entries, rest)
    | _ =>
      match readString? cs with
      | some r => r.map fun s => (.scalar (.string s.1), s.2)
      | none => (readUnquoted cs).map fun s => (.scalar s.1, s.2)

/-- Reads the rest of an array. -/
def readItems (cs : List Char) : Nat → Except Fault (List Value × List Char)
  | 0 => .error .unfinishedValue
  | steps + 1 => do
    match ← skipLines cs (cs.length + 1) with
    | ']' :: rest => return ([], rest)
    | rest =>
      let (item, rest) ← readValue rest steps
      match ← skipLines rest (rest.length + 1) with
      | ']' :: rest => return ([item], rest)
      | ',' :: rest =>
        let (items, rest) ← readItems rest steps
        return (item :: items, rest)
      | _ => throw .unfinishedValue

/-- Reads the rest of an inline table behind the entries so far. -/
def readEntries (entries : Entries) (cs : List Char) : Nat → Except Fault (Entries × List Char)
  | 0 => .error .unfinishedValue
  | steps + 1 => do
    match ← skipLines cs (cs.length + 1) with
    | '\x7d' :: rest => return (entries, rest)
    | rest =>
      let (key, rest) ← readKey rest (rest.length + 1)
      match rest with
      | '=' :: rest =>
        let (v, rest) ← readValue (skipBlanks rest) steps
        let entries ← entries.assign v key
        match ← skipLines rest (rest.length + 1) with
        | '\x7d' :: rest => return (entries, rest)
        | ',' :: rest => readEntries entries rest steps
        | _ => throw .unfinishedValue
      | _ => throw .badKey

end

/-! ## Documents -/

/-- A document that is being read: its tables, and the path of the one that was opened last. -/
structure Draft where
  root : Entries
  path : List String

/-- Reads a header behind its first bracket. -/
def readHeader (root : Entries) (cs : List Char) : Except Fault (Draft × List Char) := do
  let many := cs.head? = some '['
  let (key, rest) ← readKey (if many then cs.drop 1 else cs) (cs.length + 1)
  let closing := if many then [']', ']'] else [']']
  if !closing.isPrefixOf rest then throw .badHeader
  match key.getLast? with
  | none => throw .badHeader
  | some last =>
    let act := if many then Entries.addTable last else Entries.openTable last
    let root ← root.update act key.dropLast
    return (⟨root, key⟩, ← finishLine (rest.drop closing.length))

/-- Reads the assignment of a value to a key. -/
def readAssignment (d : Draft) (cs : List Char) : Except Fault (Draft × List Char) := do
  let (key, rest) ← readKey cs (cs.length + 1)
  match rest with
  | '=' :: rest =>
    let (v, rest) ← readValue (skipBlanks rest) (rest.length + 1)
    let root ← d.root.update (·.assign v key) d.path
    return (⟨root, d.path⟩, ← finishLine rest)
  | _ => throw .badLine

/-- Reads headers and assignments; every step takes one. -/
def readDocument (d : Draft) (cs : List Char) : Nat → Except Fault Entries
  | 0 => .error .badLine
  | steps + 1 => do
    match ← skipLines cs (cs.length + 1) with
    | [] => return d.root
    | '[' :: rest =>
      let (d, rest) ← readHeader d.root rest
      readDocument d rest steps
    | rest =>
      let (d, rest) ← readAssignment d rest
      readDocument d rest steps

/-- The table at the top of a text. -/
def parse (text : String) : Except Fault Entries :=
  let cs := text.toList
  let body := if cs.head? = some '\uFEFF' then cs.drop 1 else cs
  readDocument ⟨[], []⟩ body (body.length + 1)

end RegistryGraph.Toml
