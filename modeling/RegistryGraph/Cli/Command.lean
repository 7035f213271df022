import RegistryGraph.Cli.Arguments

/-!
# Commands

What the program can be told to do, and how it is told.
-/

namespace RegistryGraph.Cli

/-- A command. -/
inductive Command where
  /-- Serves the repositories below a root; what is given overrides the settings. -/
  | serve (root : String) (bind : Option String) (maxSessions keepaliveSeconds : Option Nat)
  /-- Converses on one repository. -/
  | converse (repo : String)
  /-- Reports on the index of a file. -/
  | index (file : String) (json : Bool)
  | search (file query : String) (limit : Nat)
  | validate (file : String)
deriving DecidableEq, Repr

namespace Command

/-! ## Values -/

/-- A path, which is not empty. -/
def path? (value : Octets) : Option String :=
  if value.isEmpty then none else some (Utf8.decodeLossy value)

/-- A text. -/
def text? (value : Octets) : Option String := (Utf8.decode value).toOption

/-- The value of a decimal digit. -/
def digit? (b : UInt8) : Option Nat :=
  if 0x30 ≤ b && b ≤ 0x39 then some (b.toNat - 0x30) else none

/-- The number that decimal digits stand for. -/
def number? (digits : Octets) : Option Nat :=
  if digits.isEmpty then none
  else digits.foldlM (fun n b => (digit? b).map (10 * n + ·)) 0

/-- A number below `bound`, which may have a plus sign. -/
def boundedNumber? (bound : Nat) (value : Octets) : Option Nat :=
  let digits :=
    match value with
    | 0x2B :: rest => rest
    | _ => value
  (number? digits).filter (· < bound)

/-- A count, which takes 64 bits at most. -/
def count? (value : Octets) : Option Nat := boundedNumber? UInt64.size value

/-- The value of an option that may be left out. -/
def optional {α : Type} (a : Arguments) (name : String) (read? : Octets → Option α) :
    Option (Option α) :=
  match a.value? name with
  | none => some none
  | some value => (read? value).map some

/-! ## Commands by name -/

/-- How many entities a search reports unless it is told otherwise. -/
def defaultLimit : Nat := 25

/-- A command in words: its name, its options, and the command that its arguments make. -/
structure Form where
  name : String
  options : List CommandOption
  command? : Arguments → Option Command

/-- The form of `serve`. -/
def serveForm : Form where
  name := "serve"
  options :=
    [⟨"root", some 'r', true⟩, ⟨"bind", some 'b', true⟩, ⟨"max-sessions", none, true⟩,
      ⟨"keepalive-secs", none, true⟩]
  command? a := do
    guard a.operands.isEmpty
    let root ← (a.value? "root").bind path?
    return .serve root (← optional a "bind" text?) (← optional a "max-sessions" count?)
      (← optional a "keepalive-secs" count?)

/-- The form of `stdio`. -/
def converseForm : Form where
  name := "stdio"
  options := [⟨"repo", some 'r', true⟩]
  command? a := do
    guard a.operands.isEmpty
    return .converse (← (a.value? "repo").bind path?)

/-- The form of `index`. -/
def indexForm : Form where
  name := "index"
  options := [⟨"json", some 'j', false⟩]
  command? a :=
    match a.operands with
    | [file] => (path? file).map fun file => .index file (a.value? "json").isSome
    | _ => none

/-- The form of `search`. -/
def searchForm : Form where
  name := "search"
  options := [⟨"limit", some 'l', true⟩]
  command? a :=
    match a.operands with
    | [file, query] => do
      return .search (← path? file) (← text? query)
        ((← optional a "limit" count?).getD defaultLimit)
    | _ => none

/-- The form of `validate`. -/
def validateForm : Form where
  name := "validate"
  options := []
  command? a :=
    match a.operands with
    | [file] => (path? file).map .validate
    | _ => none

/-- The forms of all commands. -/
def forms : List Form := [serveForm, converseForm, indexForm, searchForm, validateForm]

/-- The command on a command line. -/
def parse : List Octets → Except Detour Command
  | [] => .error .misuse
  | first :: rest =>
    match forms.find? (Utf8.encode ·.name = first) with
    | some form =>
      match Arguments.ofList form.options rest with
      | .error detour => .error detour
      | .ok a =>
        match form.command? a with
        | some command => .ok command
        | none => .error .misuse
    | none =>
      .error
        (if first = Utf8.encode "--version" || (Utf8.encode "-V").isPrefixOf first then .version
        else if first = Utf8.encode "help" || first = Utf8.encode "--help" ||
          (Utf8.encode "-h").isPrefixOf first then .help
        else .misuse)

end Command

end RegistryGraph.Cli
