import RegistryGraph.Cli.Command
import RegistryGraph.Index.Search
import RegistryGraph.Index.Uniqueness
import RegistryGraph.Rpc.Conversation
import RegistryGraph.Settings
import RegistryGraph.Store.IndexCache
import RegistryGraph.Store.Loading
import RegistryGraph.WellFormed

/-!
# The program

A command reads the files that it needs and then either is finished, with an outcome, or has something to
go on with: a conversation, or a service that listens for clients.
-/

namespace RegistryGraph.Cli

/-- What a finished program leaves behind. -/
structure Outcome where
  code : Nat
  output : String
  /-- What it writes for people to read. -/
  diagnostic : String
deriving DecidableEq, Repr

namespace Outcome

/-- Success with an output. -/
def success (output : String) : Outcome := ⟨0, output, ""⟩

/-- A failure behind an output. -/
def failure (output : String) (f : Failure) : Outcome := ⟨1, output, s!"Error: {f.message}\n"⟩

/-- How the program is told what to do. -/
def usage : String :=
  String.intercalate "\n"
    ["usage: xmlgraph serve --root DIR [--bind ADDRESS] [--max-sessions N] [--keepalive-secs N]",
      "       xmlgraph stdio --repo DIR", "       xmlgraph index FILE [--json]",
      "       xmlgraph search FILE QUERY [--limit N]", "       xmlgraph validate FILE",
      "       xmlgraph --version", ""]

/-- The outcome of arguments that do not lead to a command. -/
def ofDetour : Detour → Outcome
  | .help => success usage
  | .version => success s!"xmlgraph {programVersion}\n"
  | .misuse => ⟨2, "", usage⟩

end Outcome

/-- What a command leads to when it has read its files. -/
inductive Progress where
  | finished (outcome : Outcome)
  | converse (ctx : ToolContext)
  | listen (settings : Settings) (root : String)

/-! ## Commands on one file -/

/-- The content of a file. -/
def contentOf (file : String) : Reading (Except Failure Octets) :=
  (Reading.file file).map fun answer =>
    answer.mapError fun fault => .source (.fileUnreadable fault) file

/-- The index of a file. -/
def indexOf (file : String) (octets : Octets) : Except Failure EntityIndex :=
  (EntityIndex.build octets file "").mapError fun e => .xml e file

/-- A report on an index. -/
def indexReport (index : EntityIndex) : String :=
  let types := index.stats.byType.toList
  s!"Indexed {index.sourceFile}\n  Entities:   {index.stats.total}\n" ++
    s!"  Duplicates: {index.duplicates.length}\n" ++
    (if types.isEmpty then ""
    else "\n  Entities by type:\n" ++ String.join (types.map fun e => s!"    {e.1}: {e.2}\n"))

/-- A report on an index as a JSON text. -/
def indexJson (index : EntityIndex) : String :=
  (Json.record
      [("source_file", .string index.sourceFile), ("stats", index.stats.toJson),
        ("duplicates", .count index.duplicates.length)]).pretty ++ "\n"

/-- A line on an entity that was found. -/
def searchLine (e : Entity) : String :=
  if e.parentId.isEmpty then s!"{e.id} - {e.name}\n"
  else s!"{e.id} - {e.name} (in {e.parentId})\n"

/-- What a search has found. -/
def searchReport (index : EntityIndex) (query : String) (limit : Nat) : String :=
  match index.search query limit with
  | [] => s!"No results found for '{query}'\n"
  | found => String.join (found.map searchLine)

/-- What is wrong with a document: that it is not well formed, or which entities are not unique. -/
def problems (octets : Octets) (report : ValidationReport) : Except Failure (List String) :=
  match report.error with
  | some e => .ok [e.message]
  | none =>
    (indexOf report.path octets).map fun index => index.violations.map Violation.message

/-- Validates the content of a file. -/
def validation (file : String) (octets : Octets) : Except Failure Outcome :=
  let report := ValidationReport.ofOctets octets file
  (problems octets report).map fun found =>
    if found.isEmpty then
      .success s!"{file}: valid ({report.stats.total} entities)\n"
    else
      ⟨2, s!"{file}: invalid\n" ++ String.join (found.map fun problem => s!"  - {problem}\n"), ""⟩

/-- Finishes with an outcome or with a failure. -/
def finish : Except Failure Outcome → Progress
  | .ok outcome => .finished outcome
  | .error f => .finished (.failure "" f)

/-- Finishes with what is found out about the content of a file. -/
def onFile (file : String) (f : Octets → Except Failure Outcome) : Reading Progress :=
  (contentOf file).map fun answer => finish (answer.bind f)

/-! ## Conversations and services -/

/-- The name of the repository in a directory. -/
def repoName (directory : String) : String := (Path.fileName? directory).getD "local"

/-- The context of a snapshot. -/
def contextOf (snapshot : Snapshot) : Except Failure ToolContext :=
  ((IndexCache.ofCapacity 1).primaryIndex snapshot).2.map fun cached =>
    ⟨snapshot, cached.index, none⟩

/-- Loads the repository in a directory and goes on with a conversation. -/
def startConversation (directory : String) : Reading Progress :=
  (Snapshot.load directory (repoName directory)).map fun loaded =>
    match loaded.bind contextOf with
    | .ok ctx => .converse ctx
    | .error f => .finished (.failure "" f)

/-- The settings in a directory; the default settings if there is no file. -/
def readSettings (directory : String) : Reading (Except Failure Settings) :=
  let path := Path.join directory Settings.fileName
  (Reading.file path).map fun
    | .ok octets => Settings.load path octets
    | .error fault =>
      if fault.isAbsence then .ok .default
      else .error (.config (.settingsUnreadable path (.file fault)))

/-- What keeps an address from being listened on, as far as its form shows. -/
def addressFault? (address : String) : Option IoFault :=
  let reversed := address.toList.reverse
  match reversed.dropWhile (· ≠ ':') with
  | [] => some .invalidAddress
  | _ :: _ =>
    let number := (reversed.takeWhile (· ≠ ':')).reverse
    if (Command.boundedNumber? UInt16.size (Utf8.encode (.ofList number))).isSome then none
    else some .invalidPort

/-- Reads the settings and goes on with a service. -/
def startService (root : String) (bind : Option String)
    (maxSessions keepaliveSeconds : Option Nat) : Reading Progress :=
  (readSettings root).map fun
    | .error f => .finished (.failure "" f)
    | .ok settings =>
      let settings :=
        { settings with
          bind := bind.getD settings.bind
          maxSessions := maxSessions.getD settings.maxSessions
          keepaliveSeconds := keepaliveSeconds.getD settings.keepaliveSeconds }
      match addressFault? settings.bind with
      | some fault => .finished (.failure "" (.io fault))
      | none => .listen settings root

/-- What a command leads to. -/
def Command.start : Command → Reading Progress
  | .serve root bind maxSessions keepaliveSeconds =>
    startService root bind maxSessions keepaliveSeconds
  | .converse directory => startConversation directory
  | .index file json =>
    onFile file fun octets => do
      let index ← indexOf file octets
      return .success (if json then indexJson index else indexReport index)
  | .search file query limit =>
    onFile file fun octets => do
      return .success (searchReport (← indexOf file octets) query limit)
  | .validate file => onFile file (validation file)

/-- What the arguments of the program lead to. -/
def start (arguments : List Octets) : Reading Progress :=
  match Command.parse arguments with
  | .ok command => command.start
  | .error detour => .done (.finished (.ofDetour detour))

/-- The outcome of a conversation with the given input. -/
def conversation (ctx : ToolContext) (input : Octets) : Outcome :=
  match Rpc.Conversation.run ctx 0 input with
  | (output, none) => .success output
  | (output, some fault) => .failure output (.io fault)

end RegistryGraph.Cli
