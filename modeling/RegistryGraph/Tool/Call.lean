import RegistryGraph.Declaration.Record
import RegistryGraph.Document.Basic
import RegistryGraph.Index.Uniqueness
import RegistryGraph.Tool.Catalog
import RegistryGraph.Tool.Context
import RegistryGraph.Tool.Query
import RegistryGraph.WellFormed

/-!
# Calling a tool

`Tool.call` runs a tool on a context with arguments.  Faults in the arguments are refusals, which the
caller sees as a result.  What goes wrong behind them is a failure: a declared XML source that cannot be
read for the validation, or a document that cannot be made.
-/

namespace RegistryGraph

/-- The report as a JSON value. -/
def ValidationReport.toJson (r : ValidationReport) : Json :=
  .record
    ([("path", .string r.path), ("valid", .bool r.valid), ("stats", r.stats.toJson)] ++
      match r.error with
      | some e => [("error", .string e.message)]
      | none => [])

namespace Tool

/-- An answer, or a refusal for a faulty argument. -/
def answerOr : Except ArgumentFault ToolAnswer → ToolAnswer
  | .ok a => a
  | .error fault => .refusal fault.message

/-- A line about a source. -/
def sourceLine (s : Source) : String :=
  let kind := if s.kind.isEmpty then "unspecified" else s.kind
  s!"- {s.path} ({kind})" ++ (s.description.map fun d => s!": {d}").getD "" ++ "\n"

/-- The description of the server. -/
def helpText (ctx : ToolContext) : String :=
  let server := ctx.server
  s!"{server.name} is a read-only MCP server over an XML entity registry.\n" ++
    (if server.description.isEmpty then "" else s!"{server.description}\n") ++
    "\nEvery element carrying a `code` attribute is an entity with ID `<type>:<code>`; " ++
    "entities nest the way their elements do.\n\nTools:\n" ++
    String.join (all.map fun t => s!"- {t.name}: {t.description}\n") ++
    "\nSources:\n" ++ String.join (ctx.sources.map sourceLine) ++
    if server.instructions.isEmpty then "" else s!"\n{server.instructions}\n"

/-- The identity of the server. -/
def identity (ctx : ToolContext) : Json :=
  .record
    ([("server", .record
          [("name", .string ctx.server.name), ("description", .string ctx.server.description),
            ("version", .string programVersion)]),
        ("protocol_version", .string protocolVersion),
        ("config_version", .string ctx.snapshot.declaration.version),
        ("transports", .strings ["http", "sse", "stdio"]),
        ("repository", .string ctx.snapshot.repo), ("revision", .string ctx.revision),
        ("sources", .array (ctx.sources.map Source.toJson)),
        ("index", .record
          [("source_file", .string ctx.index.sourceFile),
            ("total_entities", .count ctx.index.size)])] ++
      match ctx.serverStats with
      | some stats => [("stats", stats)]
      | none => [])

/-- The reports on the declared XML sources, in order; fails at the first that cannot be read. -/
def sourceReports (ctx : ToolContext) : Except Failure (List ValidationReport) :=
  (ctx.sources.filter Source.isXml).mapM fun s =>
    (ctx.snapshot.content s.path).map fun octets => ValidationReport.ofOctets octets s.path

/-- What is wrong with the sources: one message for each that is not well formed, then the violations
of the index. -/
def validationMessages (ctx : ToolContext) (reports : List ValidationReport) : List String :=
  reports.filterMap (fun r => r.error.map fun e => s!"{r.path}: {e.message}") ++
    ctx.index.violations.map Violation.message

/-- The outcome of validating all sources. -/
def validation (ctx : ToolContext) : Except Failure Json := do
  let reports ← sourceReports ctx
  let messages := validationMessages ctx reports
  return .record
    [("valid", .bool messages.isEmpty), ("revision", .string ctx.revision),
      ("sources", .array (reports.map ValidationReport.toJson)), ("messages", .strings messages),
      ("note", .string
        ("Checks well-formedness and uniqueness only; XSD schema conformance is not " ++
          "verified."))]

/-- The format that an argument names. -/
def formatOf : Option String → Except String DocumentFormat
  | none => .ok .markdown
  | some name =>
    match DocumentFormat.ofName? name with
    | some format => .ok format
    | none => .error name

/-- What document the arguments ask for, or the wording of what is wrong with them. -/
def documentOrder (ctx : ToolContext) (args : Json) :
    Except String (DocumentFilter × DocumentFormat) := do
  let type ← (Arguments.optional args "type").mapError ArgumentFault.message
  let parent ← (Arguments.optional args "parent").mapError ArgumentFault.message
  let format ← (Arguments.optional args "format").mapError ArgumentFault.message
  match formatOf format with
  | .error name => .error s!"Unsupported format '{name}'. Use 'markdown' or 'csv'."
  | .ok format =>
    match ctx.index.unknownParent? parent with
    | some id => .error s!"Entity not found: {id}"
    | none => .ok (⟨type, parent⟩, format)

/-- The document that the arguments ask for. -/
def document (ctx : ToolContext) (args : Json) : Except Failure ToolAnswer :=
  match documentOrder ctx args with
  | .error message => .ok (.refusal message)
  | .ok (filter, format) =>
    match ctx.index.document ctx.server.name filter format with
    | .ok s => .ok (.text s)
    | .error fault => .error (.document fault)

/-- What the tool answers. -/
def answer (ctx : ToolContext) (args : Json) : Tool → Except Failure ToolAnswer
  | .help => .ok (.text (helpText ctx))
  | .identify => .ok (.json (identity ctx))
  | .describeModel => .ok (.json ctx.index.modelJson)
  | .search => .ok (answerOr ((ctx.index.searchReply args).map fun r => .json r.toJson))
  | .getEntity => .ok (answerOr ((ctx.index.entityReply args).map EntityReply.answer))
  | .listEntities => .ok (answerOr ((ctx.index.listingReply args).map Listing.answer))
  | .validate => (validation ctx).map .json
  | .generateDocument => document ctx args

/-- Whether there is a tool with the given name. -/
def isKnown (name : String) : Bool := (ofName? name).isSome

/-- What the tool with the given name answers; an unknown name is a refusal. -/
def answerByName (ctx : ToolContext) (name : String) (args : Json) : Except Failure ToolAnswer :=
  match ofName? name with
  | some tool => tool.answer ctx args
  | none =>
    .ok (.refusal s!"Unknown tool: {name}. Call tools/list for the available tools.")

/-- Calls the tool with the given name. -/
def call (ctx : ToolContext) (name : String) (args : Json) : Except Failure ToolResult :=
  (answerByName ctx name args).map ToolResult.ofAnswer

end Tool

end RegistryGraph
