import RegistryGraph.Json.Basic

/-!
# The tools

There are eight tools, and all of them only read.  Every tool has a name, a description and a schema
of its arguments.
-/

namespace RegistryGraph

/-- A tool. -/
inductive Tool where
  | help
  | identify
  | describeModel
  | search
  | getEntity
  | listEntities
  | validate
  | generateDocument
deriving DecidableEq, Repr

namespace Tool

/-- All tools in the order in which they are listed. -/
def all : List Tool :=
  [.help, .identify, .describeModel, .search, .getEntity, .listEntities, .validate,
    .generateDocument]

/-- The name. -/
def name : Tool → String
  | .help => "help"
  | .identify => "identify"
  | .describeModel => "describe_model"
  | .search => "search"
  | .getEntity => "get_entity"
  | .listEntities => "list_entities"
  | .validate => "validate"
  | .generateDocument => "generate_document"

/-- The tool with the given name. -/
def ofName? (name : String) : Option Tool := all.find? (·.name = name)

/-- What the tool does. -/
def description : Tool → String
  | .help => "Describe this server, its tools and its declared data sources."
  | .identify =>
    "Return server name, version, protocol, transports, revision and declared sources."
  | .describeModel =>
    "Summarize the entity model: per type, its count, attribute keys and sampled " ++
      "parent/child types."
  | .search => "Case-insensitive search across entity names, IDs and attribute values."
  | .getEntity =>
    "Retrieve one entity by its ID (`<type>:<code>`), with attributes, parent and children."
  | .listEntities =>
    "List entities: children of a parent, all entities of a type, or everything."
  | .validate =>
    "Check that declared XML sources are well-formed and that nmr values and per-type codes " ++
      "are unique. Does not check XSD conformance."
  | .generateDocument => "Render the entity hierarchy as Markdown tables or as flat CSV."

/-- An argument in a schema: its name, its kind and what it means, and the values it may have if they
are few. -/
structure Parameter where
  name : String
  kind : String
  description : String
  choices : List String

/-- The arguments. -/
def parameters : Tool → List Parameter
  | .search =>
    [⟨"query", "string", "Text to look for", []⟩,
      ⟨"limit", "number", "Maximum number of results (default: 25, max: 100)", []⟩]
  | .getEntity => [⟨"id", "string", "Entity ID, e.g. organization:100", []⟩]
  | .listEntities =>
    [⟨"type", "string", "Entity type to list", []⟩,
      ⟨"parent", "string", "ID of the entity whose direct children to list", []⟩]
  | .generateDocument =>
    [⟨"type", "string", "Only cover entities of this type", []⟩,
      ⟨"parent", "string", "Only cover this entity and what it contains", []⟩,
      ⟨"format", "string", "Output format (default: markdown)", ["markdown", "csv"]⟩]
  | _ => []

/-- The names of the arguments that must be there. -/
def requiredParameters : Tool → List String
  | .search => ["query"]
  | .getEntity => ["id"]
  | _ => []

/-- The schema of one argument. -/
def Parameter.schema (p : Parameter) : Json :=
  .record
    ([("type", .string p.kind), ("description", .string p.description)] ++
      if p.choices.isEmpty then [] else [("enum", .strings p.choices)])

/-- The schema of the arguments. -/
def schema (t : Tool) : Json :=
  .record
    ([("type", .string "object"),
        ("properties", .record (t.parameters.map fun p => (p.name, p.schema)))] ++
      if t.requiredParameters.isEmpty then []
      else [("required", .strings t.requiredParameters)])

/-- What a listing of the tools says about this one. -/
def definition (t : Tool) : Json :=
  .record
    [("name", .string t.name), ("description", .string t.description), ("inputSchema", t.schema)]

end Tool

end RegistryGraph
