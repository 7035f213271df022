import RegistryGraph.Declaration.Basic
import RegistryGraph.Json.Record

/-!
# Declarations in JSON

A declaration as a JSON value.  Fields that may be absent have the same defaults as in a declaration
file.
-/

namespace RegistryGraph

open Json (Record ShapeFault)

namespace Source

/-- A member for a field that has a value. -/
def optMember (key : String) : Option String → List (String × Json)
  | some s => [(key, .string s)]
  | none => []

/-- The source as a JSON value. -/
def toJson (s : Source) : Json :=
  .record
    ([("path", .string s.path), ("type", .string s.kind)] ++
      optMember "schema" s.schema ++ optMember "description" s.description)

/-- The source that a JSON value describes. -/
def ofJson (v : Json) : Except ShapeFault Source := do
  let r ← Record.ofJson "struct SourceDecl" ["path", "type", "schema", "description"] v
  let description ← r.optional "description" none Json.readOptString
  let path ← r.optional "path" none fun v => (Json.readString v).map some
  let schema ← r.optional "schema" none Json.readOptString
  let kind ← r.optional "type" "" Json.readString
  let path ←
    match path with
    | some path => pure path
    | none => r.required "path" Json.readString
  r.finish
  return { path, kind, schema, description }

end Source

namespace ServerInfo

/-- The server information as a JSON value. -/
def toJson (s : ServerInfo) : Json :=
  .record
    [("name", .string s.name), ("description", .string s.description),
      ("instructions", .string s.instructions)]

/-- The server information that a JSON value describes. -/
def ofJson (v : Json) : Except ShapeFault ServerInfo := do
  let r ← Record.ofJson "struct ServerMeta" ["name", "description", "instructions"] v
  let description ← r.optional "description" "" Json.readString
  let instructions ← r.optional "instructions" "" Json.readString
  let name ← r.optional "name" "" Json.readString
  r.finish
  return { name, description, instructions }

end ServerInfo

namespace Declaration

/-- The declaration as a JSON value. -/
def toJson (d : Declaration) : Json :=
  .record
    [("version", .string d.version), ("server", d.server.toJson),
      ("sources", .array (d.sources.map Source.toJson))]

/-- The declaration that a JSON value describes. -/
def ofJson (v : Json) : Except ShapeFault Declaration := do
  let r ← Record.ofJson "struct McpConfig" ["version", "server", "sources"] v
  let server ← r.optional "server" ⟨"", "", ""⟩ ServerInfo.ofJson
  let sources ← r.optional "sources" [] (Json.readList Source.ofJson)
  let version ← r.optional "version" defaultVersion Json.readString
  r.finish
  return { version, server, sources }

end Declaration

end RegistryGraph
