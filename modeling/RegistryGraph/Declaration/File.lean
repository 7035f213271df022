import RegistryGraph.Failure
import RegistryGraph.Yaml.Shape

/-!
# Declaration files

A declaration file is a YAML document.  Everything but the path of a source may be left out.
-/

namespace RegistryGraph

open Yaml (Document)

/-- The source that a node describes. -/
def Source.ofNode (d : Document) (n : Yaml.Node) : Except Yaml.Fault Source := do
  let fields ← d.fields ["path", "type", "schema", "description"] n
  let path ← Document.required fields "path" d.text
  let kind ← Document.optional fields "type" "" d.text
  let schema ← Document.optional fields "schema" none d.optText
  let description ← Document.optional fields "description" none d.optText
  return { path, kind, schema, description }

/-- The server information that a node describes. -/
def ServerInfo.ofNode (d : Document) (n : Yaml.Node) : Except Yaml.Fault ServerInfo := do
  let fields ← d.fields ["name", "description", "instructions"] n
  let name ← Document.optional fields "name" "" d.text
  let description ← Document.optional fields "description" "" d.text
  let instructions ← Document.optional fields "instructions" "" d.text
  return { name, description, instructions }

namespace Declaration

/-- The declaration that a document describes; a stream without a document describes the empty one. -/
def ofDocument (d : Document) : Except Yaml.Fault Declaration := do
  let fields ← d.fields ["version", "server", "sources"] (d.root.getD .absent)
  let version ← Document.optional fields "version" defaultVersion d.text
  let server ← Document.optional fields "server" ⟨"", "", ""⟩ (ServerInfo.ofNode d)
  let sources ← Document.optional fields "sources" [] (d.list (Source.ofNode d))
  return { version, server, sources }

/-- Reads a declaration file without checking what it says. -/
def parse (octets : Octets) : Except Yaml.Fault Declaration := do
  ofDocument (← Document.parse octets)

/-- Reads and checks a declaration file; `fallback` names the server if the file does not. -/
def load (octets : Octets) (fallback : String) : Except Failure Declaration :=
  match parse octets with
  | .error fault => .error (.yaml fault.message)
  | .ok d =>
    match d.checked fallback with
    | .ok d => .ok d
    | .error cause => .error (.config (.declaration cause))

end Declaration

end RegistryGraph
