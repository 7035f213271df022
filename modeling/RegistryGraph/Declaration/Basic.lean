import RegistryGraph.Text.Blank

/-!
# Source declarations

Every repository declares, in a file of its own, how its server presents itself and which source files
it has.  The first XML source in the declaration backs the index that the tools use.
-/

namespace RegistryGraph

/-- A declared source file. -/
structure Source where
  /-- The path, relative to the repository. -/
  path : String
  /-- The declared kind; empty if none is declared. -/
  kind : String
  schema : Option String
  description : Option String
deriving DecidableEq, Repr

/-- Whether the source is read as XML: its kind says so, or its extension if it has no kind. -/
def Source.isXml (s : Source) : Bool :=
  if s.kind.isEmpty then ".xml".toList.isSuffixOf (Text.asciiLower s.path).toList
  else Text.asciiLower s.kind = "xml"

/-- How a server presents itself. -/
structure ServerInfo where
  name : String
  description : String
  instructions : String
deriving DecidableEq, Repr

/-- The declaration of a repository. -/
structure Declaration where
  version : String
  server : ServerInfo
  sources : List Source
deriving DecidableEq, Repr

/-- What is wrong with the content of a declaration. -/
inductive DeclarationFault where
  | noSources
  /-- The path of the source with the given number, from one, is blank. -/
  | emptyPath (number : Nat)
deriving DecidableEq, Repr

/-- The wording of a declaration fault. -/
def DeclarationFault.message : DeclarationFault → String
  | .noSources => "source declaration lists no sources"
  | .emptyPath number => s!"source #{number} has an empty path"

namespace Declaration

/-- The name of the declaration file. -/
def fileName : String := "mcp.yaml"

/-- The version of a declaration that gives none. -/
def defaultVersion : String := "1.0"

/-- The first XML source. -/
def primary? (d : Declaration) : Option Source := d.sources.find? Source.isXml

/-- Checks a declaration and names its server after `fallback` if its name is blank. -/
def checked (d : Declaration) (fallback : String) : Except DeclarationFault Declaration :=
  if d.sources.isEmpty then .error .noSources
  else
    match d.sources.findIdx? fun s => Text.allBlank s.path with
    | some position => .error (.emptyPath (position + 1))
    | none =>
      .ok
        (if Text.allBlank d.server.name then { d with server := { d.server with name := fallback } }
         else d)

end Declaration

end RegistryGraph
