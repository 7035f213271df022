import RegistryGraph.Declaration.Basic
import RegistryGraph.Document.Basic
import RegistryGraph.Files.Fault
import RegistryGraph.Index.Builder
import RegistryGraph.Json.Parser
import RegistryGraph.Json.Record

/-!
# Failures

A failure is the outcome of an operation that cannot do what it is asked for.  There is one constructor
per area and one type of causes per area; `Failure.message` is the only place that puts causes into
words for a client.
-/

namespace RegistryGraph

/-- Why the content of a declared source is not at hand. -/
inductive MissingSource where
  /-- The parts that the snapshot was made from do not include it. -/
  | notProvided
  /-- Its path leads, or could lead, out of the repository. -/
  | escapes
  | file (fault : FileFault)
deriving DecidableEq, Repr

/-- The wording of a missing source. -/
def MissingSource.message : MissingSource → String
  | .notProvided => "file not found"
  | .escapes => "path escapes repository"
  | .file fault => fault.message

/-- Why something cannot be read. -/
inductive SourceFault where
  | unknownRepository
  | declarationUnreadable (fault : FileFault)
  | fileUnreadable (fault : FileFault)
  /-- A source is missing from the snapshot with the given revision. -/
  | missing (revision : String) (cause : MissingSource)
  /-- The declaration of the snapshot with the given revision does not list it. -/
  | undeclared (revision : String)
deriving DecidableEq, Repr

/-- The wording of a source fault. -/
def SourceFault.message : SourceFault → String
  | .unknownRepository => "repository not found"
  | .declarationUnreadable fault => s!"failed to read source declaration: {fault.message}"
  | .fileUnreadable fault => s!"failed to read file: {fault.message}"
  | .missing revision cause => s!"cannot read source at revision {revision}: {cause.message}"
  | .undeclared revision => s!"cannot read source at revision {revision}: not a declared source"

/-- Why a file cannot be read as a text. -/
inductive TextFault where
  | file (fault : FileFault)
  /-- Its octets encode no text. -/
  | encoding
deriving DecidableEq, Repr

/-- The wording of a fault of a text file. -/
def TextFault.message : TextFault → String
  | .file fault => fault.message
  | .encoding => "stream did not contain valid UTF-8"

/-- Why a configuration is of no use. -/
inductive ConfigFault where
  | declaration (cause : DeclarationFault)
  | noXmlSource (repo : String)
  | settingsUnreadable (path : String) (fault : TextFault)
  | settingsMalformed (path : String) (detail : String)
deriving DecidableEq, Repr

/-- The wording of a configuration fault. -/
def ConfigFault.message : ConfigFault → String
  | .declaration cause => cause.message
  | .noXmlSource repo => s!"repository {repo} declares no XML source"
  | .settingsUnreadable path fault => s!"failed to read settings file '{path}': {fault.message}"
  | .settingsMalformed path detail => s!"failed to parse settings file '{path}': {detail}"

/-- Why a stream or an address is of no use. -/
inductive IoFault where
  | encoding (fault : Utf8.Fault)
  | invalidAddress
  | invalidPort
deriving DecidableEq, Repr

/-- The wording of a fault of input or output. -/
def IoFault.message : IoFault → String
  | .encoding fault => fault.message
  | .invalidAddress => "invalid socket address"
  | .invalidPort => "invalid port value"

/-- Why a JSON text or value is of no use. -/
inductive JsonFault where
  | text (error : Json.Error)
  | shape (fault : Json.ShapeFault)
deriving Repr

/-- The wording of a JSON fault. -/
def JsonFault.message : JsonFault → String
  | .text error => error.message
  | .shape fault => fault.message

/-- Why an operation fails. -/
inductive Failure where
  | xml (error : IndexError) (path : String)
  | source (fault : SourceFault) (path : String)
  | config (fault : ConfigFault)
  | document (fault : DocumentFault)
  | io (fault : IoFault)
  | json (fault : JsonFault)
  | yaml (detail : String)
deriving Repr

/-- The wording of a failure. -/
def Failure.message : Failure → String
  | .xml error path =>
    s!"xml error: {error.fault.message} (path: {path}, position: {error.position})"
  | .source fault path => s!"source error: {fault.message} (path: {path})"
  | .config fault => s!"config error: {fault.message}"
  | .document (.table (.unequalLengths expected found)) =>
    s!"csv error: {(Csv.Fault.unequalLengths expected found).message}"
  | .document fault => s!"tool error: {fault.message}"
  | .io fault => s!"io error: {fault.message}"
  | .json fault => s!"json error: {fault.message}"
  | .yaml detail => s!"yaml error: {detail}"

end RegistryGraph
