import RegistryGraph.Digest.Sha256
import RegistryGraph.Failure

/-!
# Snapshots

A snapshot is a repository at one revision: its declaration and the content of its sources, read once
and never changed.  The revision is the digest of `Snapshot.material`, a sequence of octets in which
the declaration comes first and every source follows with its path and its content.
-/

namespace RegistryGraph

/-- A repository at one revision. -/
structure Snapshot where
  repo : String
  revision : String
  declaration : Declaration
  files : Keyed Octets
  /-- The declared sources without content. -/
  missing : Keyed MissingSource

namespace Snapshot

/-- What is digested for one source: its path and its content, each closed by a zero octet. -/
def sourceMaterial (files : Keyed Octets) (s : Source) : Octets :=
  Utf8.encode s.path ++ 0 :: (files.getD s.path [] ++ [0])

/-- What the revision is the digest of. -/
def material (declarationOctets : Octets) (declaration : Declaration) (files : Keyed Octets) :
    Octets :=
  declarationOctets ++ declaration.sources.flatMap (sourceMaterial files)

/-- The snapshot of a declaration and the files at hand. The sources among `reasons` have no content
for the reason given there, those that are simply not at hand were not provided. -/
def make (repo : String) (declarationOctets : Octets) (declaration : Declaration)
    (files : Keyed Octets) (reasons : Keyed MissingSource) : Snapshot where
  repo
  revision := Sha256.hex (material declarationOctets declaration files)
  declaration
  files
  missing :=
    reasons.foldl (fun missing path reason => missing.insert path reason)
      (Keyed.ofPairs
        ((declaration.sources.filter fun s => !files.contains s.path).map
          (·.path, MissingSource.notProvided)))

/-- The snapshot of a declaration and the files at hand. -/
def ofParts (repo : String) (declarationOctets : Octets) (declaration : Declaration)
    (files : Keyed Octets) : Snapshot :=
  make repo declarationOctets declaration files ∅

/-- The content of a declared source. -/
def content (s : Snapshot) (path : String) : Except Failure Octets :=
  match s.files[path]? with
  | some octets => .ok octets
  | none =>
    match s.missing[path]? with
    | some cause => .error (.source (.missing s.revision cause) path)
    | none => .error (.source (.undeclared s.revision) path)

/-- The index of a declared source. -/
def buildIndex (s : Snapshot) (path : String) : Except Failure EntityIndex := do
  let octets ← s.content path
  match EntityIndex.build octets path s.revision with
  | .ok index => .ok index
  | .error e => .error (.xml e path)

/-- The source that backs the tools. -/
def primaryPath (s : Snapshot) : Except Failure String :=
  match s.declaration.primary? with
  | some source => .ok source.path
  | none => .error (.config (.noXmlSource s.repo))

end Snapshot

end RegistryGraph
