import RegistryGraph.Files.Fault
import RegistryGraph.Files.Path
import RegistryGraph.Text.Utf8

/-!
# File trees

A file tree is what a file system holds at one moment.  A place in it is the list of the names that lead
there from the top.  `FileTree.locate` follows a path from the working directory; `read`, `stamp?` and
`isFile` are the questions that the program asks.

A file carries the time of its last modification, which whoever writes it chooses.  A directory carries
the moment at which an entry was added or removed last, on the clock of the tree.
-/

namespace RegistryGraph

/-- What stands at a place of a file tree. -/
inductive FileNode where
  | file (octets : Octets) (modified : Int)
  | directory (changed : Nat)
deriving DecidableEq, Repr

/-- What a node shows without being read. -/
inductive FileStamp where
  | file (size : Nat) (modified : Int)
  | directory (changed : Nat)
deriving DecidableEq, Repr

/-- The stamp of a node. -/
def FileNode.stamp : FileNode → FileStamp
  | .file octets modified => .file octets.length modified
  | .directory changed => .directory changed

/-- A place in a file tree: the names that lead there from the top. -/
abbrev Place : Type := List String

/-- What a file system holds. -/
structure FileTree where
  node? : Place → Option FileNode
  /-- Where relative paths start. -/
  workingDirectory : Place
  /-- How many entries have been added or removed so far. -/
  clock : Nat

namespace FileTree

/-- The greatest number of octets in a name. -/
def nameLimit : Nat := 255

/-- Paths with this many octets or more are too long. -/
def pathLimit : Nat := 4096

/-- A tree of directories without a file: the top and those on the way to the working directory. -/
def empty (workingDirectory : Place) : FileTree where
  node? place := if place.isPrefixOf workingDirectory then some (.directory 0) else none
  workingDirectory
  clock := 0

/-! ## Following paths -/

/-- The place that a list of segments leads to from `place`. -/
def walk (t : FileTree) : Place → List String → Except FileFault Place
  | place, [] => .ok place
  | place, segment :: rest =>
    match t.node? place with
    | none => .error .notFound
    | some (.file ..) => .error .notADirectory
    | some (.directory _) =>
      if Path.isStay segment then walk t place rest
      else if segment = ".." then walk t place.dropLast rest
      else if nameLimit < segment.utf8ByteSize then .error .nameTooLong
      else walk t (place ++ [segment]) rest

/-- What a path leads to. -/
def locate (t : FileTree) (path : String) : Except FileFault FileNode :=
  if path.toList.contains '\x00' then .error .zeroOctet
  else if path.isEmpty then .error .notFound
  else if pathLimit ≤ path.utf8ByteSize then .error .nameTooLong
  else
    let start := if Path.isAbsolute path then [] else t.workingDirectory
    match t.walk start (Path.segments path) with
    | .error fault => .error fault
    | .ok place =>
      match t.node? place with
      | some node => .ok node
      | none => .error .notFound

/-- The content of the file that a path leads to. -/
def read (t : FileTree) (path : String) : Except FileFault Octets :=
  match t.locate path with
  | .ok (.file octets _) => .ok octets
  | .ok (.directory _) => .error .isADirectory
  | .error fault => .error fault

/-- The stamp of what a path leads to. -/
def stamp? (t : FileTree) (path : String) : Option FileStamp :=
  match t.locate path with
  | .ok node => some node.stamp
  | .error _ => none

/-- Whether a path leads to a file. -/
def isFile (t : FileTree) (path : String) : Bool :=
  match t.locate path with
  | .ok (.file ..) => true
  | _ => false

/-! ## Changing the tree -/

/-- Sets what stands at a place. -/
def set (t : FileTree) (place : Place) (node? : Option FileNode) : FileTree :=
  { t with node? := fun p => if p = place then node? else t.node? p }

/-- Records that an entry of the directory above `place` was added or removed. -/
def touchAbove (t : FileTree) (place : Place) : FileTree :=
  let now := t.clock + 1
  let t :=
    match t.node? place.dropLast with
    | some (.directory _) => t.set place.dropLast (some (.directory now))
    | _ => t
  { t with clock := now }

/-- Puts a node at a place; the directory above changes if nothing was there. -/
def put (t : FileTree) (place : Place) (node : FileNode) : FileTree :=
  if (t.node? place).isSome then t.set place (some node)
  else (t.touchAbove place).set place (some node)

/-- Makes the directories with the given names, one in the other, below `above`. -/
def ensure (t : FileTree) (above : Place) : List String → FileTree
  | [] => t
  | name :: rest =>
    let place := above ++ [name]
    let t := if (t.node? place).isSome then t else t.put place (.directory (t.clock + 1))
    ensure t place rest

/-- Makes a directory and those above it. -/
def makeDirectory (t : FileTree) (place : Place) : FileTree := t.ensure [] place

/-- Writes a file and makes the directories above it. -/
def write (t : FileTree) (place : Place) (octets : Octets) (modified : Int) : FileTree :=
  (t.makeDirectory place.dropLast).put place (.file octets modified)

/-- Removes what stands at a place and everything below. -/
def remove (t : FileTree) (place : Place) : FileTree :=
  if (t.node? place).isSome then
    let t := t.touchAbove place
    { t with node? := fun p => if place.isPrefixOf p then none else t.node? p }
  else t

end FileTree

end RegistryGraph
