import RegistryGraph.Text.Pieces

/-!
# Paths

A path is a text in which `/` separates segments.  Empty segments and `.` stay where they are, and `..`
leads to the directory above.  A path that is neither absolute nor has a segment `..` is confined: behind
a base it can only lead to a place at or below the base.
-/

namespace RegistryGraph.Path

/-- The character that separates the segments of a path. -/
def separator : Char := '/'

/-- The segments of a path, with the empty ones. -/
def segments (path : String) : List String := (Text.pieces separator path.toList).map String.ofList

/-- Whether a path starts from the top. -/
def isAbsolute (path : String) : Bool := path.toList.head? = some separator

/-- The path `relative` behind the path `base`; an absolute path stands for itself. -/
def join (base relative : String) : String :=
  if isAbsolute relative then relative
  else if base.isEmpty || base.toList.getLast? = some separator then base ++ relative
  else base ++ "/" ++ relative

/-- Whether a segment stands for the directory it is in. -/
def isStay (segment : String) : Bool := segment.isEmpty || segment = "."

/-- The name of what a path leads to; none if it ends in `..` or has no names. -/
def fileName? (path : String) : Option String :=
  match ((segments path).filter fun s => !isStay s).getLast? with
  | some name => if name = ".." then none else some name
  | none => none

/-- Whether a path cannot lead out of the directory it starts in. -/
def isConfined (path : String) : Bool :=
  !isAbsolute path && (segments path).all fun s => s ≠ ".."

/-- The path `relative` behind the path `base` if it is confined. -/
def confine? (base relative : String) : Option String :=
  if isConfined relative then some (join base relative) else none

/-- Whether a text can be the name of one directory entry and nothing else. -/
def isName (s : String) : Bool :=
  !s.isEmpty && s ≠ "." && s ≠ ".." &&
    s.toList.all fun c => c ≠ separator && c ≠ '\\' && c ≠ '\x00'

end RegistryGraph.Path
