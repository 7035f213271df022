/-!
# Why a file cannot be used

The causes for which a file system refuses to read a path, each with its wording and its number.
-/

namespace RegistryGraph

/-- Why a path cannot be read. -/
inductive FileFault where
  | notFound
  /-- A part of the path, other than the last, is no directory. -/
  | notADirectory
  | isADirectory
  | nameTooLong
  /-- The path contains a zero octet, which no file name can. -/
  | zeroOctet
  /-- Something is there, but the system does not hand it out. -/
  | refused (number : Nat) (text : String)
deriving DecidableEq, Repr

namespace FileFault

/-- The wording of a file fault. -/
def message : FileFault → String
  | .notFound => "No such file or directory (os error 2)"
  | .notADirectory => "Not a directory (os error 20)"
  | .isADirectory => "Is a directory (os error 21)"
  | .nameTooLong => "File name too long (os error 36)"
  | .zeroOctet => "file name contained an unexpected NUL byte"
  | .refused number text => s!"{text} (os error {number})"

/-- Whether the fault means that nothing is there. -/
def isAbsence : FileFault → Bool
  | .isADirectory | .refused .. => false
  | .notFound | .notADirectory | .nameTooLong | .zeroOctet => true

end FileFault

end RegistryGraph
