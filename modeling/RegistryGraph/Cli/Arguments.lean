import RegistryGraph.Text.Utf8

/-!
# Arguments

The arguments of a command are options and operands in any order.  An option is written with its name,
`--name`, or with its letter, `-x`.  Its value is the next argument, or follows `=`; behind a letter it
may follow at once.  Letters of options without a value may be written together.  Behind `--` everything
is an operand.
-/

namespace RegistryGraph.Cli

/-- Why arguments do not lead to a command. -/
inductive Detour where
  | help
  | version
  /-- They do not fit any command. -/
  | misuse
deriving DecidableEq, Repr

/-- An option of a command. -/
structure CommandOption where
  name : String
  letter : Option Char
  takesValue : Bool
deriving DecidableEq, Repr

/-- What is given to a command. -/
structure Arguments where
  /-- The options with their values; an option without a value has an empty one. -/
  options : List (String × Octets)
  operands : List Octets
deriving DecidableEq, Repr

/-- The hyphen that begins an option. -/
def hyphen : UInt8 := 0x2D

/-- The sign between an option and its value. -/
def equalsSign : UInt8 := 0x3D

/-- Whether an argument is an option or a group of options. -/
def isOption : Octets → Bool
  | b :: _ :: _ => b = hyphen
  | _ => false

namespace Arguments

/-- The value of an option that is given. -/
def value? (a : Arguments) (name : String) : Option Octets := a.options.lookup name

/-- Adds an option, which must not be given twice. -/
def add (a : Arguments) (name : String) (value : Octets) : Except Detour Arguments :=
  if (a.value? name).isSome then .error .misuse
  else .ok { a with options := a.options ++ [(name, value)] }

/-- Reads letters of options. Delivers the option whose value is the next argument, if there is one. -/
def readLetters (known : List CommandOption) (a : Arguments) :
    Octets → Except Detour (Arguments × Option String)
  | [] => .ok (a, none)
  | b :: rest =>
    let letter := Char.ofNat b.toNat
    match known.find? (·.letter = some letter) with
    | none => .error (if letter = 'h' then .help else .misuse)
    | some option =>
      if option.takesValue then
        match rest with
        | [] => .ok (a, some option.name)
        | c :: value =>
          (a.add option.name (if c = equalsSign then value else c :: value)).map (·, none)
      else
        match a.add option.name [] with
        | .error detour => .error detour
        | .ok a => readLetters known a rest

/-- Reads the name of an option and, behind `=`, its value. -/
def readName (known : List CommandOption) (a : Arguments) (argument : Octets) :
    Except Detour (Arguments × Option String) :=
  let name := argument.takeWhile (· ≠ equalsSign)
  let rest := argument.dropWhile (· ≠ equalsSign)
  match known.find? (Utf8.encode ·.name = name) with
  | none => .error (if argument = Utf8.encode "help" then .help else .misuse)
  | some option =>
    match option.takesValue, rest with
    | true, [] => .ok (a, some option.name)
    | true, _ :: value => (a.add option.name value).map (·, none)
    | false, [] => (a.add option.name []).map (·, none)
    | false, _ :: _ => .error .misuse

/-- Reads one argument. Delivers the option whose value is the next argument, if there is one. -/
def readOne (known : List CommandOption) (a : Arguments) (argument : Octets) :
    Except Detour (Arguments × Option String) :=
  if isOption argument then
    match argument.drop 1 with
    | b :: rest =>
      if b = hyphen then a.readName known rest else a.readLetters known (b :: rest)
    | [] => .error .misuse
  else .ok ({ a with operands := a.operands ++ [argument] }, none)

/-- Reads arguments behind those that have been read. -/
def read (known : List CommandOption) (a : Arguments) : List Octets → Except Detour Arguments
  | [] => .ok a
  | argument :: rest =>
    if argument = [hyphen, hyphen] then .ok { a with operands := a.operands ++ rest }
    else
      match a.readOne known argument with
      | .error detour => .error detour
      | .ok (a, none) => a.read known rest
      | .ok (a, some name) =>
        match rest with
        | [] => .error .misuse
        | value :: rest =>
          if isOption value then .error .misuse
          else
            match a.add name value with
            | .error detour => .error detour
            | .ok a => a.read known rest

/-- The arguments on a command line. -/
def ofList (known : List CommandOption) (arguments : List Octets) : Except Detour Arguments :=
  read known ⟨[], []⟩ arguments

end Arguments

end RegistryGraph.Cli
