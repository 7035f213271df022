import RegistryGraph.Json.Basic
import RegistryGraph.Text.Hex

/-!
# Reading JSON

`Json.parse` reads one JSON text from octets.  The reader is a machine that takes one octet at a time:
its state is what it expects next, together with the containers that are open.  `State.step` is the
transition, `State.finish` is what the end of the input means, and a fault is reported with the line
and the number of octets of that line that had been read.

Numbers follow their own small machine, `Numeral`.  An integer that fits stays exact.  Everything else
becomes a floating-point number by one rounding of its first digits and one multiplication or division
by a power of ten.
-/

namespace RegistryGraph.Json

/-- What can be wrong with a JSON text. -/
inductive Fault where
  | endInValue
  | endInList
  | endInObject
  | endInString
  | expectedValue
  | expectedIdent
  | expectedColon
  | expectedCommaOrBracket
  | expectedCommaOrBrace
  | keyNotString
  | trailingComma
  | trailingCharacters
  | invalidNumber
  | numberOutOfRange
  | invalidEscape
  | unfinishedHexEscape
  | loneSurrogate
  | invalidCodePoint
  | controlCharacter
  | tooDeep
deriving DecidableEq, Repr

/-- The wording of a fault. -/
def Fault.message : Fault → String
  | .endInValue => "EOF while parsing a value"
  | .endInList => "EOF while parsing a list"
  | .endInObject => "EOF while parsing an object"
  | .endInString => "EOF while parsing a string"
  | .expectedValue => "expected value"
  | .expectedIdent => "expected ident"
  | .expectedColon => "expected `:`"
  | .expectedCommaOrBracket => "expected `,` or `]`"
  | .expectedCommaOrBrace => "expected `,` or `\x7d`"
  | .keyNotString => "key must be a string"
  | .trailingComma => "trailing comma"
  | .trailingCharacters => "trailing characters"
  | .invalidNumber => "invalid number"
  | .numberOutOfRange => "number out of range"
  | .invalidEscape => "invalid escape"
  | .unfinishedHexEscape => "unexpected end of hex escape"
  | .loneSurrogate => "lone leading surrogate in hex escape"
  | .invalidCodePoint => "invalid unicode code point"
  | .controlCharacter => "control character (\\u0000-\\u001F) found while parsing a string"
  | .tooDeep => "recursion limit exceeded"

/-- A fault and where it was noticed. -/
structure Error where
  fault : Fault
  line : Nat
  column : Nat
deriving DecidableEq, Repr

/-- The wording of an error. -/
def Error.message (e : Error) : String :=
  s!"{e.fault.message} at line {e.line} column {e.column}"

/-- A fault, and how many octets up to the one at hand do not count as read. -/
structure Stop where
  fault : Fault
  back : Nat

/-- At most this many containers, less one, may be open at once. -/
def depthLimit : Nat := 128

/-- Blanks between the parts of a JSON text. -/
def isBlank (b : UInt8) : Bool := b = 0x20 || b = 0x0A || b = 0x09 || b = 0x0D

/-- The value of a decimal digit. -/
def digit? (b : UInt8) : Option Nat :=
  if 0x30 ≤ b && b ≤ 0x39 then some (b.toNat - 0x30) else none

/-! ## Numbers -/

/-- The part of a number that has been read. The value so far is `significand · 10^shift`. -/
inductive Numeral where
  /-- Only the sign. -/
  | sign
  /-- A leading zero. -/
  | zero
  /-- Digits of the integer part. -/
  | whole (significand : Nat)
  /-- More integer digits than the significand holds; the others are only counted. -/
  | long (significand : Nat) (shift : Int)
  /-- The point, and no digit after it. -/
  | point (significand : Nat) (shift : Int)
  /-- Digits of the fraction. -/
  | fraction (significand : Nat) (shift : Int)
  /-- More digits of the fraction than the significand holds. -/
  | surplus (significand : Nat) (shift : Int)
  /-- The mark of the exponent. -/
  | mark (significand : Nat) (shift : Int)
  /-- The mark and the sign of the exponent. -/
  | markSign (significand : Nat) (shift : Int) (positive : Bool)
  /-- Digits of the exponent. -/
  | exponent (significand : Nat) (shift : Int) (positive : Bool) (e : Nat)
  /-- An exponent that is out of all bounds and makes the number zero. -/
  | vanished

namespace Numeral

/-- The greatest significand. -/
def significandLimit : Nat := UInt64.size - 1

/-- The greatest exponent that is read digit by digit. -/
def exponentLimit : Nat := Nat.pow 2 31 - 1

/-- The greatest power of ten used in one multiplication or division. -/
def tenPowerLimit : Nat := 308

/-- Adds a digit of the integer part. -/
def addWhole (significand d : Nat) : Numeral :=
  if significand * 10 + d > significandLimit then .long significand 1
  else .whole (significand * 10 + d)

/-- Adds a digit of the fraction. -/
def addFraction (significand : Nat) (shift : Int) (d : Nat) : Numeral :=
  if significand * 10 + d > significandLimit then .surplus significand shift
  else .fraction (significand * 10 + d) (shift - 1)

/-- Adds a digit of the exponent. -/
def addExponent (significand : Nat) (shift : Int) (positive : Bool) (e d : Nat) :
    Except Stop Numeral :=
  if e * 10 + d > exponentLimit then
    if significand ≠ 0 && positive then .error ⟨.numberOutOfRange, 0⟩ else .ok .vanished
  else .ok (.exponent significand shift positive (e * 10 + d))

/-- Whether the octet is the mark of an exponent. -/
def isMark (b : UInt8) : Bool := b = 0x65 || b = 0x45

/-- Reads one more octet; none if the number ends before it. -/
def step (b : UInt8) : Numeral → Except Stop (Option Numeral)
  | .sign =>
    match digit? b with
    | some 0 => .ok (some .zero)
    | some d => .ok (some (.whole d))
    | none => .error ⟨.invalidNumber, 0⟩
  | .zero =>
    match digit? b with
    | some _ => .error ⟨.invalidNumber, 0⟩
    | none =>
      if b = 0x2E then .ok (some (.point 0 0))
      else if isMark b then .ok (some (.mark 0 0))
      else .ok none
  | .whole s =>
    match digit? b with
    | some d => .ok (some (addWhole s d))
    | none =>
      if b = 0x2E then .ok (some (.point s 0))
      else if isMark b then .ok (some (.mark s 0))
      else .ok none
  | .long s shift =>
    match digit? b with
    | some _ => .ok (some (.long s (shift + 1)))
    | none =>
      if b = 0x2E then .ok (some (.point s shift))
      else if isMark b then .ok (some (.mark s shift))
      else .ok none
  | .point s shift =>
    match digit? b with
    | some d => .ok (some (addFraction s shift d))
    | none => .error ⟨.invalidNumber, 0⟩
  | .fraction s shift =>
    match digit? b with
    | some d => .ok (some (addFraction s shift d))
    | none => if isMark b then .ok (some (.mark s shift)) else .ok none
  | .surplus s shift =>
    match digit? b with
    | some _ => .ok (some (.surplus s shift))
    | none => if isMark b then .ok (some (.mark s shift)) else .ok none
  | .mark s shift =>
    match digit? b with
    | some d => .ok (some (.exponent s shift true d))
    | none =>
      if b = 0x2B then .ok (some (.markSign s shift true))
      else if b = 0x2D then .ok (some (.markSign s shift false))
      else .error ⟨.invalidNumber, 0⟩
  | .markSign s shift positive =>
    match digit? b with
    | some d => .ok (some (.exponent s shift positive d))
    | none => .error ⟨.invalidNumber, 0⟩
  | .exponent s shift positive e =>
    match digit? b with
    | some d => (addExponent s shift positive e d).map some
    | none => .ok none
  | .vanished =>
    match digit? b with
    | some _ => .ok (some .vanished)
    | none => .ok none

/-- Multiplies or divides by `10^|shift|`, in steps of at most `10^308`. A positive power of ten
beyond that bound is out of range; `tries` steps are enough to bring any number down to zero. -/
def scale (x : Binary64) (shift : Int) : Nat → Option Binary64
  | 0 => some x
  | tries + 1 =>
    if shift.natAbs ≤ tenPowerLimit then
      (Binary64.tenPower shift.natAbs).bind fun p => if shift ≥ 0 then x.mul p else x.div p
    else if x.isZero then some x
    else if shift ≥ 0 then none
    else
      ((Binary64.tenPower tenPowerLimit).bind x.div).bind
        fun y => scale y (shift + tenPowerLimit) tries

/-- The floating-point number `±significand · 10^shift`. -/
def double (negative : Bool) (significand : Nat) (shift : Int) : Except Fault Number :=
  match (Binary64.ofNat? significand).bind (scale · shift 4) with
  | some x => .ok (.double (x.withSign negative))
  | none => .error .numberOutOfRange

/-- The number that ends here. -/
def value (negative : Bool) : Numeral → Except Fault Number
  | .zero => if negative then double true 0 0 else .ok (.integer 0)
  | .whole s =>
    if !negative then .ok (.integer s)
    else if s ≤ Nat.pow 2 63 then .ok (.integer (-s))
    else double true s 0
  | .long s shift | .fraction s shift | .surplus s shift => double negative s shift
  | .exponent s shift positive e =>
    double negative s (if positive then shift + e else shift - e)
  | .vanished => double negative 0 0
  | .sign | .point .. | .mark .. | .markSign .. => .error .endInValue

end Numeral

/-! ## Strings -/

/-- What the reader expects inside a string. -/
inductive StringPart where
  /-- Characters, an escape or the closing quote. -/
  | plain
  /-- The character after a backslash. -/
  | escape
  /-- Hexadecimal digits of an escape; `taken` holds those read, latest first, and `high` the leading
  surrogate that the escape follows. -/
  | hex (taken : Octets) (high : Option Nat)
  /-- The backslash of the escape that must follow a leading surrogate. -/
  | lowBackslash (high : Nat)
  /-- The letter of that escape. -/
  | lowLetter (high : Nat)

/-- A string that is being read: its octets, what comes next, and what has been read since the opening
quote. Octets stand latest first. -/
structure StringState where
  done : Octets
  part : StringPart
  source : Octets

/-- The outcome of one more octet of a string. -/
inductive StringStep where
  | more (s : StringState)
  | closed (s : StringState)

namespace StringState

/-- The state behind the opening quote. -/
def start : StringState := ⟨[], .plain, []⟩

/-- Adds a character to the octets of a string. -/
def push (done : Octets) (n : Nat) : Octets × StringPart :=
  ((String.utf8EncodeChar (.ofNat n)).reverse ++ done, .plain)

/-- The character that a one-letter escape stands for. -/
def escaped? (b : UInt8) : Option UInt8 :=
  if b = 0x22 || b = 0x5C || b = 0x2F then some b
  else if b = 0x62 then some 0x08
  else if b = 0x66 then some 0x0C
  else if b = 0x6E then some 0x0A
  else if b = 0x72 then some 0x0D
  else if b = 0x74 then some 0x09
  else none

/-- The number written by four hexadecimal digits, latest first. -/
def hexValue : Octets → Option Nat
  | [] => some 0
  | b :: rest => (hexValue rest).bind fun n => (Hex.octetValue? b).map (n * 16 + ·)

/-- A leading surrogate. -/
def isHigh (n : Nat) : Bool := 0xD800 ≤ n && n ≤ 0xDBFF

/-- A trailing surrogate. -/
def isLow (n : Nat) : Bool := 0xDC00 ≤ n && n ≤ 0xDFFF

/-- Takes in the number `n` of a complete hexadecimal escape. -/
def addUnit (done : Octets) (n : Nat) : Option Nat → Except Stop (Octets × StringPart)
  | none =>
    if isLow n then .error ⟨.loneSurrogate, 0⟩
    else if isHigh n then .ok (done, .lowBackslash n)
    else .ok (push done n)
  | some high =>
    if isLow n then .ok (push done ((high - 0xD800) * 0x400 + (n - 0xDC00) + 0x10000))
    else .error ⟨.loneSurrogate, 0⟩

/-- Reads one more octet inside a string; none if it closes the string. -/
def advance (b : UInt8) (done : Octets) : StringPart → Except Stop (Option (Octets × StringPart))
  | .plain =>
    if b = 0x22 then .ok none
    else if b = 0x5C then .ok (some (done, .escape))
    else if b < 0x20 then .error ⟨.controlCharacter, 0⟩
    else .ok (some (b :: done, .plain))
  | .escape =>
    if b = 0x75 then .ok (some (done, .hex [] none))
    else
      match escaped? b with
      | some c => .ok (some (c :: done, .plain))
      | none => .error ⟨.invalidEscape, 0⟩
  | .hex taken high =>
    if taken.length < 3 then .ok (some (done, .hex (b :: taken) high))
    else
      match hexValue (b :: taken) with
      | some n => (addUnit done n high).map some
      | none => .error ⟨.invalidEscape, 0⟩
  | .lowBackslash high =>
    if b = 0x5C then .ok (some (done, .lowLetter high))
    else .error ⟨.unfinishedHexEscape, 0⟩
  | .lowLetter high =>
    if b = 0x75 then .ok (some (done, .hex [] (some high)))
    else .error ⟨.unfinishedHexEscape, 0⟩

/-- Reads one more octet. -/
def step (b : UInt8) (s : StringState) : Except Stop StringStep :=
  (advance b s.done s.part).map fun
    | some (done, part) => .more ⟨done, part, b :: s.source⟩
    | none => .closed s

/-- The text of a string that is closed. A text that is not well encoded is reported at the octet where
that shows; escapes are well encoded whatever they stand for. -/
def text (s : StringState) : Except Stop String :=
  match Utf8.decode s.done.reverse with
  | .ok text => .ok text
  | .error fault =>
    let place :=
      match Utf8.decode s.source.reverse with
      | .error fault => fault.index
      | .ok _ => fault.index
    .error ⟨.invalidCodePoint, s.source.length - place⟩

end StringState

/-! ## Values -/

/-- A container that is still open. What it holds so far stands latest first. -/
inductive Container where
  | list (items : List Json)
  | object (members : List (String × Json))
  /-- An object whose member `key` waits for its value. -/
  | member (members : List (String × Json)) (key : String)

/-- Where a value is expected. -/
inductive Place where
  /-- At the start of the text, or after a colon. -/
  | required
  /-- After the opening bracket of a list, which may be empty. -/
  | firstItem
  /-- After a comma in a list. -/
  | nextItem

/-- What the reader expects next. -/
inductive Mode where
  | value (place : Place)
  | firstKey
  | nextKey
  | colon
  | string (isKey : Bool) (s : StringState)
  /-- The remaining letters of the literal for `v`. -/
  | literal (letters : Octets) (v : Json)
  | number (negative : Bool) (n : Numeral)
  /-- A comma or the end of the innermost container. -/
  | separator
  /-- Nothing: the text's value is complete. -/
  | complete (v : Json)

/-- The reader's state: what it expects, and the open containers, innermost first. -/
structure State where
  mode : Mode
  stack : List Container

namespace State

/-- The state before the first octet. -/
def start : State := ⟨.value .required, []⟩

/-- Delivers a value to the innermost container, or as the value of the text. -/
def deliver (v : Json) : List Container → State
  | [] => ⟨.complete v, []⟩
  | .list items :: outer => ⟨.separator, .list (v :: items) :: outer⟩
  | .member members key :: outer => ⟨.separator, .object ((key, v) :: members) :: outer⟩
  | .object members :: outer => ⟨.separator, .object members :: outer⟩

/-- Opens a container, unless too many are open. -/
def openContainer (c : Container) (mode : Mode) (stack : List Container) : Except Stop State :=
  if stack.length + 1 < depthLimit then .ok ⟨mode, c :: stack⟩ else .error ⟨.tooDeep, 0⟩

/-- Starts the value that begins with `b`. -/
def beginValue (b : UInt8) (stack : List Container) : Except Stop State :=
  if b = 0x6E then .ok ⟨.literal [0x75, 0x6C, 0x6C] .null, stack⟩
  else if b = 0x74 then .ok ⟨.literal [0x72, 0x75, 0x65] (.bool true), stack⟩
  else if b = 0x66 then .ok ⟨.literal [0x61, 0x6C, 0x73, 0x65] (.bool false), stack⟩
  else if b = 0x22 then .ok ⟨.string false .start, stack⟩
  else if b = 0x5B then openContainer (.list []) (.value .firstItem) stack
  else if b = 0x7B then openContainer (.object []) .firstKey stack
  else if b = 0x2D then .ok ⟨.number true .sign, stack⟩
  else
    match digit? b with
    | some 0 => .ok ⟨.number false .zero, stack⟩
    | some d => .ok ⟨.number false (.whole d), stack⟩
    | none => .error ⟨.expectedValue, 0⟩

/-- Reads a closing bracket, a closing brace or a comma behind a value in a container. -/
def separate (b : UInt8) : List Container → Except Stop State
  | .list items :: outer =>
    if b = 0x2C then .ok ⟨.value .nextItem, .list items :: outer⟩
    else if b = 0x5D then .ok (deliver (.array items.reverse) outer)
    else .error ⟨.expectedCommaOrBracket, 0⟩
  | .object members :: outer =>
    if b = 0x2C then .ok ⟨.nextKey, .object members :: outer⟩
    else if b = 0x7D then .ok (deliver (.object members.reverse) outer)
    else .error ⟨.expectedCommaOrBrace, 0⟩
  | .member .. :: _ | [] => .error ⟨.trailingCharacters, 0⟩

/-- Takes in a finished string. -/
def closeString (isKey : Bool) (text : StringState) (stack : List Container) :
    Except Stop State :=
  match text.text with
  | .error stop => .error stop
  | .ok s =>
    if isKey then
      match stack with
      | .object members :: outer => .ok ⟨.colon, .member members s :: outer⟩
      | _ => .ok ⟨.colon, stack⟩
    else .ok (deliver (.string s) stack)

/-- Reads one octet after a complete value. -/
def afterValue (b : UInt8) (s : State) : Except Stop State :=
  if isBlank b then .ok s
  else
    match s.mode with
    | .complete _ => .error ⟨.trailingCharacters, 0⟩
    | _ => separate b s.stack

/-- Reads one octet. -/
def step (b : UInt8) (s : State) : Except Stop State :=
  match s.mode with
  | .value place =>
    if isBlank b then .ok s
    else
      match place with
      | .required => beginValue b s.stack
      | .firstItem => if b = 0x5D then separate b s.stack else beginValue b s.stack
      | .nextItem => if b = 0x5D then .error ⟨.trailingComma, 0⟩ else beginValue b s.stack
  | .firstKey =>
    if isBlank b then .ok s
    else if b = 0x22 then .ok ⟨.string true .start, s.stack⟩
    else if b = 0x7D then separate b s.stack
    else .error ⟨.keyNotString, 0⟩
  | .nextKey =>
    if isBlank b then .ok s
    else if b = 0x22 then .ok ⟨.string true .start, s.stack⟩
    else if b = 0x7D then .error ⟨.trailingComma, 0⟩
    else .error ⟨.keyNotString, 0⟩
  | .colon =>
    if isBlank b then .ok s
    else if b = 0x3A then .ok ⟨.value .required, s.stack⟩
    else .error ⟨.expectedColon, 0⟩
  | .string isKey text =>
    match text.step b with
    | .error stop => .error stop
    | .ok (.more text) => .ok ⟨.string isKey text, s.stack⟩
    | .ok (.closed text) => closeString isKey text s.stack
  | .literal [] v => afterValue b (deliver v s.stack)
  | .literal (l :: letters) v =>
    if b ≠ l then .error ⟨.expectedIdent, 0⟩
    else if letters.isEmpty then .ok (deliver v s.stack)
    else .ok ⟨.literal letters v, s.stack⟩
  | .number negative n =>
    match n.step b with
    | .error stop => .error stop
    | .ok (some n) => .ok ⟨.number negative n, s.stack⟩
    | .ok none =>
      match n.value negative with
      | .error fault => .error ⟨fault, 1⟩
      | .ok v => afterValue b (deliver (.number v) s.stack)
  | .separator => afterValue b s
  | .complete _ => afterValue b s

/-- What the end of the input means inside a container. -/
def endInside : List Container → Fault
  | .list _ :: _ => .endInList
  | _ => .endInObject

/-- The value of a text that ends here. -/
def finish (s : State) : Except Fault Json :=
  match s.mode with
  | .value .firstItem => .error .endInList
  | .value .required | .value .nextItem => .error .endInValue
  | .firstKey | .colon => .error .endInObject
  | .nextKey => .error .endInValue
  | .string .. => .error .endInString
  | .literal .. => .error .endInValue
  | .number negative n =>
    match n.value negative with
    | .error fault => .error fault
    | .ok v =>
      match s.stack with
      | [] => .ok (.number v)
      | stack => .error (endInside stack)
  | .separator => .error (endInside s.stack)
  | .complete v => .ok v

/-- Reads all octets, counting lines and the octets of the current line. -/
def run (line column : Nat) (s : State) : Octets → Except Error Json
  | [] =>
    match s.finish with
    | .ok v => .ok v
    | .error fault => .error ⟨fault, line, column⟩
  | b :: rest =>
    let line' := if b = 0x0A then line + 1 else line
    let column' := if b = 0x0A then 0 else column + 1
    match s.step b with
    | .ok s => run line' column' s rest
    | .error ⟨fault, 0⟩ => .error ⟨fault, line', column'⟩
    | .error ⟨fault, back + 1⟩ => .error ⟨fault, line, column - back⟩

end State

/-- Reads one JSON text; members stay as they were written. -/
def parseRaw (octets : Octets) : Except Error Json := State.start.run 1 0 octets

/-- Reads one JSON text in canonical form: of repeated members the last counts. -/
def parse (octets : Octets) : Except Error Json := (parseRaw octets).map canonical

end RegistryGraph.Json
