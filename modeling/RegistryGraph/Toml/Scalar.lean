import RegistryGraph.Text.Hex

/-!
# TOML scalars

Strings of four kinds, whole numbers in four bases, floating-point numbers, truth values, dates and
times.  Numbers and dates are recognised as a whole: first the characters that can belong to one are
taken, and then the rules say what they are.
-/

namespace RegistryGraph.Toml

/-- What makes a TOML text unreadable. -/
inductive Fault where
  | badCharacter
  | badEscape
  | unfinishedString
  | badScalar
  | badKey
  | badHeader
  | badLine
  | unfinishedValue
  | repeatedKey
deriving DecidableEq, Repr

/-- The wording of a fault. -/
def Fault.message : Fault → String
  | .badCharacter => "control characters are not allowed"
  | .badEscape => "invalid escape sequence"
  | .unfinishedString => "a string is not closed"
  | .badScalar => "a value is not valid"
  | .badKey => "a key is not valid"
  | .badHeader => "a table header is not valid"
  | .badLine => "expected the end of the line"
  | .unfinishedValue => "an array or an inline table is not closed"
  | .repeatedKey => "duplicate key"

/-- A value that has no parts. Of numbers with a fraction, of dates and of times only their text is
kept. -/
inductive Scalar where
  | string (s : String)
  | integer (n : Int)
  | float (text : String)
  | boolean (b : Bool)
  | datetime (text : String)
deriving DecidableEq, Repr

/-! ## Strings -/

/-- The characters that may stand for themselves in strings and comments. -/
def isPlain (c : Char) : Bool := c = '\t' || (0x20 ≤ c.toNat && c.toNat ≠ 0x7F)

/-- The character that a one-letter escape stands for. -/
def escaped? (c : Char) : Option Char :=
  match c with
  | 'b' => some '\x08'
  | 't' => some '\t'
  | 'n' => some '\n'
  | 'f' => some '\x0c'
  | 'r' => some '\r'
  | 'e' => some '\x1b'
  | '"' => some '"'
  | '\\' => some '\\'
  | _ => none

/-- The number of hexadecimal digits after the letter of an escape. -/
def escapeWidth? (c : Char) : Option Nat :=
  if c = 'x' then some 2 else if c = 'u' then some 4 else if c = 'U' then some 8 else none

/-- Where the reader of a basic string is. -/
inductive StringMode where
  | text
  /-- Behind a backslash. -/
  | escape
  /-- In an escape with so many digits to come and the given value so far. -/
  | hex (left value : Nat)
  /-- Behind a backslash and blanks, before the line end that must follow. -/
  | continued
  /-- In the blanks and line ends that a continued line skips. -/
  | skipping

/-- Reads the rest of a basic string behind the characters `done` (latest first). -/
def basicFrom (done : List Char) : StringMode → List Char → Except Fault (String × List Char)
  | .text, c :: rest =>
    if c = '"' then .ok (.ofList done.reverse, rest)
    else if c = '\\' then basicFrom done .escape rest
    else if isPlain c then basicFrom (c :: done) .text rest
    else .error .badCharacter
  | .escape, c :: rest =>
    match escaped? c, escapeWidth? c with
    | some e, _ => basicFrom (e :: done) .text rest
    | none, some width => basicFrom done (.hex width 0) rest
    | none, none => .error .badEscape
  | .hex left value, c :: rest =>
    match Hex.value? c with
    | none => .error .badEscape
    | some d =>
      let value := value * 16 + d
      if left > 1 then basicFrom done (.hex (left - 1) value) rest
      else if value.isValidChar then basicFrom (.ofNat value :: done) .text rest
      else .error .badEscape
  | _, _ => .error .unfinishedString

/-- Reads the rest of a literal string. -/
def literalFrom (done : List Char) : List Char → Except Fault (String × List Char)
  | [] => .error .unfinishedString
  | c :: rest =>
    if c = '\'' then .ok (.ofList done.reverse, rest)
    else if isPlain c then literalFrom (c :: done) rest
    else .error .badCharacter

/-- Splits the quotes that close a string of several lines from those that belong to it: behind the
closing three, up to two more may come. -/
def closingQuotes (quote : Char) (rest : List Char) : List Char × List Char :=
  match rest with
  | c :: d :: more =>
    if c = quote then if d = quote then ([quote, quote], more) else ([quote], d :: more)
    else ([], rest)
  | [c] => if c = quote then ([quote], []) else ([], rest)
  | [] => ([], [])

/-- Reads the rest of a basic string of several lines. -/
def basicLinesFrom (done : List Char) : StringMode → List Char → Except Fault (String × List Char)
  | .text, c :: rest =>
    if c = '"' && ['"', '"'].isPrefixOf rest then
      let (extra, rest) := closingQuotes '"' (rest.drop 2)
      .ok (.ofList (extra ++ done).reverse, rest)
    else if c = '\\' then basicLinesFrom done .escape rest
    else if c = '\n' || isPlain c then basicLinesFrom (c :: done) .text rest
    else if c = '\r' && rest.head? = some '\n' then basicLinesFrom done .text rest
    else .error .badCharacter
  | .escape, c :: rest =>
    match escaped? c, escapeWidth? c with
    | some e, _ => basicLinesFrom (e :: done) .text rest
    | none, some width => basicLinesFrom done (.hex width 0) rest
    | none, none =>
      if c = '\n' then basicLinesFrom done .skipping rest
      else if c = ' ' || c = '\t' || c = '\r' then basicLinesFrom done .continued rest
      else .error .badEscape
  | .continued, c :: rest =>
    if c = '\n' then basicLinesFrom done .skipping rest
    else if c = ' ' || c = '\t' || c = '\r' then basicLinesFrom done .continued rest
    else .error .badEscape
  | .skipping, c :: rest =>
    if c = '\n' || c = ' ' || c = '\t' || c = '\r' then basicLinesFrom done .skipping rest
    else if c = '"' && ['"', '"'].isPrefixOf rest then
      let (extra, rest) := closingQuotes '"' (rest.drop 2)
      .ok (.ofList (extra ++ done).reverse, rest)
    else if c = '\\' then basicLinesFrom done .escape rest
    else if isPlain c then basicLinesFrom (c :: done) .text rest
    else .error .badCharacter
  | .hex left value, c :: rest =>
    match Hex.value? c with
    | none => .error .badEscape
    | some d =>
      let value := value * 16 + d
      if left > 1 then basicLinesFrom done (.hex (left - 1) value) rest
      else if value.isValidChar then basicLinesFrom (.ofNat value :: done) .text rest
      else .error .badEscape
  | _, [] => .error .unfinishedString

/-- Reads the rest of a literal string of several lines. -/
def literalLinesFrom (done : List Char) : List Char → Except Fault (String × List Char)
  | [] => .error .unfinishedString
  | c :: rest =>
    if c = '\'' && ['\'', '\''].isPrefixOf rest then
      let (extra, rest) := closingQuotes '\'' (rest.drop 2)
      .ok (.ofList (extra ++ done).reverse, rest)
    else if c = '\n' || isPlain c then literalLinesFrom (c :: done) rest
    else if c = '\r' && rest.head? = some '\n' then literalLinesFrom done rest
    else .error .badCharacter

/-- A text without the line end at its start. -/
def dropLineEnd : List Char → List Char
  | '\n' :: rest => rest
  | '\r' :: '\n' :: rest => rest
  | rest => rest

/-- Reads a string, if the text begins with one. -/
def readString? : List Char → Option (Except Fault (String × List Char))
  | '"' :: '"' :: '"' :: rest => some (basicLinesFrom [] .text (dropLineEnd rest))
  | '\'' :: '\'' :: '\'' :: rest => some (literalLinesFrom [] (dropLineEnd rest))
  | '"' :: rest => some (basicFrom [] .text rest)
  | '\'' :: rest => some (literalFrom [] rest)
  | _ => none

/-! ## Numbers -/

/-- The value of digits in a base, with single low lines between digits. -/
def digitsValue? (digit? : Char → Option Nat) (base : Nat) (cs : List Char) : Option Nat :=
  go 0 false cs
where
  /-- Reads the digits behind those with the given value; `between` tells that one has just been read. -/
  go (value : Nat) (between : Bool) : List Char → Option Nat
    | [] => if between then some value else none
    | c :: rest =>
      if c = '_' then if between then go value false rest else none
      else (digit? c).bind fun d => go (value * base + d) true rest

/-- The value of a digit of the given base, which is ten at most. -/
def digitBelow (base : Nat) (c : Char) : Option Nat :=
  if c.isDigit && c.toNat - 48 < base then some (c.toNat - 48) else none

/-- The value of decimal digits that do not begin with a superfluous zero. -/
def decimal? (cs : List Char) : Option Nat :=
  if cs.head? = some '0' && cs.length > 1 then none else digitsValue? (digitBelow 10) 10 cs

/-- A sign and what stands behind it. -/
def splitSign : List Char → Bool × List Char
  | '-' :: rest => (true, rest)
  | '+' :: rest => (false, rest)
  | rest => (false, rest)

/-- The whole number that the characters write. -/
def integer? (cs : List Char) : Option Int :=
  match cs with
  | '0' :: 'x' :: rest => (digitsValue? Hex.value? 16 rest).map Int.ofNat
  | '0' :: 'o' :: rest => (digitsValue? (digitBelow 8) 8 rest).map Int.ofNat
  | '0' :: 'b' :: rest => (digitsValue? (digitBelow 2) 2 rest).map Int.ofNat
  | _ =>
    let (negative, rest) := splitSign cs
    (decimal? rest).map fun n => if negative then -n else n

/-- Whether the characters are the exponent of a number. -/
def isExponent (cs : List Char) : Bool :=
  (digitsValue? (digitBelow 10) 10 (splitSign cs).2).isSome

/-- Whether the characters write a number with a fraction, an exponent, or both, or a special one. -/
def isFloat (cs : List Char) : Bool :=
  let body := (splitSign cs).2
  body = ['i', 'n', 'f'] || body = ['n', 'a', 'n'] ||
    (let isMark (c : Char) : Bool := c = 'e' || c = 'E'
     let mantissa := body.takeWhile (!isMark ·)
     let exponent := body.dropWhile (!isMark ·)
     let whole := mantissa.takeWhile (· ≠ '.')
     let fraction := mantissa.dropWhile (· ≠ '.')
     (decimal? whole).isSome &&
       (fraction.isEmpty || (digitsValue? (digitBelow 10) 10 (fraction.drop 1)).isSome) &&
       (exponent.isEmpty || isExponent (exponent.drop 1)) &&
       !(fraction.isEmpty && exponent.isEmpty))

/-! ## Dates and times -/

/-- The number that `n` digits at the start write, and the rest. -/
def takeDigits (n : Nat) (cs : List Char) : Option (Nat × List Char) :=
  if (cs.take n).length = n && (cs.take n).all Char.isDigit then
    some ((cs.take n).foldl (fun v c => 10 * v + (c.toNat - 48)) 0, cs.drop n)
  else none

/-- What stands behind the given character. -/
def expect (c : Char) : List Char → Option (List Char)
  | d :: rest => if c = d then some rest else none
  | [] => none

/-- The number of days in a month. -/
def daysIn (year month : Nat) : Nat :=
  if month = 2 then
    if year % 4 = 0 && (year % 100 ≠ 0 || year % 400 = 0) then 29 else 28
  else if [4, 6, 9, 11].contains month then 30
  else 31

/-- What stands behind a date. -/
def takeDate (cs : List Char) : Option (List Char) := do
  let (year, rest) ← takeDigits 4 cs
  let (month, rest) ← takeDigits 2 (← expect '-' rest)
  let (day, rest) ← takeDigits 2 (← expect '-' rest)
  if 1 ≤ month && month ≤ 12 && 1 ≤ day && day ≤ daysIn year month then some rest else none

/-- What stands behind a time. -/
def takeTime (cs : List Char) : Option (List Char) := do
  let (hour, rest) ← takeDigits 2 cs
  let (minute, rest) ← takeDigits 2 (← expect ':' rest)
  if hour > 23 || minute > 59 then none
  match expect ':' rest with
  | none => some rest
  | some rest =>
    let (second, rest) ← takeDigits 2 rest
    if second > 60 then none
    match expect '.' rest with
    | none => some rest
    | some rest =>
      if (rest.head?.any Char.isDigit) then some (rest.dropWhile Char.isDigit) else none

/-- Whether the characters are a distance from the universal time, or none. -/
def isOffset : List Char → Bool
  | [] => true
  | c :: rest =>
    if c = 'Z' || c = 'z' then rest.isEmpty
    else if c = '+' || c = '-' then
      match takeDigits 2 rest with
      | some (hour, rest) =>
        match (expect ':' rest).bind (takeDigits 2) with
        | some (minute, rest) => hour ≤ 23 && minute ≤ 59 && rest.isEmpty
        | none => false
      | none => false
    else false

/-- Whether the characters write a date, a time, or both. -/
def isDatetime (cs : List Char) : Bool :=
  match takeDate cs with
  | some [] => true
  | some (c :: rest) =>
    (c = 'T' || c = 't' || c = ' ') &&
      (match takeTime rest with
       | some rest => isOffset rest
       | none => false)
  | none =>
    match takeTime cs with
    | some rest => rest.isEmpty
    | none => false

/-! ## Unquoted scalars -/

/-- Whether the character can belong to an unquoted scalar. -/
def isScalarPart (c : Char) : Bool :=
  !([' ', '\t', '\n', '\r', '#', ',', ']', '\x7d', '=', '[', '\x7b', '"', '\''].contains c)

/-- The scalar that the characters write. -/
def unquoted? (cs : List Char) : Option Scalar :=
  if cs = ['t', 'r', 'u', 'e'] then some (.boolean true)
  else if cs = ['f', 'a', 'l', 's', 'e'] then some (.boolean false)
  else
    match integer? cs with
    | some n => some (.integer n)
    | none =>
      if isFloat cs then some (.float (.ofList cs))
      else if isDatetime cs then some (.datetime (.ofList cs))
      else none

/-- Reads an unquoted scalar. A blank may stand between a date and a time. -/
def readUnquoted (cs : List Char) : Except Fault (Scalar × List Char) :=
  let word := cs.takeWhile isScalarPart
  let rest := cs.dropWhile isScalarPart
  let (word, rest) :=
    match takeDate word, rest with
    | some [], ' ' :: d :: more =>
      if d.isDigit then
        (word ++ ' ' :: (d :: more).takeWhile isScalarPart, (d :: more).dropWhile isScalarPart)
      else (word, rest)
    | _, _ => (word, rest)
  match unquoted? word with
  | some s => .ok (s, rest)
  | none => .error .badScalar

end RegistryGraph.Toml
