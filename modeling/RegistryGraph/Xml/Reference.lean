import RegistryGraph.Xml.Fault

/-!
# References

A reference `&name;` stands for one of five characters, `&#d;` and `&#xh;` for the character with that
number.  `resolve` replaces every reference of a text or refuses the first one that is wrong.
-/

namespace RegistryGraph.Xml.Reference

/-- The character of a named reference. -/
def named? : List Char → Option Char
  | ['l', 't'] => some '<'
  | ['g', 't'] => some '>'
  | ['a', 'm', 'p'] => some '&'
  | ['a', 'p', 'o', 's'] => some '\''
  | ['q', 'u', 'o', 't'] => some '"'
  | _ => none

/-- The value of a digit in a base up to sixteen. -/
def digit? (base : Nat) (c : Char) : Option Nat :=
  let n := c.toNat
  let d :=
    if 0x30 ≤ n && n ≤ 0x39 then n - 0x30
    else if 0x41 ≤ n && n ≤ 0x46 then n - 0x37
    else if 0x61 ≤ n && n ≤ 0x66 then n - 0x57
    else base
  if d < base then some d else none

/-- Reads digits behind the number `n`; a number of more than 32 bits is too large. -/
def digitsFrom (base n : Nat) : List Char → Except CharacterFault Nat
  | [] => .ok n
  | c :: rest =>
    match digit? base c with
    | none => .error .notADigit
    | some d =>
      if n * base + d < 2 ^ 32 then digitsFrom base (n * base + d) rest else .error .tooLarge

/-- The number written by `cs`, which must not begin with a sign. -/
def number (base : Nat) (cs : List Char) : Except CharacterFault Nat :=
  match cs with
  | [] => .error .noDigits
  | c :: _ => if c = '+' || c = '-' then .error .sign else digitsFrom base 0 cs

/-- The character with the given number. -/
def scalar (n : Nat) : Except CharacterFault Char :=
  if n = 0 then .error (.notPermitted n)
  else if n.isValidChar then .ok (.ofNat n)
  else .error (.notAScalar n)

/-- The character of a reference by number, without its `#`. -/
def numbered : List Char → Except CharacterFault Char
  | 'x' :: cs => (number 16 cs).bind scalar
  | cs => (number 10 cs).bind scalar

/-- The character of the reference whose name stands from octet `start` to octet `stop`. -/
def character (start stop : Nat) (name : List Char) : Except ReferenceFault Char :=
  match name with
  | '#' :: cs => (numbered cs).mapError .character
  | _ =>
    match named? name with
    | some c => .ok c
    | none => .error (.unknownEntity start stop (.ofList name))

/-- The octets that a list of characters takes. -/
def octetCount (cs : List Char) : Nat := cs.foldl (fun n c => n + c.utf8Size) 0

/-- Resolves the references of `cs`, which starts at octet `offset` of a text of `size` octets, behind
the characters `done` (latest first). -/
def resolveFrom (size offset : Nat) (done cs : List Char) : Except ReferenceFault (List Char) :=
  match cs with
  | [] => .ok done.reverse
  | c :: rest =>
    if c = '&' then
      let name := rest.takeWhile fun d => d ≠ ';' && d ≠ '&'
      match h : rest.drop name.length with
      | ';' :: after =>
        have : after.length < rest.length + 1 := by
          have := congrArg List.length h
          simp at this
          omega
        let stop := offset + 1 + octetCount name
        match character (offset + 1) stop name with
        | .ok d => resolveFrom size (stop + 1) (d :: done) after
        | .error fault => .error fault
      | _ => .error (.unterminated offset size)
    else resolveFrom size (offset + c.utf8Size) (c :: done) rest
termination_by cs.length

/-- The text with every reference replaced by its character. -/
def resolve (s : String) : Except ReferenceFault String :=
  (resolveFrom (octetCount s.toList) 0 [] s.toList).map String.ofList

/-- The text of raw character data or of a raw attribute value. -/
def decode (raw : Octets) : Except Fault String :=
  match Utf8.decode raw with
  | .error fault => .error (.encoding fault)
  | .ok s => (resolve s).mapError .reference

end RegistryGraph.Xml.Reference
