import RegistryGraph.Xml.Lexeme
import RegistryGraph.Xml.Reference

/-!
# Tags and their attributes

The content of a start tag is a name up to the first blank, and attributes `key = "value"` or
`key = 'value'`.  `Tag.attributes` reads them up to the first fault; values are decoded one by one, by
whoever needs them.  Names are compared by their octets; a reader sees their local part, which is what
follows the first colon.
-/

namespace RegistryGraph.Xml

/-- An attribute as it is written. -/
structure Attribute where
  key : Octets
  value : Octets
deriving DecidableEq, Repr

namespace Attribute

/-- The octets of `xmlns`. -/
def namespaceMark : Octets := [0x78, 0x6D, 0x6C, 0x6E, 0x73]

/-- Whether the attribute declares a namespace. -/
def isNamespace (a : Attribute) : Bool :=
  namespaceMark.isPrefixOf a.key &&
    match a.key.drop namespaceMark.length with
    | [] => true
    | b :: _ => b = 0x3A

end Attribute

/-- What follows the first colon of a name; the whole name if it has none. -/
def localPart (name : Octets) : Octets :=
  match name.dropWhile (· ≠ 0x3A) with
  | [] => name
  | _ :: rest => rest

/-- The text of a local name. -/
def localName (name : Octets) : String := Utf8.decodeLossy (localPart name)

/-- The content of a start tag or an empty-element tag. -/
structure Tag where
  content : Octets
deriving DecidableEq, Repr

namespace Tag

/-- The name: everything up to the first blank. -/
def name (t : Tag) : Octets := t.content.takeWhile fun b => !isBlank b

/-- A key with its position, and what follows its equals sign with the position of that. -/
structure KeyRead where
  key : Octets
  position : Nat
  rest : Octets
  restPosition : Nat

/-- Reads a key that begins with `b` at `position`, and the equals sign behind it. -/
def readKey (position : Nat) (b : UInt8) (octets : Octets) : Except AttributeFault KeyRead :=
  let tail := octets.takeWhile fun c => c ≠ 0x3D && !isBlank c
  let behind := octets.drop tail.length
  let blanks := behind.takeWhile isBlank
  let equals := position + 1 + tail.length + blanks.length
  match behind.drop blanks.length with
  | [] => .error (.expectedEquals equals)
  | c :: rest =>
    if c = 0x3D then .ok ⟨b :: tail, position, rest, equals + 1⟩
    else .error (.expectedEquals equals)

/-- A value, and what follows its closing quote with the position of that. -/
structure ValueRead where
  value : Octets
  rest : Octets
  restPosition : Nat

/-- Reads a quoted value. -/
def readValue (position : Nat) (octets : Octets) : Except AttributeFault ValueRead :=
  let blanks := octets.takeWhile isBlank
  let start := position + blanks.length
  match octets.drop blanks.length with
  | [] => .error (.expectedValue start)
  | q :: rest =>
    if q = 0x22 || q = 0x27 then
      let value := rest.takeWhile (· ≠ q)
      match rest.drop value.length with
      | [] => .error (.unclosedQuote (start + 1 + value.length) (.ofNat q.toNat))
      | _ :: behind => .ok ⟨value, behind, start + value.length + 2⟩
    else .error (.unquotedValue start)

/-- A key that is read consumes octets. -/
theorem readKey_rest_lt {p : Nat} {b : UInt8} {octets : Octets} {k : KeyRead}
    (h : readKey p b octets = .ok k) : k.rest.length < octets.length := by
  simp only [readKey] at h
  split at h
  · cases h
  · next c rest heq =>
    have := congrArg List.length heq
    simp only [List.length_drop, List.length_cons] at this
    split at h
    · cases h; simp only; omega
    · cases h

/-- A value that is read consumes octets. -/
theorem readValue_rest_lt {p : Nat} {octets : Octets} {v : ValueRead}
    (h : readValue p octets = .ok v) : v.rest.length < octets.length := by
  simp only [readValue] at h
  split at h
  · cases h
  · next q rest heq =>
    have h1 := congrArg List.length heq
    simp only [List.length_drop, List.length_cons] at h1
    split at h
    · split at h
      · cases h
      · next heq2 =>
        have h2 := congrArg List.length heq2
        simp only [List.length_drop, List.length_cons] at h2
        cases h
        simp only
        omega
    · cases h

/-- The attributes of a tag up to the first fault. -/
structure Attributes where
  list : List Attribute
  fault : Option AttributeFault
deriving DecidableEq, Repr

/-- Reads attributes from `position` on, behind the attributes `done` and the keys `seen` with their
positions (both latest first). -/
def attributesFrom (position : Nat) (seen : List (Octets × Nat)) (done : List Attribute)
    (octets : Octets) : Attributes :=
  let blanks := octets.takeWhile isBlank
  let start := position + blanks.length
  match hb : octets.drop blanks.length with
  | [] => ⟨done.reverse, none⟩
  | b :: rest =>
    match hk : readKey start b rest with
    | .error fault => ⟨done.reverse, some fault⟩
    | .ok k =>
      match seen.find? (·.1 = k.key) with
      | some earlier => ⟨done.reverse, some (.duplicate k.position earlier.2)⟩
      | none =>
        match hv : readValue k.restPosition k.rest with
        | .error fault => ⟨done.reverse, some fault⟩
        | .ok v =>
          have : v.rest.length < octets.length := by
            have h1 := congrArg List.length hb
            simp only [List.length_drop, List.length_cons] at h1
            have h2 := readKey_rest_lt hk
            have h3 := readValue_rest_lt hv
            omega
          attributesFrom v.restPosition ((k.key, k.position) :: seen) (⟨k.key, v.value⟩ :: done)
            v.rest
termination_by octets.length

/-- The attributes of the tag. -/
def attributes (t : Tag) : Attributes :=
  attributesFrom t.name.length [] [] (t.content.drop t.name.length)

end Tag

end RegistryGraph.Xml
