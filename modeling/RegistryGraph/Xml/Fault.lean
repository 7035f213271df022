import RegistryGraph.Text.Utf8

/-!
# What can be wrong with an XML document

One constructor per cause, grouped by the layer that notices it, and one wording for each.  Positions
inside an attribute or a reference count octets: from the start of the tag name, or of the raw value.
-/

namespace RegistryGraph.Xml

/-- Markup that is not finished before the input ends, or that begins like no markup at all. -/
inductive MarkupFault where
  | unknownMarkup
  | unclosedInstruction
  | unclosedComment
  | unclosedDoctype
  | unclosedCData
  | unclosedTag
deriving DecidableEq, Repr

/-- The wording of a markup fault. -/
def MarkupFault.message : MarkupFault → String
  | .unknownMarkup => "unknown or missed symbol in markup"
  | .unclosedInstruction =>
    "processing instruction or xml declaration not closed: `?>` not found before end of input"
  | .unclosedComment => "comment not closed: `-->` not found before end of input"
  | .unclosedDoctype => "DOCTYPE not closed: `>` not found before end of input"
  | .unclosedCData => "CDATA not closed: `]]>` not found before end of input"
  | .unclosedTag => "tag not closed: `>` not found before end of input"

/-- Markup that is finished and stands where it must not. -/
inductive FormFault where
  | missingDoctypeName
  | unmatchedEnd (name : String)
  | mismatchedEnd (expected found : String)
deriving DecidableEq, Repr

/-- The wording of a fault of form. -/
def FormFault.message : FormFault → String
  | .missingDoctypeName =>
    "`<!DOCTYPE>` declaration does not contain a name of a document type"
  | .unmatchedEnd name => s!"close tag `</{name}>` does not match any open tag"
  | .mismatchedEnd expected found =>
    s!"expected `</{expected}>`, but `</{found}>` was found"

/-- What can be wrong with the attributes of a tag. -/
inductive AttributeFault where
  | expectedEquals (position : Nat)
  | expectedValue (position : Nat)
  | unquotedValue (position : Nat)
  | unclosedQuote (position : Nat) (quote : Char)
  | duplicate (position earlier : Nat)
deriving DecidableEq, Repr

/-- The wording of an attribute fault. -/
def AttributeFault.message : AttributeFault → String
  | .expectedEquals p =>
    s!"position {p}: attribute key must be directly followed by `=` or space"
  | .expectedValue p => s!"position {p}: `=` must be followed by an attribute value"
  | .unquotedValue p => s!"position {p}: attribute value must be enclosed in `\"` or `'`"
  | .unclosedQuote p quote => s!"position {p}: missing closing quote `{quote}` in attribute value"
  | .duplicate p earlier =>
    s!"position {p}: duplicated attribute, previous declaration at position {earlier}"

/-- What can be wrong with the number of a character reference. -/
inductive CharacterFault where
  | sign
  | noDigits
  | notADigit
  | tooLarge
  | notAScalar (n : Nat)
  | notPermitted (n : Nat)
deriving DecidableEq, Repr

/-- The wording of a fault of a character reference. -/
def CharacterFault.message : CharacterFault → String
  | .sign => "unexpected number sign"
  | .noDigits => "cannot parse integer from empty string"
  | .notADigit => "invalid digit found in string"
  | .tooLarge => "number too large to fit in target type"
  | .notAScalar n => s!"`{n}` is not a valid codepoint"
  | .notPermitted n =>
    s!"0x{String.ofList (Nat.toDigits 16 n)} character is not permitted in XML"

/-- What can be wrong with a reference. -/
inductive ReferenceFault where
  | unknownEntity (start stop : Nat) (name : String)
  | unterminated (start stop : Nat)
  | character (cause : CharacterFault)
deriving DecidableEq, Repr

/-- The wording of a reference fault. -/
def ReferenceFault.message : ReferenceFault → String
  | .unknownEntity start stop name => s!"at {start}..{stop}: unrecognized entity `{name}`"
  | .unterminated start stop =>
    s!"Error while escaping character at range {start}..{stop}: Cannot find ';' after '&'"
  | .character cause => "invalid character reference: " ++ cause.message

/-- What can be wrong with a document. -/
inductive Fault where
  | markup (cause : MarkupFault)
  | form (cause : FormFault)
  | attribute (cause : AttributeFault)
  | encoding (cause : Utf8.Fault)
  | reference (cause : ReferenceFault)
deriving DecidableEq, Repr

/-- The wording of a fault. -/
def Fault.message : Fault → String
  | .markup cause => "syntax error: " ++ cause.message
  | .form cause => "ill-formed document: " ++ cause.message
  | .attribute cause => "error while parsing attribute: " ++ cause.message
  | .encoding cause => "cannot decode input using UTF-8: " ++ cause.message
  | .reference cause => cause.message

end RegistryGraph.Xml
