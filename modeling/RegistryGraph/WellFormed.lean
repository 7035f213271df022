import RegistryGraph.Index.Builder

/-!
# Well-formedness

`WellFormed.check` reads a document without building anything: tags must pair, attributes must be
written as attributes, references must resolve, every element must be closed, and there must be one.
A report joins the outcome with the stats of the index, which are zero for a document without one.
-/

namespace RegistryGraph

/-- Why a document is not well formed. -/
inductive FormError where
  | document (fault : Xml.Fault) (position : Nat)
  /-- Attribute faults are worded on their own here. -/
  | attribute (fault : Xml.AttributeFault) (position : Nat)
  | unclosed (count position : Nat)
  | noRoot
deriving DecidableEq, Repr

/-- The wording of a form error. -/
def FormError.message : FormError → String
  | .document fault position => s!"at byte {position}: {fault.message}"
  | .attribute fault position => s!"at byte {position}: {fault.message}"
  | .unclosed count position =>
    s!"at byte {position}: unexpected end of document with {count} unclosed element(s)"
  | .noRoot => "document has no root element"

namespace WellFormed

/-- How many elements are open, and whether there has been any element. -/
structure State where
  depth : Nat
  seenRoot : Bool
deriving DecidableEq, Repr

/-- Takes one event. -/
def step (s : State) (o : Xml.Occurrence) : Except FormError State :=
  match o.event with
  | .start tag =>
    match tag.attributes.fault with
    | some fault => .error (.attribute fault o.position)
    | none => .ok ⟨s.depth + 1, true⟩
  | .empty tag =>
    match tag.attributes.fault with
    | some fault => .error (.attribute fault o.position)
    | none => .ok ⟨s.depth, true⟩
  | .close => .ok ⟨s.depth - 1, s.seenRoot⟩
  | .text raw =>
    match Xml.Reference.decode raw with
    | .ok _ => .ok s
    | .error fault => .error (.document fault o.position)
  | .cdata _ => .ok s

/-- Takes the events of a document up to the first error. -/
def run (s : State) : List Xml.Occurrence → Except FormError State
  | [] => .ok s
  | o :: rest =>
    match step s o with
    | .ok s => run s rest
    | .error e => .error e

/-- The first error of a document, if it is not well formed. -/
def check (octets : Octets) : Except FormError Unit :=
  let reading := Xml.Reading.ofOctets octets
  match run ⟨0, false⟩ reading.events with
  | .error e => .error e
  | .ok s =>
    match reading.ending with
    | .broken fault position => .error (.document fault position)
    | .complete position =>
      if s.depth > 0 then .error (.unclosed s.depth position)
      else if s.seenRoot then .ok ()
      else .error .noRoot

end WellFormed

/-- The outcome of validating a document. -/
structure ValidationReport where
  path : String
  error : Option FormError
  stats : IndexStats

namespace ValidationReport

/-- Whether the document is well formed. -/
def valid (r : ValidationReport) : Bool := r.error.isNone

/-- Validates a document. -/
def ofOctets (octets : Octets) (path : String) : ValidationReport where
  path
  error :=
    match WellFormed.check octets with
    | .ok () => none
    | .error e => some e
  stats :=
    match EntityIndex.build octets path "" with
    | .ok index => index.stats
    | .error _ => .zero

end ValidationReport

end RegistryGraph
