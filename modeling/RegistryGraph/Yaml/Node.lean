import RegistryGraph.Yaml.Token

/-!
# Nodes

The second reading arranges the tokens of a stream into a tree of scalars, sequences and mappings.  An
alias stays in the tree as the number of the anchor that it refers to; the document keeps the anchored
nodes beside the tree, so an alias may even refer to a collection around it.
-/

namespace RegistryGraph.Yaml

/-- A scalar. -/
structure Scalar where
  text : String
  /-- Whether it is written without quotes and not as a block. -/
  plain : Bool
  /-- Its tag in full, if it has one. -/
  tag : Option String
deriving DecidableEq, Repr

/-- A node. -/
inductive Node where
  | scalar (s : Scalar)
  | sequence (items : List Node)
  | mapping (entries : List (Node × Node))
  | alias (anchor : Nat)
deriving Repr, Inhabited

/-- A node that is not written at all. -/
def Node.absent : Node := .scalar ⟨"", true, none⟩

/-- The document of a stream. -/
structure Document where
  /-- The node at the top; none for a stream without a document. -/
  root : Option Node
  /-- The anchored nodes under the numbers of their anchors; the first one counts. -/
  anchored : List (Nat × Node)
deriving Repr

/-- What the reader of nodes remembers. -/
structure Composer where
  /-- The tokens that are left. -/
  tokens : List Token
  /-- What the handles of tags stand for. -/
  handles : List (String × Octets)
  /-- The number of every name that an anchor has given. -/
  names : List (String × Nat)
  /-- The anchored nodes that are complete, with their anchors and the order of their beginnings. -/
  anchored : List (Nat × Nat × Node)
  /-- The number of anchored nodes that have begun. -/
  begun : Nat

namespace Composer

/-- A computation on the tokens that are left. -/
abbrev Reader (α : Type) : Type := StateT Composer (Except Fault) α

/-- The next token; none at the end of the stream. -/
def peek : Reader (Option Token) := do return (← get).tokens.head?

/-- Takes the next token. -/
def skip : Reader Unit := modify fun c => { c with tokens := c.tokens.drop 1 }

/-- Whether the next token is one of those given. -/
def nextIn (tokens : List Token) : Reader Bool := do
  match ← peek with
  | some t => return tokens.contains t
  | none => return false

/-- Takes the next token if it is the one given. -/
def accept (t : Token) : Reader Bool := do
  if ← nextIn [t] then
    skip
    return true
  return false

/-- The anchor and the tag of a node, as they are written. -/
structure Properties where
  anchor : Option String
  tag : Option (String × Octets)

/-- Reads an anchor and a tag, at most one of each, in any order. -/
def properties : Reader Properties := do
  match ← peek with
  | some (.anchor name) =>
    skip
    match ← peek with
    | some (.tag handle suffix) =>
      skip
      return ⟨some name, some (handle, suffix)⟩
    | _ => return ⟨some name, none⟩
  | some (.tag handle suffix) =>
    skip
    match ← peek with
    | some (.anchor name) =>
      skip
      return ⟨some name, some (handle, suffix)⟩
    | _ => return ⟨none, some (handle, suffix)⟩
  | _ => return ⟨none, none⟩

/-- A tag in full. -/
def fullTag (handle : String) (suffix : Octets) : Reader String := do
  if handle.isEmpty then return Utf8.decodeLossy suffix
  match (← get).handles.lookup handle with
  | some expansion => return Utf8.decodeLossy (expansion ++ suffix)
  | none => throw .unknownTagHandle

/-- Begins a node with the given anchor; delivers the number of the anchor and that of the node. A
name that is given again gets a new number: the count of the names that are known. -/
def beginAnchored (name : String) : Reader (Nat × Nat) := do
  let c ← get
  let number := c.names.length
  set { c with
    names := (name, number) :: c.names.filter (·.1 ≠ name)
    begun := c.begun + 1 }
  return (number, c.begun)

mutual

/-- Reads a node. `block` admits block collections, `indentless` a sequence without an indentation of
its own. -/
def node (block indentless : Bool) : Nat → Reader Node
  | 0 => throw .unexpectedToken
  | steps + 1 => do
    match ← peek with
    | some (.alias name) =>
      skip
      match (← get).names.lookup name with
      | some number => return .alias number
      | none => throw .unknownAnchor
    | _ =>
      let p ← properties
      let tag ←
        match p.tag with
        | some (handle, suffix) => pure (some (← fullTag handle suffix))
        | none => pure none
      match p.anchor with
      | none => content block indentless tag tag.isSome steps
      | some name =>
        let (number, beginning) ← beginAnchored name
        let n ← content block indentless tag true steps
        modify fun c => { c with anchored := (number, beginning, n) :: c.anchored }
        return n

/-- Reads the content of a node; `optional` admits none. -/
def content (block indentless : Bool) (tag : Option String) (optional : Bool) :
    Nat → Reader Node
  | 0 => throw .unexpectedToken
  | steps + 1 => do
    match ← peek with
    | some (.scalar text plain) =>
      skip
      return .scalar ⟨text, plain, tag⟩
    | some .flowSequenceStart =>
      skip
      return .sequence (← flowItems true steps)
    | some .flowMappingStart =>
      skip
      return .mapping (← flowEntries true steps)
    | t =>
      if indentless && t = some .blockEntry then return .sequence (← indentlessItems steps)
      else if block && t = some .blockSequenceStart then
        skip
        return .sequence (← blockItems steps)
      else if block && t = some .blockMappingStart then
        skip
        return .mapping (← blockEntries steps)
      else if optional then return .scalar ⟨"", true, tag⟩
      else throw .unexpectedToken

/-- Reads a node, or none before one of the given tokens. -/
def nodeUnless (stops : List Token) (block indentless : Bool) : Nat → Reader Node
  | 0 => throw .unexpectedToken
  | steps + 1 => do
    if ← nextIn stops then return .absent
    node block indentless steps

/-- Reads the items of a block sequence and its end. -/
def blockItems : Nat → Reader (List Node)
  | 0 => throw .unexpectedToken
  | steps + 1 => do
    if ← accept .blockEnd then return []
    if !(← accept .blockEntry) then throw .unexpectedToken
    let item ← nodeUnless [.blockEntry, .blockEnd] true false steps
    return item :: (← blockItems steps)

/-- Reads the items of a sequence without an indentation of its own. -/
def indentlessItems : Nat → Reader (List Node)
  | 0 => throw .unexpectedToken
  | steps + 1 => do
    if !(← accept .blockEntry) then return []
    let item ← nodeUnless [.blockEntry, .key, .value, .blockEnd] true false steps
    return item :: (← indentlessItems steps)

/-- Reads the entries of a block mapping and its end. -/
def blockEntries : Nat → Reader (List (Node × Node))
  | 0 => throw .unexpectedToken
  | steps + 1 => do
    if ← accept .blockEnd then return []
    if !(← accept .key) then throw .unexpectedToken
    let key ← nodeUnless [.key, .value, .blockEnd] true true steps
    let value ←
      if ← accept .value then nodeUnless [.key, .value, .blockEnd] true true steps
      else pure .absent
    return (key, value) :: (← blockEntries steps)

/-- Reads the items of a flow sequence and its end. An item with a key is a mapping of one entry. -/
def flowItems (first : Bool) : Nat → Reader (List Node)
  | 0 => throw .unexpectedToken
  | steps + 1 => do
    if ← accept .flowSequenceEnd then return []
    if !first then
      if !(← accept .flowEntry) then throw .unexpectedToken
    if ← accept .flowSequenceEnd then return []
    let item ←
      if ← accept .key then
        let entry ← singleEntry steps
        pure (.mapping [entry])
      else node false false steps
    return item :: (← flowItems false steps)

/-- Reads the only entry of a mapping inside a flow sequence. Where the key is missing, the token in
its place is passed over. -/
def singleEntry : Nat → Reader (Node × Node)
  | 0 => throw .unexpectedToken
  | steps + 1 => do
    let key ←
      if ← nextIn [.value, .flowEntry, .flowSequenceEnd] then
        skip
        pure .absent
      else node false false steps
    let value ←
      if ← accept .value then nodeUnless [.flowEntry, .flowSequenceEnd] false false steps
      else pure .absent
    return (key, value)

/-- Reads the entries of a flow mapping and its end. -/
def flowEntries (first : Bool) : Nat → Reader (List (Node × Node))
  | 0 => throw .unexpectedToken
  | steps + 1 => do
    if ← accept .flowMappingEnd then return []
    if !first then
      if !(← accept .flowEntry) then throw .unexpectedToken
    if ← accept .flowMappingEnd then return []
    let entry ←
      if ← accept .key then
        let key ← nodeUnless [.value, .flowEntry, .flowMappingEnd] false false steps
        let value ←
          if ← accept .value then nodeUnless [.flowEntry, .flowMappingEnd] false false steps
          else pure .absent
        pure (key, value)
      else
        let key ← node false false steps
        pure (key, .absent)
    return entry :: (← flowEntries false steps)

end

/-! ## Documents -/

/-- The handles that every document knows. -/
def defaultHandles : List (String × Octets) :=
  [("!", [0x21]), ("!!", Utf8.encode "tag:yaml.org,2002:")]

/-- Whether the token is a directive. -/
def isDirective : Token → Bool
  | .versionDirective | .tagDirective .. => true
  | _ => false

/-- The handles that directives declare; one version at most, and every handle once. -/
def declaredHandles (versioned : Bool) (handles : List (String × Octets)) :
    List Token → Except Fault (List (String × Octets))
  | .versionDirective :: rest =>
    if versioned then .error .badDirective else declaredHandles true handles rest
  | .tagDirective handle expansion :: rest =>
    if (handles.lookup handle).isSome then .error .badDirective
    else declaredHandles versioned ((handle, expansion) :: handles) rest
  | _ => .ok handles

/-- Reads the document; `steps` are enough to read every node. -/
def root (steps : Nat) : Reader (Option Node) := do
  let tokens := (← get).tokens
  match tokens with
  | [] => return none
  | t :: _ =>
    if isDirective t || t = .documentStart then
      let directives := tokens.takeWhile isDirective
      let handles ← declaredHandles false [] directives
      modify fun c =>
        { c with
          tokens := c.tokens.drop directives.length
          handles := handles ++ defaultHandles }
      if !(← accept .documentStart) then throw .unexpectedToken
      match ← peek with
      | none => return some .absent
      | some t =>
        if isDirective t || t = .documentStart || t = .documentEnd then return some .absent
        else return some (← node true false steps)
    else return some (← node true false steps)

/-- The anchored nodes, those that began last first. -/
def anchoredNodes (c : Composer) : List (Nat × Node) :=
  (c.anchored.mergeSort fun a b => b.2.1 ≤ a.2.1).map fun a => (a.1, a.2.2)

end Composer

/-- The document of a stream, which must be the only one. -/
def Document.parse (octets : Octets) : Except Fault Document := do
  let tokens ← tokens octets
  let (root, c) ←
    (Composer.root (4 * tokens.length + 4)).run ⟨tokens, Composer.defaultHandles, [], [], 0⟩
  match c.tokens.dropWhile (· = .documentEnd) with
  | [] => return ⟨root, c.anchoredNodes⟩
  | _ => throw .manyDocuments

end RegistryGraph.Yaml
