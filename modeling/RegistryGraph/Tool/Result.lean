import RegistryGraph.Json.Record

/-!
# Results of tool calls

A tool answers with a text, with a JSON value, or with a refusal that tells the caller which argument
to change.  `ToolResult.ofAnswer` makes the result that the client sees of it.  Long texts are cut at
`textLimit` octets, at the end of a character, and a notice says where.
-/

namespace RegistryGraph

/-- A piece of the content of a result. -/
structure ContentBlock where
  kind : String
  text : String
deriving DecidableEq, Repr

/-- The result of a tool call. -/
structure ToolResult where
  content : List ContentBlock
  isError : Bool
deriving DecidableEq, Repr

/-- What a tool has to say. -/
inductive ToolAnswer where
  | text (s : String)
  | json (v : Json)
  /-- The caller can mend this by changing the arguments. -/
  | refusal (message : String)
deriving Repr

namespace ToolResult

/-- The size, in octets, above which texts are cut. -/
def textLimit : Nat := 100000

/-- Goes back from an offset of a text until no character extends across it. -/
def cutOffset (s : String) : Nat → Nat
  | 0 => 0
  | n + 1 => if String.Pos.Raw.IsValid s ⟨n + 1⟩ then n + 1 else cutOffset s n

/-- The search ends between two characters: at the latest at the start of the text. -/
theorem isValid_cutOffset (s : String) (n : Nat) : String.Pos.Raw.IsValid s ⟨cutOffset s n⟩ := by
  induction n with
  | zero => exact String.Pos.Raw.isValid_zero
  | succ n ih =>
      rw [cutOffset]
      split
      next hvalid => exact hvalid
      next => exact ih

/-- The last position of a text that is not behind the offset `n`. -/
def cut (s : String) (n : Nat) : s.Pos := ⟨⟨cutOffset s n⟩, isValid_cutOffset s n⟩

/-- The notice at the end of a text that was cut after `size` octets. -/
def notice (size : Nat) : String := s!"\n\n[... truncated at {size} chars]"

/-- A text, cut if it is too long. -/
def truncate (s : String) : String :=
  if s.utf8ByteSize ≤ textLimit then s
  else
    let stop := cut s textLimit
    (s.sliceTo stop).copy ++ notice stop.offset.byteIdx

/-- The kind of a block of text. -/
def textKind : String := "text"

/-- A result that is a text. -/
def text (s : String) : ToolResult := ⟨[⟨textKind, truncate s⟩], false⟩

/-- A result that is a JSON value. -/
def json (v : Json) : ToolResult := text v.pretty

/-- A result that is a refusal. -/
def refusal (message : String) : ToolResult := ⟨[⟨textKind, message⟩], true⟩

/-- The result of an answer. -/
def ofAnswer : ToolAnswer → ToolResult
  | .text s => text s
  | .json v => json v
  | .refusal message => refusal message

/-- The texts of the content on lines of their own. -/
def joinedText (r : ToolResult) : String := String.intercalate "\n" (r.content.map (·.text))

end ToolResult

/-! ## Results in JSON -/

/-- The block as a JSON value. -/
def ContentBlock.toJson (b : ContentBlock) : Json :=
  .object [("type", .string b.kind), ("text", .string b.text)]

/-- The block that a JSON value describes. -/
def ContentBlock.ofJson (v : Json) : Except Json.ShapeFault ContentBlock := do
  let r ← Json.Record.ofJson "struct ToolContent" ["type", "text"] v
  let kind ← r.required "type" Json.readString
  let text ← r.required "text" Json.readString
  r.finish
  return { kind, text }

/-- The result as a JSON value. -/
def ToolResult.toJson (r : ToolResult) : Json :=
  .object [("content", .array (r.content.map ContentBlock.toJson)), ("isError", .bool r.isError)]

/-- The result as a value of its own, with the members of its objects in order. It holds texts and a
truth value under fixed keys, and each of these has a value. -/
def ToolResult.toValue (r : ToolResult) : Except Json.ShapeFault Json := .ok r.toJson.canonical

/-- The result that a JSON value describes. -/
def ToolResult.ofJson (v : Json) : Except Json.ShapeFault ToolResult := do
  let r ← Json.Record.ofJson "struct ToolCallResult" ["content", "isError"] v
  let content ← r.required "content" (Json.readList ContentBlock.ofJson)
  let isError ← r.optional "isError" false Json.readBool
  r.finish
  return { content, isError }

end RegistryGraph
