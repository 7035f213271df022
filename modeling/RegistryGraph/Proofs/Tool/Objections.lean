import RegistryGraph.Proofs.Tool.Addresses
import RegistryGraph.Proofs.Tool.Outcome
import RegistryGraph.Proofs.Tool.Truncation

/-!
# How long results are

What a tool answers is cut when it is too long.  What it refuses is not: a refusal repeats a text of the
caller, and one of them the names of entities as well, as long as they are.  So results without an error
are bounded, and refusals are as long as what they repeat.

* `ToolResult.isBounded_text`: texts are bounded.
* `Tool.Objection`, `Tool.Raises`: what is refused, and when.
* `Tool.exists_raises`: every refusal is one of these.
* `Tool.call_sized`: how long the result of a call is.
-/

namespace RegistryGraph

/-! ## Bounded results -/

namespace ToolResult

/-- Every text of the result has at most as many octets as the limit says, and those of the longest
notice. -/
def IsBounded (r : ToolResult) : Prop :=
  ∀ b ∈ r.content, b.text.utf8ByteSize ≤ textLimit + (notice textLimit).utf8ByteSize

/-- The notice has its wording and the digits of the limit. -/
theorem utf8ByteSize_notice (n : Nat) :
    (notice n).utf8ByteSize = 27 + (Nat.toDigits 10 n).length := by
  have hdigits : String.utf8Len (Nat.toDigits 10 n) = (Nat.toDigits 10 n).length := by
    rw [utf8Len_eq_length_iff]
    intro c hc
    have hdigit := Nat.isDigit_of_mem_toDigits (by omega) (by omega) hc
    simp only [Char.isDigit, Bool.and_eq_true, decide_eq_true_eq, UInt32.le_iff_toNat_le] at hdigit
    rw [Char.utf8Size_eq_one_iff, UInt32.le_iff_toNat_le]
    exact hdigit.2.trans (by decide)
  have hhead : String.utf8Len "\n\n[... truncated at".toList = 19 := by decide
  have htail : String.utf8Len " chars]".toList = 7 := by decide
  have hblank : ' '.utf8Size = 1 := by decide
  rw [← String.utf8Len_toList, toList_notice, String.utf8Len_append, String.utf8Len_cons,
    String.utf8Len_append, hdigits, hhead, htail, hblank]
  omega

/-- A shorter limit needs no longer notice. -/
theorem utf8ByteSize_notice_le {n : Nat} (h : n ≤ textLimit) :
    (notice n).utf8ByteSize ≤ (notice textLimit).utf8ByteSize := by
  have hsix : (Nat.toDigits 10 textLimit).length = 6 := by decide
  have hlimit : textLimit < 10 ^ 6 := by decide
  have hlength : (Nat.toDigits 10 n).length ≤ 6 := Nat.toDigits_length 10 n 6 (by omega) (by omega)
  rw [utf8ByteSize_notice, utf8ByteSize_notice, hsix]
  omega

/-- **Texts are bounded.** -/
theorem isBounded_text (s : String) : (text s).IsBounded := by
  intro b hb
  obtain rfl := List.mem_singleton.1 hb
  change (truncate s).utf8ByteSize ≤ _
  by_cases hfits : s.utf8ByteSize ≤ textLimit
  · rw [truncate, if_pos hfits]
    omega
  · have hkept := isLongestFront_fitting textLimit s
    have hsize := hkept.fits
    have hnotice := utf8ByteSize_notice_le hsize
    rw [truncate_eq hkept (by omega), String.utf8ByteSize_append]
    omega

end ToolResult

/-! ## Refusals -/

/-- The argument that a fault is about. -/
def ArgumentFault.key : ArgumentFault → String
  | .missing key | .blank key | .notText key | .notNumber key => key

namespace Tool

/-- What a call is refused for. -/
inductive Objection where
  | unknownTool (name : String)
  | argument (fault : ArgumentFault)
  | unknownEntity (id : String) (suggestions : List Entity)
  | unknownFormat (name : String)

namespace Objection

/-- The wording of an objection. -/
def message : Objection → String
  | .unknownTool name => s!"Unknown tool: {name}. Call tools/list for the available tools."
  | .argument fault => fault.message
  | .unknownEntity id suggestions => EntityReply.missMessage id suggestions
  | .unknownFormat name => s!"Unsupported format '{name}'. Use 'markdown' or 'csv'."

/-- The octets of the texts that an objection repeats: a text of the caller, and what entities are called. -/
def repeatedSize : Objection → Nat
  | .unknownTool name | .unknownFormat name => name.utf8ByteSize
  | .argument _ => 0
  | .unknownEntity id suggestions =>
    id.utf8ByteSize +
      (suggestions.map fun e => e.id.utf8ByteSize + e.label.utf8ByteSize).sum

end Objection

variable {ctx : ToolContext} {name key message : String} {args : Json} {fault : ArgumentFault}

/-- Which objection a call raises. -/
inductive Raises (ctx : ToolContext) (name : String) (args : Json) : Objection → Prop where
  | unknownTool (unknown : ofName? name = none) : Raises ctx name args (.unknownTool name)
  | argument {tool : Tool} {fault : ArgumentFault} (called : ofName? name = some tool)
      (declared : fault.key ∈ tool.parameters.map (·.name)) : Raises ctx name args (.argument fault)
  | unknownId {id : String} (called : ofName? name = some .getEntity)
      (read : Arguments.required args "id" = .ok id) (unknown : ctx.index.get? id = none) :
      Raises ctx name args (.unknownEntity id (EntityReply.suggestions ctx.index id))
  | unknownParent {tool : Tool} {id : String} (called : ofName? name = some tool)
      (read : Arguments.optional args "parent" = .ok (some id)) (unknown : ctx.index.get? id = none) :
      Raises ctx name args (.unknownEntity id [])
  | unknownFormat {format : String} (called : ofName? name = some .generateDocument)
      (read : Arguments.optional args "format" = .ok (some format))
      (unknown : DocumentFormat.ofName? format = none) :
      Raises ctx name args (.unknownFormat format)

/-- A required argument is at fault under its own key. -/
theorem key_of_required (h : Arguments.required args key = .error fault) : fault.key = key := by
  unfold Arguments.required at h
  split at h
  · split at h
    · cases h
      rfl
    · cases h
  all_goals
    cases h
    rfl

/-- An optional argument is at fault under its own key. -/
theorem key_of_optional (h : Arguments.optional args key = .error fault) : fault.key = key := by
  unfold Arguments.optional at h
  split at h <;> cases h
  rfl

/-- A count is at fault under its own key. -/
theorem key_of_count {least greatest default : Nat}
    (h : Arguments.count args key least greatest default = .error fault) : fault.key = key := by
  unfold Arguments.count at h
  split at h <;> cases h
  rfl

/-- A chain of readings fails where one of them fails. -/
theorem exists_of_bind_eq_error {α β ε : Type} {x : Except ε α} {f : α → Except ε β} {e : ε}
    (h : (x >>= f) = .error e) : x = .error e ∨ ∃ a, x = .ok a ∧ f a = .error e := by
  cases x with
  | error found =>
      cases h
      exact .inl rfl
  | ok a => exact .inr ⟨a, rfl, h⟩

/-- A search is refused for one of its objections, in its wording. -/
theorem raises_search (hname : ofName? name = some .search)
    (h : answer ctx args .search = .ok (.refusal message)) :
    ∃ o, Raises ctx name args o ∧ message = o.message := by
  unfold answer at h
  cases hreply : ctx.index.searchReply args with
  | ok reply =>
      rw [hreply] at h
      cases h
  | error fault =>
      rw [hreply] at h
      cases h
      refine ⟨.argument fault, .argument hname ?_, rfl⟩
      rcases exists_of_bind_eq_error hreply with hquery | ⟨query, _, hrest⟩
      · rw [key_of_required hquery]
        decide
      · rcases exists_of_bind_eq_error hrest with hlimit | ⟨limit, _, hdone⟩
        · rw [key_of_count hlimit]
          decide
        · cases hdone

/-- Looking an entity up is refused for one of its objections, in its wording. -/
theorem raises_getEntity (hname : ofName? name = some .getEntity)
    (h : answer ctx args .getEntity = .ok (.refusal message)) :
    ∃ o, Raises ctx name args o ∧ message = o.message := by
  unfold answer at h
  cases hreply : ctx.index.entityReply args with
  | error fault =>
      rw [hreply] at h
      cases h
      refine ⟨.argument fault, .argument hname ?_, rfl⟩
      rcases exists_of_bind_eq_error hreply with hid | ⟨id, _, hrest⟩
      · rw [key_of_required hid]
        decide
      · split at hrest <;> cases hrest
  | ok reply =>
      rw [hreply] at h
      obtain ⟨id, hid, hrest⟩ := exists_of_bind_eq_ok hreply
      split at hrest
      next e hfound =>
        cases hrest
        cases h
      next hunknown =>
        cases hrest
        cases h
        exact ⟨_, .unknownId hname hid hunknown, rfl⟩

/-- Without suggestions the message of a miss only repeats the id. -/
theorem missMessage_nil (id : String) : EntityReply.missMessage id [] = s!"Entity not found: {id}" :=
  String.append_empty

/-- Listing entities is refused for one of its objections, in its wording. -/
theorem raises_listEntities (hname : ofName? name = some .listEntities)
    (h : answer ctx args .listEntities = .ok (.refusal message)) :
    ∃ o, Raises ctx name args o ∧ message = o.message := by
  unfold answer at h
  cases hreply : ctx.index.listingReply args with
  | error fault =>
      rw [hreply] at h
      cases h
      refine ⟨.argument fault, .argument hname ?_, rfl⟩
      rcases exists_of_bind_eq_error hreply with htype | ⟨type, _, hrest⟩
      · rw [key_of_optional htype]
        decide
      · rcases exists_of_bind_eq_error hrest with hparent | ⟨parent, _, hdone⟩
        · rw [key_of_optional hparent]
          decide
        · cases hdone
  | ok listing =>
      rw [hreply] at h
      obtain ⟨type, _, hrest⟩ := exists_of_bind_eq_ok hreply
      obtain ⟨parent, hparent, hlisting⟩ := exists_of_bind_eq_ok hrest
      obtain rfl := Except.ok.inj hlisting
      -- Of all listings only that of an unknown parent is a refusal.
      cases parent with
      | none =>
          cases type with
          | none => cases h
          | some type =>
              unfold EntityIndex.listing at h
              dsimp only at h
              split at h <;> cases h
      | some id =>
          unfold EntityIndex.listing at h
          dsimp only at h
          split at h
          next hunknown =>
            cases h
            rw [Option.isNone_iff_eq_none] at hunknown
            exact ⟨_, .unknownParent hname hparent hunknown, (missMessage_nil id).symm⟩
          next => cases h

/-- A format is refused if it is given and unknown. -/
theorem formatOf_eq_error {format : Option String} {name : String} (h : formatOf format = .error name) :
    format = some name ∧ DocumentFormat.ofName? name = none := by
  unfold formatOf at h
  split at h
  next => cases h
  next found =>
    split at h
    next => cases h
    next hunknown =>
      cases h
      exact ⟨rfl, hunknown⟩

/-- An unknown parent is given and has no entity. -/
theorem unknownParent?_eq_some {index : EntityIndex} {parent : Option String} {id : String}
    (h : index.unknownParent? parent = some id) : parent = some id ∧ index.get? id = none := by
  obtain ⟨hparent, hunknown⟩ := Option.filter_eq_some_iff.1 h
  exact ⟨hparent, Option.isNone_iff_eq_none.1 hunknown⟩

/-- A document is refused for one of its objections, in its wording. -/
theorem raises_generateDocument (hname : ofName? name = some .generateDocument)
    (h : answer ctx args .generateDocument = .ok (.refusal message)) :
    ∃ o, Raises ctx name args o ∧ message = o.message := by
  have hread : ∀ {key : String} {fault : String}, key ∈ ["type", "parent", "format"] →
      (Arguments.optional args key).mapError ArgumentFault.message = .error fault →
      ∃ o, Raises ctx name args o ∧ fault = o.message := by
    intro key fault hkey hfault
    cases hoptional : Arguments.optional args key with
    | ok value =>
        rw [hoptional] at hfault
        cases hfault
    | error found =>
        rw [hoptional] at hfault
        cases hfault
        refine ⟨.argument found, .argument hname ?_, rfl⟩
        rwa [key_of_optional hoptional]
  have hvalue : ∀ {key : String} {value : Option String},
      (Arguments.optional args key).mapError ArgumentFault.message = .ok value →
      Arguments.optional args key = .ok value := by
    intro key value hmapped
    cases hoptional : Arguments.optional args key with
    | ok found =>
        rw [hoptional] at hmapped
        cases hmapped
        rfl
    | error fault =>
        rw [hoptional] at hmapped
        cases hmapped
  change document ctx args = _ at h
  unfold document at h
  split at h
  next found horder =>
    cases h
    rcases exists_of_bind_eq_error horder with htype | ⟨type, _, h⟩
    · exact hread (by decide) htype
    rcases exists_of_bind_eq_error h with hparent | ⟨parent, hparent, h⟩
    · exact hread (by decide) hparent
    rcases exists_of_bind_eq_error h with hformat | ⟨format, hformat, h⟩
    · exact hread (by decide) hformat
    split at h
    next unsupported hunsupported =>
      cases h
      obtain ⟨rfl, hunknown⟩ := formatOf_eq_error hunsupported
      exact ⟨_, .unknownFormat hname (hvalue hformat) hunknown, rfl⟩
    next supported hsupported =>
      split at h
      next id hunknown =>
        cases h
        obtain ⟨rfl, hmissing⟩ := unknownParent?_eq_some hunknown
        exact ⟨_, .unknownParent hname (hvalue hparent) hmissing, (missMessage_nil id).symm⟩
      next => cases h
  next filter format horder =>
    split at h <;> cases h

/-- **Every refusal is raised by one of the objections.** -/
theorem exists_raises (h : answerByName ctx name args = .ok (.refusal message)) :
    ∃ o, Raises ctx name args o ∧ message = o.message := by
  unfold answerByName at h
  cases hname : ofName? name with
  | none =>
      rw [hname] at h
      cases h
      exact ⟨_, .unknownTool hname, rfl⟩
  | some tool =>
      rw [hname] at h
      dsimp only at h
      cases tool with
      | help | identify | describeModel => cases h
      | search => exact raises_search hname h
      | getEntity => exact raises_getEntity hname h
      | listEntities => exact raises_listEntities hname h
      | validate =>
          unfold answer at h
          cases hvalidation : validation ctx with
          | ok v =>
              rw [hvalidation] at h
              cases h
          | error failure =>
              rw [hvalidation] at h
              cases h
      | generateDocument => exact raises_generateDocument hname h

/-! ## Their sizes -/

/-- The octets of a wording that are not repeated from elsewhere. -/
def Objection.frameSize : Objection → Nat
  | .unknownTool _ => 56
  | .argument fault => fault.message.utf8ByteSize
  | .unknownEntity _ suggestions =>
    18 + if suggestions.isEmpty then 0 else 14 + 6 * suggestions.length
  | .unknownFormat _ => 47

/-- The octets of a text between two others. -/
theorem utf8ByteSize_between (front text back : String) :
    (front ++ text ++ back).utf8ByteSize =
      front.utf8ByteSize + back.utf8ByteSize + text.utf8ByteSize := by
  rw [String.utf8ByteSize_append, String.utf8ByteSize_append]
  omega

/-- Suggestions take six octets each beside their ids and labels. -/
theorem utf8ByteSize_suggestions (suggestions : List Entity) :
    (String.join (suggestions.map fun e => s!"\n- {e.id} ({e.label})")).utf8ByteSize =
      6 * suggestions.length +
        (suggestions.map fun e => e.id.utf8ByteSize + e.label.utf8ByteSize).sum := by
  induction suggestions with
  | nil => rfl
  | cons e rest ih =>
      have hline : (s!"\n- {e.id} ({e.label})").utf8ByteSize =
          6 + (e.id.utf8ByteSize + e.label.utf8ByteSize) := by
        change ("\n- " ++ e.id ++ " (" ++ e.label ++ ")").utf8ByteSize = _
        have hopen : "\n- ".utf8ByteSize = 3 := by decide
        have hmiddle : " (".utf8ByteSize = 2 := by decide
        have hclose : ")".utf8ByteSize = 1 := by decide
        simp only [String.utf8ByteSize_append, hopen, hmiddle, hclose]
        omega
      rw [List.map_cons, String.join_cons, String.utf8ByteSize_append, ih, hline, List.length_cons,
        List.map_cons, List.sum_cons]
      omega

/-- **A wording is as long as what it repeats**, and its own words. -/
theorem Objection.utf8ByteSize_message (o : Objection) :
    o.message.utf8ByteSize = o.frameSize + o.repeatedSize := by
  cases o with
  | unknownTool name =>
      have hwords : "Unknown tool: ".utf8ByteSize +
          ". Call tools/list for the available tools.".utf8ByteSize = 56 := by decide
      exact (utf8ByteSize_between _ name _).trans (congrArg (· + name.utf8ByteSize) hwords)
  | argument fault => rfl
  | unknownEntity id suggestions =>
      have hhead : (s!"Entity not found: {id}").utf8ByteSize = 18 + id.utf8ByteSize := by
        have hfront : "Entity not found: ".utf8ByteSize = 18 := by decide
        change ("Entity not found: " ++ id).utf8ByteSize = _
        rw [String.utf8ByteSize_append, hfront]
      have hopen : "\nDid you mean:".utf8ByteSize = 14 := by decide
      unfold message EntityReply.missMessage frameSize repeatedSize
      dsimp only
      split
      next hnone =>
        obtain rfl := List.isEmpty_iff.1 hnone
        rw [String.append_empty, List.map_nil, List.sum_nil]
        exact hhead
      next =>
        rw [String.utf8ByteSize_append, hhead, String.utf8ByteSize_append, hopen,
          utf8ByteSize_suggestions]
        omega
  | unknownFormat name =>
      have hwords : "Unsupported format '".utf8ByteSize +
          "'. Use 'markdown' or 'csv'.".utf8ByteSize = 47 := by decide
      exact (utf8ByteSize_between _ name _).trans (congrArg (· + name.utf8ByteSize) hwords)

/-- The keys that tools declare are short. -/
theorem utf8ByteSize_of_declared {tool : Tool} (h : key ∈ tool.parameters.map (·.name)) :
    key.utf8ByteSize ≤ 6 := by
  have hall : ∀ tool : Tool, ∀ name ∈ tool.parameters.map (·.name), name.utf8ByteSize ≤ 6 := by
    intro tool
    cases tool <;> decide
  exact hall tool key h

/-- The wording of a fault is short beside the key that it names. -/
theorem utf8ByteSize_message_le (fault : ArgumentFault) :
    fault.message.utf8ByteSize ≤ 30 + fault.key.utf8ByteSize := by
  have hquoted : ∀ back : String, back.utf8ByteSize ≤ 19 →
      ("parameter '" ++ fault.key ++ back).utf8ByteSize ≤ 30 + fault.key.utf8ByteSize := by
    intro back hback
    have hfront : "parameter '".utf8ByteSize = 11 := by decide
    rw [utf8ByteSize_between, hfront]
    omega
  cases fault with
  | missing key =>
      change ("missing required parameter: " ++ key).utf8ByteSize ≤ _ + key.utf8ByteSize
      have hfront : "missing required parameter: ".utf8ByteSize = 28 := by decide
      rw [String.utf8ByteSize_append, hfront]
      omega
  | blank key => exact hquoted "' must not be empty" (by decide)
  | notText key => exact hquoted "' must be a string" (by decide)
  | notNumber key => exact hquoted "' must be a number" (by decide)

/-- At most three entities are suggested. -/
theorem length_suggestions_le (index : EntityIndex) (id : String) :
    (EntityReply.suggestions index id).length ≤ 3 := by
  have hsearch : ∀ query, (index.search query EntityReply.suggestionLimit).length ≤ 3 := by
    intro query
    exact List.length_take_le _ _
  unfold EntityReply.suggestions
  dsimp only
  split
  · split
    · split
      · exact Nat.zero_le 3
      · exact hsearch _
    · exact Nat.zero_le 3
  · exact hsearch _

/-- The words of an objection that is raised are few. -/
theorem Raises.frameSize_le {o : Objection} (h : Raises ctx name args o) : o.frameSize ≤ 56 := by
  cases h with
  | unknownTool => exact Nat.le_refl 56
  | @argument tool fault _ hdeclared =>
      have hkey := utf8ByteSize_of_declared hdeclared
      have hmessage := utf8ByteSize_message_le fault
      change fault.message.utf8ByteSize ≤ 56
      omega
  | @unknownId id =>
      have hlength := length_suggestions_le ctx.index id
      dsimp only [Objection.frameSize]
      split <;> omega
  | unknownParent => exact (by decide : 18 ≤ 56)
  | unknownFormat => exact (by decide : 47 ≤ 56)

/-! ## Calls -/

/-- How long the outcome of a call is: a result without an error is bounded, and a refusal has few words
beside what it repeats. -/
inductive Sized (ctx : ToolContext) (name : String) (args : Json) :
    Except Failure ToolResult → Prop where
  | failed {failure : Failure} {s : Source} (called : name = validate.name)
      (unreadable : ctx.Unreadable s failure) : Sized ctx name args (.error failure)
  | answered {r : ToolResult} (isError_eq : r.isError = false) (bounded : r.IsBounded) :
      Sized ctx name args (.ok r)
  | refused {o : Objection} (raised : Raises ctx name args o)
      (size_eq : o.message.utf8ByteSize = o.frameSize + o.repeatedSize)
      (frameSize_le : o.frameSize ≤ 56) : Sized ctx name args (.ok (.refusal o.message))

/-- The outcome of every call is sized. -/
theorem sized_call (ctx : ToolContext) (name : String) (args : Json) :
    Sized ctx name args (call ctx name args) := by
  cases hcall : call ctx name args with
  | error failure =>
      obtain ⟨hname, s, hunreadable⟩ := call_eq_error hcall
      exact .failed hname hunreadable
  | ok r =>
      unfold call at hcall
      cases hanswer : answerByName ctx name args with
      | error failure =>
          rw [hanswer] at hcall
          cases hcall
      | ok a =>
          rw [hanswer] at hcall
          cases hcall
          cases a with
          | text s => exact .answered rfl (ToolResult.isBounded_text s)
          | json v => exact .answered rfl (ToolResult.isBounded_text v.pretty)
          | refusal message =>
              obtain ⟨o, hraises, rfl⟩ := exists_raises hanswer
              exact .refused hraises o.utf8ByteSize_message hraises.frameSize_le

/-- No tool has a name of eighteen letters or more. -/
theorem ofName?_of_length (h : 18 ≤ name.length) : ofName? name = none := by
  cases htool : ofName? name with
  | none => rfl
  | some tool =>
      have hshort : ∀ tool : Tool, tool.name.length < 18 := by
        intro tool
        cases tool <;> decide
      have hlength := hshort tool
      rw [name_of_ofName? htool] at hlength
      omega

/-- A call of an unknown tool is refused by its name. -/
theorem call_of_ofName?_eq_none (h : ofName? name = none) :
    call ctx name args = .ok (.refusal (Objection.unknownTool name).message) := by
  unfold call answerByName
  rw [h]
  rfl

/-- What is refused with a text that is longer than the limit and the notice is not bounded. -/
theorem Objection.not_isBounded {o : Objection}
    (h : ToolResult.textLimit + 33 < o.repeatedSize) : ¬(ToolResult.refusal o.message).IsBounded := by
  intro hbounded
  have hnotice : (Nat.toDigits 10 ToolResult.textLimit).length = 6 := by decide
  have hle : o.message.utf8ByteSize ≤ _ := hbounded _ (List.mem_singleton_self _)
  rw [o.utf8ByteSize_message, ToolResult.utf8ByteSize_notice, hnotice] at hle
  omega

/-- Refusals have no bound: a long enough name is repeated in full. -/
theorem exists_call_gt (ctx : ToolContext) (args : Json) (n : Nat) :
    ∃ name r, call ctx name args = .ok r ∧ ∃ b ∈ r.content, n < b.text.utf8ByteSize := by
  let name := ToolResult.repeated (n + 18) 'x'
  have hname : ofName? name = none := by
    refine ofName?_of_length ?_
    rw [ToolResult.length_repeated]
    omega
  refine ⟨name, _, call_of_ofName?_eq_none hname, _, List.mem_singleton_self _, ?_⟩
  have hsize : name.utf8ByteSize = (n + 18) * 1 := ToolResult.utf8ByteSize_repeated (n + 18) 'x'
  dsimp only
  rw [Objection.utf8ByteSize_message]
  dsimp only [Objection.frameSize, Objection.repeatedSize]
  omega

/-- **How long the result of a call is.**  A result without an error has no more octets than the limit and the
notice allow.  A refusal has at most 56 octets beside a text of the caller and what at most three entities
are called, which it repeats as they are; so there is no bound for all calls. -/
theorem call_sized (ctx : ToolContext) (name : String) (args : Json) (n : Nat) :
    Sized ctx name args (call ctx name args) ∧
      ∃ name' r, call ctx name' args = .ok r ∧ ∃ b ∈ r.content, n < b.text.utf8ByteSize :=
  ⟨sized_call ctx name args, exists_call_gt ctx args n⟩

/-- **The refusal of a long name is longer** than the limit and the notice allow. -/
theorem call_of_long_name :
    ∃ r, call (.ofIndex (.empty "f" "v")) (ToolResult.repeated 100034 'x') .null = .ok r ∧
      r.isError = true ∧ ¬r.IsBounded := by
  have hname : ofName? (ToolResult.repeated 100034 'x') = none := by
    refine ofName?_of_length ?_
    rw [ToolResult.length_repeated]
    decide
  refine ⟨_, call_of_ofName?_eq_none hname, rfl, Objection.not_isBounded ?_⟩
  change ToolResult.textLimit + 33 < (ToolResult.repeated 100034 'x').utf8ByteSize
  rw [ToolResult.utf8ByteSize_repeated]
  decide

end Tool

end RegistryGraph
