import Mathlib.Data.List.TakeWhile
import RegistryGraph.Proofs.Json.Lines
import RegistryGraph.Proofs.Rpc.Silence
import RegistryGraph.Proofs.Text.Utf8
import RegistryGraph.Rpc.Conversation

/-!
# What is said in a conversation

`Conversed` says which answers belong to the lines of a conversation: blank lines and notifications
have none, any other line has exactly one.  The program follows it up to the first line that is no text,
where it stops with a fault.

* `Conversation.flatten_lines`: the lines are the input, cut behind its line feeds.
* `Conversation.lines_transcript`: the output has one line for every answer.
* `Conversation.exists_conversed_answerLines`: what the loop over the lines says.
* `Conversation.run_conversed`: what the program says, and when it hears out the whole input.
-/

namespace RegistryGraph.Rpc.Conversation

/-! ## Lines -/

/-- The lines are the input, cut into pieces. -/
theorem flatten_lines (octets : Octets) : (lines octets).flatten = octets := by
  induction octets with
  | nil => rfl
  | cons b rest ih =>
      rw [lines]
      split
      · rw [List.flatten_cons, ih]
        rfl
      · cases hlines : lines rest with
        | nil =>
            rw [hlines] at ih
            rw [← ih]
            rfl
        | cons line others =>
            rw [hlines] at ih
            rw [← ih]
            rfl

/-- The first line feed ends the first line. -/
theorem lines_lineFeed {line : Octets} (h : 0x0A ∉ line) (rest : Octets) :
    lines (line ++ 0x0A :: rest) = (line ++ [0x0A]) :: lines rest := by
  induction line with
  | nil => rfl
  | cons b line ih =>
      rw [List.mem_cons, not_or] at h
      rw [List.cons_append, lines, if_neg (Ne.symm h.1), ih h.2]
      rfl

/-- No line is empty, and a line feed stands nowhere but at the end of a line. -/
theorem form_of_mem_lines {octets line : Octets} (h : line ∈ lines octets) :
    line ≠ [] ∧ 0x0A ∉ line.dropLast := by
  induction octets generalizing line with
  | nil => cases h
  | cons b rest ih =>
      rw [lines] at h
      split at h
      next hfeed =>
        rcases List.mem_cons.1 h with rfl | h
        · exact ⟨List.cons_ne_nil _ _, List.not_mem_nil⟩
        · exact ih h
      next hother =>
        cases hlines : lines rest with
        | nil =>
            rw [hlines] at h
            cases List.mem_singleton.1 h
            exact ⟨List.cons_ne_nil _ _, List.not_mem_nil⟩
        | cons first others =>
            rw [hlines] at h ih
            rcases List.mem_cons.1 h with rfl | h
            · obtain ⟨hfull, hinside⟩ := ih List.mem_cons_self
              refine ⟨List.cons_ne_nil _ _, ?_⟩
              rw [List.dropLast_cons_of_ne_nil hfull, List.mem_cons, not_or]
              exact ⟨Ne.symm hother, hinside⟩
            · exact ih (List.mem_cons_of_mem _ h)

/-- The fault with which a line ends the conversation. -/
def fault? (line : Octets) : Option IoFault :=
  match Utf8.decode line with
  | .ok _ => none
  | .error fault => some (.encoding fault)

/-- Whether a line is a text. -/
def isText (line : Octets) : Bool := (fault? line).isNone

/-- The message on a line: its text without the white space around it. A line that is no text is a
message as it is. -/
def messageOf (line : Octets) : Octets :=
  match Utf8.decode line with
  | .ok s => Utf8.encode (Text.trim s)
  | .error _ => line

/-! ## Answers -/

/-- The answers that belong to the lines of a conversation, and the statistics that lead to them. -/
inductive Conversed (ctx : ToolContext) (uptime : Nat) :
    Statistics → List Octets → List Response → Prop where
  | done (stats : Statistics) : Conversed ctx uptime stats [] []
  | blank {stats : Statistics} {line : Octets} {rest : List Octets} {answers : List Response}
    (empty : messageOf line = []) (tail : Conversed ctx uptime stats rest answers) :
    Conversed ctx uptime stats (line :: rest) answers
  | notification {stats : Statistics} {line : Octets} {rest : List Octets} {answers : List Response}
    {r : Request} (accepted : Request.parse (messageOf line) = .ok r)
    (silent : r.isNotification = true)
    (tail : Conversed ctx uptime (Dispatch.handle ctx uptime stats (messageOf line)).1 rest answers) :
    Conversed ctx uptime stats (line :: rest) answers
  | answered {stats : Statistics} {line : Octets} {rest : List Octets} {answers : List Response}
    {response : Response} (full : messageOf line ≠ [])
    (said : (Dispatch.handle ctx uptime stats (messageOf line)).2 = some response)
    (tail : Conversed ctx uptime (Dispatch.handle ctx uptime stats (messageOf line)).1 rest answers) :
    Conversed ctx uptime stats (line :: rest) (response :: answers)

/-- The answers, each on a line. -/
def transcript (answers : List Response) : String :=
  String.join (answers.map fun response => response.serialize ++ "\n")

variable {ctx : ToolContext} {uptime : Nat} {stats : Statistics} {line : Octets}
  {rest : List Octets} {answers : List Response}

/-- A transcript begins with its first answer on a line. -/
theorem transcript_cons (response : Response) (answers : List Response) :
    transcript (response :: answers) = response.serialize ++ "\n" ++ transcript answers := by
  rw [transcript, List.map_cons, String.join_cons, transcript]

/-- **One line for every answer.** -/
theorem lines_transcript (answers : List Response) :
    lines (Utf8.encode (transcript answers)) =
      answers.map fun response => Utf8.encode response.serialize ++ [0x0A] := by
  induction answers with
  | nil => rfl
  | cons response answers ih =>
      have hfeed : Utf8.encode "\n" = [0x0A] := by decide
      have hline : 0x0A ∉ Utf8.encode response.serialize := fun hmem =>
        Json.lineFeed_not_mem_compact response.toJson
          (Utf8.mem_of_mem_encode hmem (by decide))
      rw [transcript_cons, Utf8.encode_append, Utf8.encode_append, hfeed, List.append_assoc,
        List.singleton_append, lines_lineFeed hline, ih]
      rfl

/-- A line with a message goes on with what is said to the message. -/
theorem Conversed.message (full : messageOf line ≠ [])
    (tail : Conversed ctx uptime (Dispatch.handle ctx uptime stats (messageOf line)).1 rest answers) :
    Conversed ctx uptime stats (line :: rest)
      ((Dispatch.handle ctx uptime stats (messageOf line)).2.toList ++ answers) := by
  cases hsaid : (Dispatch.handle ctx uptime stats (messageOf line)).2 with
  | none =>
      obtain ⟨r, haccepted, hsilent⟩ := Dispatch.handle_eq_none_iff.1 hsaid
      exact .notification haccepted hsilent tail
  | some response => exact .answered full hsaid tail

/-- An empty line is no request. -/
theorem parse_nil (r : Request) : Request.parse [] ≠ .ok r := fun h => by cases h

/-- The lines determine the answers. -/
theorem Conversed.unique {all : List Octets} {answers' : List Response}
    (h : Conversed ctx uptime stats all answers) (h' : Conversed ctx uptime stats all answers') :
    answers = answers' := by
  induction h generalizing answers' with
  | done stats =>
      cases h'
      rfl
  | blank empty tail ih =>
      cases h' with
      | blank _ tail' => exact ih tail'
      | notification accepted' => exact absurd (empty ▸ accepted') (parse_nil _)
      | answered full' => exact absurd empty full'
  | notification accepted silent tail ih =>
      cases h' with
      | blank empty' => exact absurd (empty' ▸ accepted) (parse_nil _)
      | notification _ _ tail' => exact ih tail'
      | answered _ said' =>
          cases said'.symm.trans (Dispatch.handle_eq_none_iff.2 ⟨_, accepted, silent⟩)
  | answered full said tail ih =>
      cases h' with
      | blank empty' => exact absurd empty' full
      | notification accepted' silent' =>
          cases said.symm.trans (Dispatch.handle_eq_none_iff.2 ⟨_, accepted', silent'⟩)
      | answered _ said' tail' =>
          cases said.symm.trans said'
          exact congrArg _ (ih tail')

/-! ## The loop -/

/-- What one line does. -/
theorem answerLine_cases (ctx : ToolContext) (uptime : Nat) (stats : Statistics) (line : Octets) :
    (∃ fault, fault? line = some fault ∧ answerLine ctx uptime stats line = .error fault) ∨
      (fault? line = none ∧ messageOf line = [] ∧
        answerLine ctx uptime stats line = .ok (stats, transcript [])) ∨
      fault? line = none ∧ messageOf line ≠ [] ∧
        answerLine ctx uptime stats line =
          .ok ((Dispatch.handle ctx uptime stats (messageOf line)).1,
            transcript (Dispatch.handle ctx uptime stats (messageOf line)).2.toList) := by
  unfold answerLine fault? messageOf
  cases Utf8.decode line with
  | error fault => exact .inl ⟨_, rfl, rfl⟩
  | ok s =>
      refine .inr ?_
      dsimp only
      by_cases hempty : Text.trim s = ""
      · exact .inl ⟨rfl, Utf8.encode_eq_nil_iff.2 hempty, if_pos (by simp [hempty])⟩
      · refine .inr ⟨rfl, fun h => hempty (Utf8.encode_eq_nil_iff.1 h), ?_⟩
        rw [if_neg (by simpa using hempty)]
        rcases Dispatch.handle ctx uptime stats (Utf8.encode (Text.trim s)) with
          ⟨stats', _ | response⟩
        · rfl
        · simp [transcript]

/-- **The loop answers the lines up to the first that is no text**, and stops there. -/
theorem exists_conversed_answerLines (ctx : ToolContext) (uptime : Nat) (stats : Statistics)
    (all : List Octets) :
    ∃ answers, Conversed ctx uptime stats (all.takeWhile isText) answers ∧
      String.join (answerLines ctx uptime stats all).1 = transcript answers ∧
      (answerLines ctx uptime stats all).2 = all.findSome? fault? := by
  induction all generalizing stats with
  | nil => exact ⟨[], .done stats, rfl, rfl⟩
  | cons line rest ih =>
      rw [answerLines, List.findSome?_cons]
      rcases answerLine_cases ctx uptime stats line with
        ⟨fault, hfault, hline⟩ | ⟨htext, hempty, hline⟩ | ⟨htext, hfull, hline⟩
      · rw [List.takeWhile_cons_of_neg (by simp [isText, hfault]), hline, hfault]
        exact ⟨[], .done stats, rfl, rfl⟩
      · obtain ⟨answers, hconversed, hjoin, hend⟩ := ih stats
        rw [List.takeWhile_cons_of_pos (by simp [isText, htext]), hline, htext]
        refine ⟨answers, .blank hempty hconversed, ?_, hend⟩
        dsimp only
        rw [String.join_cons, hjoin]
        rfl
      · obtain ⟨answers, hconversed, hjoin, hend⟩ :=
          ih (Dispatch.handle ctx uptime stats (messageOf line)).1
        rw [List.takeWhile_cons_of_pos (by simp [isText, htext]), hline, htext]
        refine ⟨_, .message hfull hconversed, ?_, hend⟩
        dsimp only
        rw [String.join_cons, hjoin, transcript, transcript, transcript, List.map_append,
          String.join_append]

/-- Where no line is at fault, all lines are text. -/
theorem takeWhile_isText_of_fault {all : List Octets} (h : all.findSome? fault? = none) :
    all.takeWhile isText = all := by
  rw [List.takeWhile_eq_self_iff]
  intro line hline
  rw [isText, List.findSome?_eq_none_iff.1 h line hline]
  rfl

/-- **A conversation.**  The output has exactly the answers that belong to the lines before the first
that is no text, each on one line; if there is such a line, the conversation ends there with its fault.
So all lines get what belongs to them, and the end of the input is the end without a fault, just in case
every line is a text. -/
theorem run_conversed (ctx : ToolContext) (uptime : Nat) (input : Octets) :
    (∃ answers, Conversed ctx uptime .zero ((lines input).takeWhile isText) answers ∧
        run ctx uptime input = (transcript answers, (lines input).findSome? fault?) ∧
        lines (Utf8.encode (transcript answers)) =
          answers.map fun response => Utf8.encode response.serialize ++ [0x0A]) ∧
      ((∃ answers, Conversed ctx uptime .zero (lines input) answers ∧
          run ctx uptime input = (transcript answers, none)) ↔
        ∀ line ∈ lines input, isText line = true) := by
  obtain ⟨answers, hconversed, hjoin, hend⟩ :=
    exists_conversed_answerLines ctx uptime .zero (lines input)
  have hrun : run ctx uptime input = (transcript answers, (lines input).findSome? fault?) := by
    rw [← hjoin, ← hend]
    rfl
  refine ⟨⟨answers, hconversed, hrun, lines_transcript answers⟩, ?_, ?_⟩
  · rintro ⟨_, _, hwhole⟩ line hline
    have hnone : (lines input).findSome? fault? = none :=
      congrArg Prod.snd (hrun.symm.trans hwhole)
    rw [isText, List.findSome?_eq_none_iff.1 hnone line hline]
    rfl
  · intro htext
    have hnone : (lines input).findSome? fault? = none :=
      List.findSome?_eq_none_iff.2 fun line hline => Option.isNone_iff_eq_none.1 (htext line hline)
    rw [takeWhile_isText_of_fault hnone] at hconversed
    exact ⟨answers, hconversed, hnone ▸ hrun⟩

/-! ## A line that is no text -/

/-- A question on a line. -/
def questionLine : Octets :=
  Utf8.encode "\x7b\"jsonrpc\":\"2.0\",\"id\":1,\"method\":\"ping\"\x7d\n"

/-- An octet that begins no character, and a question on the next line. -/
def brokenInput : Octets := 0xFF :: 0x0A :: questionLine

/-- The broken input has two lines: one that is no text, and a question. -/
theorem lines_brokenInput : lines brokenInput = [[0xFF, 0x0A], questionLine] := by
  decide +kernel

/-- The first line is at fault in its first octet. -/
theorem fault?_brokenLine : fault? [0xFF, 0x0A] = some (.encoding (.invalid 1 0)) := by
  decide +kernel

/-- The second line asks whether the server is there. -/
theorem exists_parse_questionLine :
    ∃ r, Request.parse (messageOf questionLine) = .ok r ∧ r.id = .number (.integer 1) ∧
      r.method = "ping" :=
  Dispatch.exists_accepted_of_toOption (by decide +kernel)

/-- Handled as a message, the first line would be answered as no JSON. -/
theorem exists_answer_brokenLine (stats : Statistics) :
    ∃ response, (Dispatch.handle Dispatch.bareContext 0 stats [0xFF, 0x0A]).2 = some response ∧
      response.code? = some (-32700) := by
  have hbroken : (Json.parse [0xFF, 0x0A]).toOption.isNone = true := by decide +kernel
  rw [Dispatch.handle, Request.parse]
  cases hparse : Json.parse [0xFF, 0x0A] with
  | ok v =>
      rw [hparse] at hbroken
      cases hbroken
  | error fault => exact ⟨_, rfl, rfl⟩

/-- The first line asks for an error and the second for a result, but nothing is said. -/
theorem run_brokenInput :
    (∃ invalid pong, Conversed Dispatch.bareContext 0 .zero (lines brokenInput) [invalid, pong] ∧
        invalid.code? = some (-32700)) ∧
      run Dispatch.bareContext 0 brokenInput = ("", some (.encoding (.invalid 1 0))) := by
  rw [run, lines_brokenInput]
  constructor
  · have hmessage : messageOf [0xFF, 0x0A] = [0xFF, 0x0A] := by decide +kernel
    obtain ⟨invalid, hinvalid, hcode⟩ := exists_answer_brokenLine .zero
    obtain ⟨r, hparse, _, hmethod⟩ := exists_parse_questionLine
    have hwanted : r.isNotification = false := by
      rw [Request.isNotification, hmethod]
      decide
    have hfull : messageOf questionLine ≠ [] := fun hempty =>
      parse_nil r (hempty ▸ hparse)
    obtain ⟨pong, _, hpong, _⟩ := Dispatch.exists_answer_of_accepted hparse hwanted
    refine ⟨invalid, pong, .answered ?_ ?_ (.answered hfull hpong (.done _)), hcode⟩
    · rw [hmessage]
      exact List.cons_ne_nil _ _
    · rw [hmessage]
      exact hinvalid
  · rw [answerLines]
    rcases answerLine_cases Dispatch.bareContext 0 .zero [0xFF, 0x0A] with
      ⟨fault, hfault, hline⟩ | ⟨htext, _⟩ | ⟨htext, _⟩
    · cases fault?_brokenLine.symm.trans hfault
      rw [hline]
      rfl
    · cases fault?_brokenLine.symm.trans htext
    · cases fault?_brokenLine.symm.trans htext

end RegistryGraph.Rpc.Conversation
