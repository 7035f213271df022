import RegistryGraph.Proofs.Files.Components
import RegistryGraph.Proofs.Rpc.Conversation
import RegistryGraph.Session.Event

/-!
# Reading what was written

Answers leave the program in two ways: as lines of its output, and as events of a stream.  Both mark
their borders with line breaks, and answers hold whatever texts the documents hold.  `Listener` reads a
stream of events by the rules that browsers follow.  What is written is read back, answer by answer.

* `Text.pieces_unlines`, `Listener.linesFrom_unlines`: lines come back from a text of lines.
* `Listener.readLines_frame`: the lines of one frame are read as its one event.
* `Listener.read_frames`: so is a whole stream.
* `framing_lossless`: what both ways do to answers.
-/

namespace RegistryGraph

/-! ## Lines -/

namespace Text

/-- Lines, each with a line feed behind it. -/
def unlines (lines : List (List Char)) : List Char := lines.flatMap (· ++ ['\n'])

/-- Lines are joined by ending each with a line feed. -/
theorem unlines_cons (line : List Char) (rest : List (List Char)) :
    unlines (line :: rest) = line ++ '\n' :: unlines rest := by
  rw [unlines, List.flatMap_cons, List.append_assoc, unlines]
  rfl

/-- Lines are joined one list behind the other. -/
theorem unlines_append (front rest : List (List Char)) :
    unlines (front ++ rest) = unlines front ++ unlines rest := List.flatMap_append

/-- Cutting at line feeds brings the lines back, and behind the last line feed there is nothing. -/
theorem pieces_unlines {lines : List (List Char)} (h : ∀ line ∈ lines, '\n' ∉ line) :
    pieces '\n' (unlines lines) = lines ++ [[]] := by
  induction lines with
  | nil => rfl
  | cons line rest ih =>
      obtain ⟨hline, hrest⟩ := List.forall_mem_cons.1 h
      rw [unlines_cons, pieces_append_separator, pieces_of_not_mem hline, ih hrest]
      rfl

/-- The pieces between line feeds, joined again, are the text and a last line feed. -/
theorem unlines_pieces (cs : List Char) : unlines (pieces '\n' cs) = cs ++ ['\n'] := by
  induction cs with
  | nil => rfl
  | cons c rest ih =>
      rw [pieces]
      split
      next hfeed =>
        rw [unlines_cons, ih, hfeed]
        rfl
      next =>
        cases hpieces : pieces '\n' rest with
        | nil => exact absurd hpieces (pieces_ne_nil _ _)
        | cons piece others =>
            rw [hpieces, unlines_cons] at ih
            dsimp only
            rw [unlines_cons, List.cons_append, ih]
            rfl

end Text

/-! ## Listening -/

/-- An event as a client is told of it. -/
structure Received where
  kind : String
  data : String
  /-- The last id that the stream has given. -/
  lastId : String
deriving DecidableEq, Repr

/-- What a client has read of the event that is under way. -/
structure Listener where
  kind : List Char
  data : List Char
  lastId : List Char

namespace Listener

/-- A client that has read nothing. -/
def start : Listener := ⟨[], [], []⟩

/-- Takes a field in.  Fields of other names say nothing about an event. -/
def takeField (l : Listener) (name value : List Char) : Listener :=
  if name = "event".toList then { l with kind := value }
  else if name = "data".toList then { l with data := l.data ++ value ++ ['\n'] }
  else if name = "id".toList then if '\x00' ∈ value then l else { l with lastId := value }
  else l

/-- The value of a field: what stands behind the colon without its first blank. -/
def valueOf : List Char → List Char
  | [] => []
  | c :: rest => if c = ' ' then rest else c :: rest

/-- The end of an event.  An event without data is none. -/
def dispatch (l : Listener) : Listener × Option Received :=
  ({ l with kind := [], data := [] },
    if l.data.isEmpty then none
    else
      some
        ⟨if l.kind.isEmpty then "message" else .ofList l.kind, .ofList l.data.dropLast,
          .ofList l.lastId⟩)

/-- Reads a line: a blank one ends an event, one that begins with a colon is a comment, any other one is
a field. -/
def readLine (l : Listener) (line : List Char) : Listener × Option Received :=
  if line.isEmpty then l.dispatch
  else if line.head? = some ':' then (l, none)
  else (l.takeField (Text.before ':' line) (valueOf (Text.behind ':' line)), none)

/-- The events that lines tell of. -/
def readLines (l : Listener) : List (List Char) → List Received
  | [] => []
  | line :: rest => (l.readLine line).2.toList ++ (l.readLine line).1.readLines rest

/-- The lines of a text behind the characters `line` (latest first) of the line under way.  A carriage
return, a line feed, and both in this order end a line; `returned` tells whether the text before ends
with a carriage return.  What is not ended is no line. -/
def linesFrom (line : List Char) (returned : Bool) : List Char → List (List Char)
  | [] => []
  | c :: rest =>
    if c = '\n' then
      if returned then linesFrom [] false rest else line.reverse :: linesFrom [] false rest
    else if c = '\r' then line.reverse :: linesFrom [] true rest
    else linesFrom (c :: line) false rest

/-- The text of a stream: a mark of the byte order in front does not belong to it. -/
def textOf (octets : Octets) : List Char :=
  match (Utf8.decodeLossy octets).toList with
  | [] => []
  | c :: rest => if c = '\uFEFF' then rest else c :: rest

/-- The events that a client is told of when it reads a stream. -/
def read (octets : Octets) : List Received := start.readLines (linesFrom [] false (textOf octets))

/-! ## Lines of a stream -/

/-- There is no line break. -/
def Unbroken (cs : List Char) : Prop := '\n' ∉ cs ∧ '\r' ∉ cs

instance (cs : List Char) : Decidable (Unbroken cs) := inferInstanceAs (Decidable (_ ∧ _))

/-- Two unbroken stretches make an unbroken one. -/
theorem Unbroken.append {cs ds : List Char} (hcs : Unbroken cs) (hds : Unbroken ds) :
    Unbroken (cs ++ ds) := by
  unfold Unbroken at *
  rw [List.mem_append, List.mem_append]
  tauto

/-- An unbroken stretch up to a line feed is a single line. -/
theorem linesFrom_unbroken {cs : List Char} (h : Unbroken cs) (line rest : List Char) :
    linesFrom line false (cs ++ '\n' :: rest) =
      (line.reverse ++ cs) :: linesFrom [] false rest := by
  induction cs generalizing line with
  | nil =>
      rw [List.append_nil]
      rfl
  | cons c cs ih =>
      obtain ⟨hfeed, hreturn⟩ := h
      rw [List.mem_cons, not_or] at hfeed hreturn
      rw [List.cons_append, linesFrom, if_neg (Ne.symm hfeed.1), if_neg (Ne.symm hreturn.1),
        ih ⟨hfeed.2, hreturn.2⟩, List.reverse_cons, List.append_assoc]
      rfl

/-- Unbroken lines that are joined come apart again. -/
theorem linesFrom_unlines {lines : List (List Char)} (h : ∀ line ∈ lines, Unbroken line) :
    linesFrom [] false (Text.unlines lines) = lines := by
  induction lines with
  | nil => rfl
  | cons line rest ih =>
      obtain ⟨hline, hrest⟩ := List.forall_mem_cons.1 h
      rw [Text.unlines_cons, linesFrom_unbroken hline, ih hrest]
      rfl

/-! ## Fields -/

variable {l : Listener} {lines : List (List Char)}

/-- Reads the line of a field with a blank behind the colon. -/
theorem readLine_field (name value : List Char) (hname : name ≠ []) (hcolon : ':' ∉ name) :
    l.readLine (name ++ ':' :: ' ' :: value) = (l.takeField name value, none) := by
  have hbefore : Text.before ':' (name ++ ':' :: ' ' :: value) = name := by
    rw [Text.before, List.takeWhile_append_of_pos (by grind)]
    simp
  have hbehind : Text.behind ':' (name ++ ':' :: ' ' :: value) = ' ' :: value := by
    rw [Text.behind, List.dropWhile_append_of_pos (by grind)]
    simp
  have hhead : (name ++ ':' :: ' ' :: value).head? ≠ some ':' := by
    cases name with
    | nil => exact absurd rfl hname
    | cons c rest => grind
  rw [readLine, if_neg (by simp), if_neg hhead, hbefore, hbehind]
  rfl

/-- A line that names the kind of an event is kept for it. -/
theorem readLine_event (kind : List Char) :
    l.readLine ("event: ".toList ++ kind) = ({ l with kind }, none) :=
  readLine_field "event".toList kind (by decide) (by decide)

/-- A line of data is put behind the data so far. -/
theorem readLine_data (line : List Char) :
    l.readLine ("data: ".toList ++ line) = ({ l with data := l.data ++ line ++ ['\n'] }, none) :=
  readLine_field "data".toList line (by decide) (by decide)

/-- The data fields of one event add up to lines. -/
theorem readLines_data (data : List (List Char)) :
    l.readLines (data.map ("data: ".toList ++ ·) ++ lines) =
      { l with data := l.data ++ Text.unlines data }.readLines lines := by
  induction data generalizing l with
  | nil =>
      rw [Text.unlines, List.flatMap_nil, List.append_nil]
      rfl
  | cons line rest ih =>
      rw [List.map_cons, List.cons_append, readLines, readLine_data, ih, Text.unlines_cons]
      simp

end Listener

/-! ## Frames -/

namespace Event

/-- The lines of the frame of an event with a kind and data. -/
def linesOf (kind data : String) : List (List Char) :=
  ("event: ".toList ++ kind.toList) ::
    ((Text.pieces '\n' data.toList).map ("data: ".toList ++ ·) ++ [[]])

/-- The lines of the frame of an event. -/
def frameLines : Event → List (List Char)
  | .endpoint address => linesOf "endpoint" address
  | .message response => linesOf "message" response.serialize
  | .keepalive => [": keepalive".toList, []]

/-- What a client is told of an event. -/
def received? : Event → Option Received
  | .endpoint address => some ⟨"endpoint", address, ""⟩
  | .message response => some ⟨"message", response.serialize, ""⟩
  | .keepalive => none

/-- Data stand in one field for each of their lines. -/
theorem toList_dataFields (data : String) :
    (dataFields data).toList =
      Text.unlines ((Text.pieces '\n' data.toList).map ("data: ".toList ++ ·)) := by
  rw [dataFields]
  induction Text.pieces '\n' data.toList with
  | nil => rfl
  | cons line rest ih =>
      rw [List.map_cons, List.map_cons, String.join_cons, String.toList_append, ih,
        Text.unlines_cons]
      simp

/-- A frame is its lines, each ended. -/
theorem toList_frameOf (kind data : String) :
    (frameOf kind data).toList = Text.unlines (linesOf kind data) := by
  have hblank : Text.unlines [[]] = ['\n'] := rfl
  rw [linesOf, Text.unlines_cons, Text.unlines_append, ← toList_dataFields, hblank, frameOf]
  simp

/-- The frame of an event is the event's lines, each ended. -/
theorem toList_frame (event : Event) : event.frame.toList = Text.unlines event.frameLines := by
  cases event with
  | endpoint address => exact toList_frameOf "endpoint" address
  | message response => exact toList_frameOf "message" response.serialize
  | keepalive => decide

/-- The frames of events, one behind the other. -/
def stream (events : List Event) : String := .join (events.map frame)

/-- A stream is the lines of its events, each ended. -/
theorem toList_stream (events : List Event) :
    (stream events).toList = Text.unlines (events.flatMap frameLines) := by
  rw [stream]
  induction events with
  | nil => rfl
  | cons event rest ih =>
      rw [List.map_cons, String.join_cons, String.toList_append, ih, toList_frame,
        List.flatMap_cons, Text.unlines_append]

/-- **A frame has no line breaks but its own**, unless there is a carriage return in its data. -/
theorem unbroken_linesOf {kind data : String} (hkind : Listener.Unbroken kind.toList)
    (hdata : '\r' ∉ data.toList) : ∀ line ∈ linesOf kind data, Listener.Unbroken line := by
  intro line hline
  rcases List.mem_cons.1 hline with rfl | hline
  · exact .append (by decide) hkind
  rcases List.mem_append.1 hline with hline | hline
  · obtain ⟨piece, hpiece, rfl⟩ := List.mem_map.1 hline
    obtain ⟨hfeed, hsub⟩ := Text.of_mem_pieces hpiece
    have hreturn : '\r' ∉ piece := fun hmem => hdata (hsub hmem)
    exact .append (by decide) ⟨hfeed, hreturn⟩
  · rw [List.mem_singleton.1 hline]
    decide

/-- The address that an event gives has no carriage return. -/
def Addressed (event : Event) : Prop := ∀ address, event = .endpoint address → '\r' ∉ address.toList

/-- A serialized response is a single line. -/
theorem unbroken_serialize (response : Rpc.Response) :
    Listener.Unbroken response.serialize.toList := by
  have hplain := Json.plain_chars response.toJson
  rw [Rpc.Response.serialize, Json.compact, String.toList_ofList]
  exact ⟨fun hmem => absurd (hplain _ hmem) (by decide), fun hmem =>
    absurd (hplain _ hmem) (by decide)⟩

/-- The lines of an event's frame have no line break in them. -/
theorem unbroken_frameLines {event : Event} (h : event.Addressed) :
    ∀ line ∈ event.frameLines, Listener.Unbroken line := by
  cases event with
  | endpoint address => exact unbroken_linesOf (by decide) (h address rfl)
  | message response => exact unbroken_linesOf (by decide) (unbroken_serialize response).2
  | keepalive =>
      unfold frameLines
      decide

end Event

namespace Listener

variable {lines : List (List Char)}

/-- The blank line behind data tells of the event. -/
theorem readLines_blank {l : Listener} {data : List Char} (hkind : l.kind ≠ [])
    (hid : l.lastId = []) (hdata : l.data = data ++ ['\n']) :
    l.readLines ([] :: lines) =
      ⟨.ofList l.kind, .ofList data, ""⟩ :: start.readLines lines := by
  have hfull : l.data.isEmpty = false := by
    rw [hdata]
    simp
  have hnamed : l.kind.isEmpty = false := List.isEmpty_eq_false_iff.2 hkind
  rw [readLines, readLine, if_pos List.isEmpty_nil, dispatch, hfull, hnamed, hdata, hid,
    List.dropLast_concat]
  rfl

/-- The lines of a frame are read as its event, and the listener starts anew. -/
theorem readLines_linesOf {kind data : String} (h : kind.toList ≠ []) :
    start.readLines (Event.linesOf kind data ++ lines) =
      ⟨kind, data, ""⟩ :: start.readLines lines := by
  rw [Event.linesOf, List.cons_append, List.append_assoc, readLines, readLine_event, readLines_data,
    Text.unlines_pieces, List.singleton_append, readLines_blank h rfl rfl, String.ofList_toList,
    String.ofList_toList]
  rfl

/-- **One frame is read as its one event.** -/
theorem readLines_frame (event : Event) :
    start.readLines (event.frameLines ++ lines) =
      event.received?.toList ++ start.readLines lines := by
  cases event with
  | endpoint address => exact readLines_linesOf (by decide)
  | message response => exact readLines_linesOf (by decide)
  | keepalive => rfl

/-- The frames of a stream are read as its events, in order; the keep-alives give none. -/
theorem readLines_frames (events : List Event) :
    start.readLines (events.flatMap Event.frameLines) = events.filterMap Event.received? := by
  induction events with
  | nil => rfl
  | cons event rest ih =>
      rw [List.flatMap_cons, readLines_frame, ih, List.filterMap_cons]
      cases event.received? <;> rfl

/-- A stream of frames begins with no mark of the byte order. -/
theorem textOf_stream (events : List Event) :
    textOf (Utf8.encode (Event.stream events)) = (Event.stream events).toList := by
  rw [textOf, Utf8.decodeLossy_encode, Event.toList_stream]
  cases events with
  | nil => rfl
  | cons event rest => cases event <;> rfl

/-- **A stream of frames is read as its events**, in their order. -/
theorem read_frames {events : List Event} (h : ∀ event ∈ events, event.Addressed) :
    read (Utf8.encode (Event.stream events)) = events.filterMap Event.received? := by
  have hunbroken : ∀ line ∈ events.flatMap Event.frameLines, Unbroken line := by
    intro line hline
    obtain ⟨event, hevent, hline⟩ := List.mem_flatMap.1 hline
    exact Event.unbroken_frameLines (h event hevent) line hline
  rw [read, textOf_stream, Event.toList_stream, linesFrom_unlines hunbroken, readLines_frames]

end Listener

/-- Data of two lines are two fields, and a client puts them together again. -/
example :
    Event.frameOf "message" "a\nb" = "event: message\ndata: a\ndata: b\n\n" ∧
      Listener.read (Utf8.encode (Event.frameOf "message" "a\nb")) = [⟨"message", "a\nb", ""⟩] := by
  decide +kernel

/-! ## Answers -/

/-- The text of a conversation is one of lines. -/
theorem toList_transcript (answers : List Rpc.Response) :
    (Rpc.Conversation.transcript answers).toList =
      Text.unlines (answers.map fun response => response.serialize.toList) := by
  induction answers with
  | nil => rfl
  | cons response rest ih =>
      rw [Rpc.Conversation.transcript_cons, String.toList_append, String.toList_append, ih,
        List.map_cons, Text.unlines_cons, List.append_assoc]
      rfl

/-- A transcript has one piece for each answer, and nothing behind the last line feed. -/
theorem pieces_transcript (answers : List Rpc.Response) :
    Text.pieces '\n' (Rpc.Conversation.transcript answers).toList =
      (answers.map fun response => response.serialize.toList) ++ [[]] := by
  rw [toList_transcript, Text.pieces_unlines]
  intro line hline
  obtain ⟨response, _, rfl⟩ := List.mem_map.1 hline
  exact (Event.unbroken_serialize response).1

/-- An answer, or a sign of life in its place, as an event. -/
def Event.ofNote : Option Rpc.Response → Event
  | some response => .message response
  | none => .keepalive

/-- **What is written is read back.**  Whatever texts are in answers: the lines of a conversation are its
answers in their order, with nothing behind the last line feed, and this is all that the program writes
for any input.  In a stream of events the frame of an answer has one field of data, which is the answer
as it is sent; and a client that reads the frames of answers, with signs of life anywhere between them,
is told of one event for each answer, in their order. -/
theorem framing_lossless :
    (∀ answers : List Rpc.Response,
        Text.pieces '\n' (Rpc.Conversation.transcript answers).toList =
          (answers.map fun response => response.serialize.toList) ++ [[]]) ∧
      (∀ ctx uptime input, ∃ answers,
        Rpc.Conversation.Conversed ctx uptime .zero
            ((Rpc.Conversation.lines input).takeWhile Rpc.Conversation.isText) answers ∧
          (Rpc.Conversation.run ctx uptime input).1 = Rpc.Conversation.transcript answers) ∧
      (∀ response : Rpc.Response,
        (Event.message response).frame =
          "event: message\ndata: " ++ response.serialize ++ "\n\n") ∧
      ∀ notes : List (Option Rpc.Response),
        Listener.read (Utf8.encode (Event.stream (notes.map Event.ofNote))) =
          notes.reduceOption.map fun response => ⟨"message", response.serialize, ""⟩ := by
  refine ⟨pieces_transcript, ?_, ?_, ?_⟩
  · intro ctx uptime input
    obtain ⟨⟨answers, hconversed, hrun, _⟩, _⟩ :=
      Rpc.Conversation.run_conversed ctx uptime input
    exact ⟨answers, hconversed, congrArg Prod.fst hrun⟩
  · intro response
    have hpieces : Text.pieces '\n' response.serialize.toList = [response.serialize.toList] :=
      Text.pieces_of_not_mem (Event.unbroken_serialize response).1
    have hhead : "event: " ++ "message" ++ "\n" ++ "data: " = "event: message\ndata: " := by decide
    have htail : "\n" ++ "\n" = "\n\n" := by decide
    rw [Event.frame, Event.frameOf, Event.dataFields, hpieces, List.map_singleton, String.join_cons,
      String.join_nil, String.append_empty, String.ofList_toList, ← hhead, ← htail]
    simp only [String.append_assoc]
  · intro notes
    have haddressed : ∀ event ∈ notes.map Event.ofNote, event.Addressed := by
      intro event hevent address heq
      obtain ⟨note, _, rfl⟩ := List.mem_map.1 hevent
      cases note <;> cases heq
    have htold : Event.received? ∘ Event.ofNote = fun note =>
        (id note).map fun response => ⟨"message", response.serialize, ""⟩ := by
      funext note
      cases note <;> rfl
    rw [Listener.read_frames haddressed, List.filterMap_map, htold]
    exact List.map_filterMap.symm

end RegistryGraph
