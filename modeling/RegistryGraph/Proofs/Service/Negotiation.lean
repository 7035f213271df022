import RegistryGraph.Proofs.Service.Requests
import RegistryGraph.Proofs.Text.Pieces
import RegistryGraph.Proofs.Text.Trim
import RegistryGraph.Proofs.Text.Utf8

/-!
# Which media types a client takes

A request says in its `accept` fields which media types its client takes: all the values together are a
list of media ranges, which are separated by commas.  Behind the name of a media range come its parameters,
and one of them says how much the client wants it.  A client that wants nothing of it does not take it.

The service looks for the name of a media range that JSON belongs to, and looks for it in the first value
only.  It reads neither parameters nor quotations, and nothing of a value that is not printable.

* `mediaType_mem_iff`, `HttpRequest.acceptsJson_eq_false_iff`: what the service looks for.
* `HttpRequest.TakesJson`: what all the values together say.
* `HttpRequest.acceptsJson_iff_takesJson`: where the two are the same.
* `Service.negotiates`: when a message is refused because its client does not take the answer.
-/

namespace RegistryGraph

open Text (isBlank trimChars pieces before)

/-! ## Header values as texts -/

/-- The characters of a header value. -/
def headerChars (value : Octets) : List Char := value.map fun b => .ofNat b.toNat

/-- Nothing but tabs and visible ASCII characters. -/
def IsPrintable (cs : List Char) : Prop := ∀ c ∈ cs, c = '\t' ∨ ' ' ≤ c ∧ c ≤ '~'

instance (cs : List Char) : Decidable (IsPrintable cs) := List.decidableBAll _ _

/-- Printable octets, as octets and as characters. -/
theorem printable_octet_iff (b : UInt8) :
    (b = 0x09 ∨ 0x20 ≤ b ∧ b < 0x7F) ↔
      Char.ofNat b.toNat = '\t' ∨ ' ' ≤ Char.ofNat b.toNat ∧ Char.ofNat b.toNat ≤ '~' := by
  have hlt : b.toNat < 256 := b.toNat_lt
  have hchar : (Char.ofNat b.toNat).toNat = b.toNat := Utf8.toNat_char (.inl (by omega))
  generalize Char.ofNat b.toNat = c at hchar ⊢
  have htab : c = '\t' ↔ c.toNat = 9 := Char.toNat_inj.symm
  have hspace : ' ' ≤ c ↔ 32 ≤ c.toNat := Iff.rfl
  have htilde : c ≤ '~' ↔ c.toNat ≤ 126 := Iff.rfl
  rw [htab, hspace, htilde, hchar, ← UInt8.toNat_inj, UInt8.le_iff_toNat_le,
    UInt8.lt_iff_toNat_lt]
  change b.toNat = 9 ∨ 32 ≤ b.toNat ∧ b.toNat < 127 ↔ _
  omega

/-- A header value has a text exactly if it is printable. -/
theorem headerText?_eq_some_iff {value : Octets} {cs : List Char} :
    headerText? value = some cs ↔ cs = headerChars value ∧ IsPrintable (headerChars value) := by
  have hprintable : (value.all fun b => b = 0x09 || (0x20 ≤ b && b < 0x7F)) = true ↔
      IsPrintable (headerChars value) := by
    simp only [List.all_eq_true, Bool.or_eq_true, Bool.and_eq_true, decide_eq_true_eq,
      printable_octet_iff, IsPrintable, headerChars, List.forall_mem_map]
  rw [headerText?]
  split
  next h =>
    rw [Option.some.injEq]
    exact ⟨fun heq => ⟨heq.symm, hprintable.1 h⟩, fun heq => heq.1.symm⟩
  next h => exact ⟨nofun, fun heq => absurd (hprintable.2 heq.2) h⟩

/-! ## Media ranges that JSON belongs to -/

/-- The names of the media ranges that JSON belongs to. -/
def jsonRanges : List String := ["application/json", "application/*", "*/*"]

/-- In an item of a list stands the name of such a media range, in letters of any case, between blanks and in
front of whatever parameters there are. -/
def CoversJson (item : List Char) : Prop :=
  ∃ (front back tail : List Char) (name : String), item = front ++ name.toList ++ back ++ tail ∧
    (∀ c ∈ front, isBlank c = true) ∧ (∀ c ∈ back, isBlank c = true) ∧
    Text.asciiLower name ∈ jsonRanges ∧ (tail = [] ∨ ∃ parameters, tail = ';' :: parameters)

/-- One of the items between the commas is such an item. -/
def ListsJson (value : List Char) : Prop :=
  ∃ items : List (List Char), value = [','].intercalate items ∧ (∀ item ∈ items, ',' ∉ item) ∧
    ∃ item ∈ items, CoversJson item

/-- Trimming and lowering an item commute. -/
theorem asciiLower_trimChars (cs : List Char) :
    Text.asciiLower (.ofList (trimChars cs)) = .ofList (trimChars (cs.map Char.toLower)) := by
  rw [Text.asciiLower, String.toList_ofList, Text.trimChars_map_toLower]

/-- There are no blanks around these names, and no semicolon is in them. -/
theorem trim_of_mem_jsonRanges {name : String} (h : name ∈ jsonRanges) :
    Text.trim name = name ∧ ';' ∉ name.toList := by
  revert h name
  decide

/-- Neither blanks nor semicolons differ from their lower case. -/
theorem toList_of_asciiLower_mem {name : String} (h : Text.asciiLower name ∈ jsonRanges) :
    Text.asciiLower (.ofList (trimChars name.toList)) = Text.asciiLower name ∧ ';' ∉ name.toList := by
  obtain ⟨htrim, hsemicolon⟩ := trim_of_mem_jsonRanges h
  rw [Text.asciiLower, String.toList_ofList] at hsemicolon
  constructor
  · rw [asciiLower_trimChars]
    rwa [Text.trim, Text.asciiLower, String.toList_ofList] at htrim
  · exact fun hmem => hsemicolon (List.mem_map.2 ⟨';', hmem, rfl⟩)

/-- **What stands in front of the parameters** is the name of a media range. -/
theorem mediaType_mem_iff {item : List Char} : mediaType item ∈ jsonRanges ↔ CoversJson item := by
  constructor
  · intro h
    obtain ⟨front, back, hbefore, hfront, hback⟩ := Text.exists_eq_trimChars (before ';' item)
    obtain ⟨tail, hitem, htail⟩ := Text.exists_eq_before_append ';' item
    refine ⟨front, back, tail, .ofList (trimChars (before ';' item)), ?_, hfront, hback, h, htail⟩
    rw [String.toList_ofList, ← hbefore]
    exact hitem
  · rintro ⟨front, back, tail, name, rfl, hfront, hback, hname, htail⟩
    obtain ⟨htrim, hsemicolon⟩ := toList_of_asciiLower_mem hname
    have hblank : ∀ cs : List Char, (∀ c ∈ cs, isBlank c = true) → ';' ∉ cs := by
      intro cs hcs hmem
      exact absurd (hcs ';' hmem) (by decide)
    have hfree : ';' ∉ front ++ name.toList ++ back := by
      rw [List.mem_append, List.mem_append]
      rintro ((hmem | hmem) | hmem)
      · exact hblank front hfront hmem
      · exact hsemicolon hmem
      · exact hblank back hback hmem
    rw [mediaType, Text.before_append hfree htail, Text.trimChars_append_blanks hfront hback, htrim]
    exact hname

/-- A value lists JSON if an item between its commas has the name of such a media range. -/
theorem listsJson_iff {value : List Char} :
    ListsJson value ↔ ∃ item ∈ pieces ',' value, mediaType item ∈ jsonRanges := by
  simp only [mediaType_mem_iff]
  exact Text.exists_mem_pieces_iff.symm

/-! ## What the service looks for -/

namespace HttpRequest

variable {r : HttpRequest}

/-- The values of the `accept` fields. -/
def acceptValues (r : HttpRequest) : List (List Char) :=
  (r.headers.filter fun h => Text.asciiLower h.1 = "accept").map fun h => headerChars h.2

/-- The first value is not printable, or something stands in it but no name of a media range that JSON
belongs to. -/
def RefusesJson (r : HttpRequest) : Prop :=
  ∃ value, r.acceptValues.head? = some value ∧
    (¬IsPrintable value ∨ (∃ c ∈ value, isBlank c = false) ∧ ¬ListsJson value)

/-- The first value of the `accept` fields is the one that the program asks for. -/
theorem head?_acceptValues (r : HttpRequest) :
    r.acceptValues.head? = (r.header? "accept").map headerChars := by
  rw [acceptValues, List.head?_map, List.head?_filter, header?, Option.map_map]
  rfl

/-- Of all the values it is the first that counts. -/
theorem acceptsJson_iff :
    r.acceptsJson = true ↔ ∀ value, r.acceptValues.head? = some value →
      IsPrintable value ∧ (trimChars value = [] ∨ ListsJson value) := by
  rw [head?_acceptValues, acceptsJson]
  cases r.header? "accept" with
  | none => simp
  | some octets =>
      rw [Option.map_some]
      cases htext : headerText? octets with
      | none =>
          have hprintable : ¬IsPrintable (headerChars octets) := by
            intro h
            rw [headerText?_eq_some_iff.2 ⟨rfl, h⟩] at htext
            cases htext
          simp [hprintable, htext]
      | some cs =>
          obtain ⟨rfl, hprintable⟩ := headerText?_eq_some_iff.1 htext
          simp [hprintable, htext, listsJson_iff, jsonRanges]

/-- **The service takes a client for one that takes no JSON.** -/
theorem acceptsJson_eq_false_iff : r.acceptsJson = false ↔ r.RefusesJson := by
  have hsome : ∀ value, trimChars value ≠ [] ↔ ∃ c ∈ value, isBlank c = false := by
    intro value
    simp [Text.trimChars_eq_nil_iff]
  rw [Bool.eq_false_iff, ne_eq, acceptsJson_iff, RefusesJson]
  simp only [← hsome]
  grind

end HttpRequest

/-! ## What all the values together say -/

/-- Where in a header value something stands. -/
inductive Quotation where
  | outside
  | inside
  /-- Behind a backslash in a quotation. -/
  | escaped
deriving DecidableEq, Repr

/-- Where that stands which follows a character. -/
def Quotation.next (q : Quotation) (c : Char) : Quotation :=
  match q with
  | .outside => if c = '"' then .inside else .outside
  | .inside => if c = '"' then .outside else if c = '\\' then .escaped else .inside
  | .escaped => .inside

/-- The stretches between the separators that are in no quotation. -/
def unquotedPieces (separator : Char) (q : Quotation) : List Char → List (List Char)
  | [] => [[]]
  | c :: rest =>
    if q = .outside ∧ c = separator then [] :: unquotedPieces separator .outside rest
    else
      match unquotedPieces separator (q.next c) rest with
      | [] => [[c]]
      | piece :: others => (c :: piece) :: others

/-- A media range with its parameters. -/
structure MediaRange where
  /-- Type and subtype, in lower case. -/
  name : String
  parameters : List (String × String)
deriving DecidableEq, Repr

namespace MediaRange

/-- The name of a parameter, in lower case, and its value. -/
def parameterOf (cs : List Char) : String × String :=
  (Text.asciiLower (.ofList (trimChars (before '=' cs))), .ofList (trimChars (Text.behind '=' cs)))

/-- The media range that an item of a list stands for. -/
def ofItem (item : List Char) : MediaRange :=
  match unquotedPieces ';' .outside item with
  | [] => ⟨"", []⟩
  | name :: parameters =>
    ⟨Text.asciiLower (.ofList (trimChars name)), parameters.map parameterOf⟩

/-- A weight of zero, with any number of decimals. -/
def isZero (weight : String) : Bool :=
  match weight.toList with
  | ['0'] => true
  | '0' :: '.' :: decimals => decimals.all (· = '0')
  | _ => false

/-- Whether the client takes anything of a media range. It does unless the weight says that it does not. -/
def isWanted (range : MediaRange) : Bool :=
  match range.parameters.find? fun parameter => parameter.1 = "q" with
  | some (_, weight) => !isZero weight
  | none => true

end MediaRange

namespace HttpRequest

variable {r : HttpRequest}

/-- The media ranges in all the values, which are one list. -/
def acceptRanges (r : HttpRequest) : List MediaRange :=
  (unquotedPieces ',' .outside ([','].intercalate r.acceptValues)).map .ofItem

/-- Nothing is said about media types, or a media range that JSON belongs to is wanted. -/
def TakesJson (r : HttpRequest) : Prop :=
  (∀ value ∈ r.acceptValues, ∀ c ∈ value, isBlank c = true) ∨
    ∃ range ∈ r.acceptRanges, range.name ∈ jsonRanges ∧ range.isWanted = true

-- The characters of a value are tried one by one, not all the characters that there are.
instance : Decidable r.TakesJson :=
  decidable_of_iff ((r.acceptValues.all fun value => value.all isBlank) = true ∨
      ∃ range ∈ r.acceptRanges, range.name ∈ jsonRanges ∧ range.isWanted = true)
    (by simp only [TakesJson, List.all_eq_true])

/-- At most one value, which is printable and without quotations, and no media range that JSON belongs to has
the weight zero. -/
structure AcceptsPlainly (r : HttpRequest) : Prop where
  single : r.acceptValues.length ≤ 1
  printable : ∀ value ∈ r.acceptValues, IsPrintable value
  unquoted : ∀ value ∈ r.acceptValues, '"' ∉ value
  wanted : ∀ range ∈ r.acceptRanges, range.name ∈ jsonRanges → range.isWanted = true

end HttpRequest

/-- Where nothing is quoted, all separators are alike. -/
theorem unquotedPieces_eq_pieces {separator : Char} {cs : List Char} (h : '"' ∉ cs) :
    unquotedPieces separator .outside cs = pieces separator cs := by
  induction cs with
  | nil => rfl
  | cons c rest ih =>
      obtain ⟨hc, hrest⟩ := not_or.1 (mt List.mem_cons.2 h)
      have hnext : Quotation.outside.next c = .outside := if_neg fun heq => hc heq.symm
      rw [unquotedPieces, pieces, hnext, ih hrest]
      by_cases hseparator : c = separator
      · exact (if_pos ⟨rfl, hseparator⟩).trans (if_pos hseparator).symm
      · exact (if_neg fun heq => hseparator heq.2).trans (if_neg hseparator).symm

/-- Without quotes the name of a range is what stands in front of its parameters. -/
theorem MediaRange.name_ofItem {item : List Char} (h : '"' ∉ item) :
    (ofItem item).name = mediaType item := by
  obtain ⟨parameters, hpieces⟩ := Text.exists_pieces_eq ';' item
  rw [ofItem, unquotedPieces_eq_pieces h, hpieces]
  rfl

/-- What is looked for is what the list says, where nothing is quoted and nothing of JSON is unwanted. -/
theorem listsJson_iff_exists_range {value : List Char} (hquote : '"' ∉ value)
    (hwanted : ∀ range ∈ (unquotedPieces ',' .outside value).map MediaRange.ofItem,
      range.name ∈ jsonRanges → range.isWanted = true) :
    ListsJson value ↔ ∃ range ∈ (unquotedPieces ',' .outside value).map MediaRange.ofItem,
      range.name ∈ jsonRanges ∧ range.isWanted = true := by
  have hname : ∀ item ∈ pieces ',' value, (MediaRange.ofItem item).name = mediaType item := by
    intro item hitem
    exact MediaRange.name_ofItem fun hmem => hquote ((Text.of_mem_pieces hitem).2 hmem)
  rw [listsJson_iff]
  rw [unquotedPieces_eq_pieces hquote] at hwanted ⊢
  constructor
  · rintro ⟨item, hitem, hjson⟩
    have hmem : MediaRange.ofItem item ∈ (pieces ',' value).map MediaRange.ofItem :=
      List.mem_map_of_mem hitem
    rw [← hname item hitem] at hjson
    exact ⟨_, hmem, hjson, hwanted _ hmem hjson⟩
  · rintro ⟨range, hrange, hjson, _⟩
    obtain ⟨item, hitem, rfl⟩ := List.mem_map.1 hrange
    rw [hname item hitem] at hjson
    exact ⟨item, hitem, hjson⟩

/-- **What the service looks for is what the values say**, where there is at most one and it is plain. -/
theorem HttpRequest.acceptsJson_iff_takesJson {r : HttpRequest} (h : r.AcceptsPlainly) :
    r.acceptsJson = true ↔ r.TakesJson := by
  obtain ⟨hsingle, hprintable, hunquoted, hwanted⟩ := h
  rw [acceptsJson_iff, TakesJson]
  unfold acceptRanges at hwanted ⊢
  cases hvalues : r.acceptValues with
  | nil => simp
  | cons value others =>
      rw [hvalues] at hsingle hprintable hunquoted hwanted
      obtain rfl : others = [] := by
        rw [List.length_cons] at hsingle
        exact List.length_eq_zero_iff.1 (by omega)
      rw [List.intercalate_singleton] at hwanted ⊢
      rw [← listsJson_iff_exists_range (hunquoted value List.mem_cons_self) hwanted]
      simp [hprintable value List.mem_cons_self, Text.trimChars_eq_nil_iff]

/-! ## Answers -/

/-- No other refusal has this status. -/
theorem Refusal.status_eq_406_iff (refusal : Refusal) :
    refusal.response.status = 406 ↔ refusal = .notAcceptable := by
  constructor
  · intro h
    cases refusal with
    | notAcceptable => rfl
    | body fault => cases fault <;> exact absurd h (by decide)
    | repository failure => exact absurd h (by change ¬((500 : Nat) = 406); decide)
    | malformed response => exact absurd h (by change ¬((400 : Nat) = 406); decide)
    | methodNotAllowed | notJson | unknownRepository | tooManySessions | unknownSession
    | sessionUnavailable => exact absurd h (by decide)
  · rintro rfl
    rfl

namespace Service

variable {s : Service} {t : FileTree} {uptime : Nat} {name : RepoName} {r : HttpRequest}
  {refusal : Refusal}

/-- A body is never refused for what the client takes. -/
theorem ne_notAcceptable_of_bodyOf (h : s.bodyOf r = .error refusal) : refusal ≠ .notAcceptable := by
  rw [bodyOf] at h
  cases hbody : collectBody s.settings.maxBodySize [] r.body with
  | ok octets => rw [hbody] at h; cases h
  | error fault =>
      rw [hbody] at h
      cases h
      exact nofun

/-- A context is never refused for what the client takes. -/
theorem ne_notAcceptable_of_contextOf (h : (s.contextOf t name).2 = .error refusal) :
    refusal ≠ .notAcceptable := by
  rw [contextOf] at h
  cases hdirectory : s.store.directory? t name with
  | none =>
      rw [hdirectory] at h
      cases h
      exact nofun
  | some directory =>
      rw [hdirectory] at h
      dsimp only at h
      cases hload : (s.loadContext t name).2 with
      | ok context => rw [hload] at h; cases h
      | error failure =>
          rw [hload] at h
          cases h
          exact nofun

/-- A message is refused before its body is read. -/
theorem postMessage_of_refusesJson (hjson : r.isJson = true) (h : r.RefusesJson) :
    s.postMessage t uptime name r = (s, .error .notAcceptable) := by
  rw [postMessage, hjson, HttpRequest.acceptsJson_eq_false_iff.2 h]
  rfl

/-- A message of a client that takes JSON may be refused, but for other reasons. -/
theorem status_postMessage_ne (hjson : r.isJson = true) (haccepts : r.acceptsJson = true) :
    (responseOf (s.postMessage t uptime name r).2).status ≠ 406 := by
  rw [postMessage, hjson, haccepts]
  simp only [Bool.not_true, Bool.false_eq_true, if_false]
  cases hbody : s.bodyOf r with
  | error refusal =>
      exact mt refusal.status_eq_406_iff.1 (ne_notAcceptable_of_bodyOf hbody)
  | ok octets =>
      dsimp only
      cases hcontext : (s.contextOf t name).2 with
      | error refusal =>
          exact mt refusal.status_eq_406_iff.1 (ne_notAcceptable_of_contextOf hcontext)
      | ok context =>
          dsimp only [responseOf]
          split
          · exact (by decide : (200 : Nat) ≠ 406)
          · exact (by decide : (202 : Nat) ≠ 406)

end Service

/-- A request posts a message to a repository, to be answered in the response. -/
structure HttpRequest.PostsMessage (r : HttpRequest) : Prop where
  post : r.method = "POST"
  leads : ∃ name, r.repository? = some name
  unaddressed : r.sessionId? = none
  json : r.isJson = true

namespace Service

variable {s : Service} {t : FileTree} {uptime : Nat} {r : HttpRequest}

/-- A posted message is answered by what posting it does. -/
theorem respond_of_postsMessage (h : r.PostsMessage) : ∃ name, s.respond t uptime r =
    ((s.postMessage t uptime name r).1,
      (responseOf (s.postMessage t uptime name r).2).withHeaders sharingHeaders) := by
  obtain ⟨name, hname⟩ := h.leads
  have hhead : r.method ≠ "HEAD" := by
    rw [h.post]
    decide
  refine ⟨name, ?_⟩
  rw [respond_of_repository hname hhead]
  simp only [respondAt, h.post, h.unaddressed]

/-- A message is refused before anything is read if its client does not take JSON. -/
theorem respond_of_refusesJson (h : r.PostsMessage) (hrefuses : r.RefusesJson) :
    s.respond t uptime r = (s, Refusal.notAcceptable.response.withHeaders sharingHeaders) := by
  obtain ⟨name, hrespond⟩ := respond_of_postsMessage h
  rw [hrespond, postMessage_of_refusesJson h.json hrefuses]
  rfl

/-- The status 406 is given exactly if the client does not take JSON. -/
theorem status_eq_406_iff (h : r.PostsMessage) :
    (s.respond t uptime r).2.status = 406 ↔ r.RefusesJson := by
  cases haccepts : r.acceptsJson with
  | false =>
      have hrefuses : r.RefusesJson := HttpRequest.acceptsJson_eq_false_iff.1 haccepts
      rw [respond_of_refusesJson h hrefuses]
      exact iff_of_true rfl hrefuses
  | true =>
      have hnot : ¬r.RefusesJson := by
        rw [← HttpRequest.acceptsJson_eq_false_iff, haccepts]
        exact Bool.noConfusion
      obtain ⟨name, hrespond⟩ := respond_of_postsMessage h
      rw [hrespond]
      exact iff_of_false (status_postMessage_ne h.json haccepts) hnot

/-- When a request is refused because its client does not take the answer. -/
structure Negotiates (s : Service) (t : FileTree) (uptime : Nat) (r : HttpRequest) : Prop where
  status_iff : (s.respond t uptime r).2.status = 406 ↔ r.RefusesJson
  /-- Nothing else happens to it. -/
  refused : r.RefusesJson →
    s.respond t uptime r = (s, Refusal.notAcceptable.response.withHeaders sharingHeaders)
  /-- Where the values are plain, the client is taken at its word. -/
  status_iff_of_plainly : r.AcceptsPlainly →
    ((s.respond t uptime r).2.status = 406 ↔ ¬r.TakesJson)

/-- **A message is refused** just if its first `accept` value is not printable, or is not blank and names
no media range that JSON belongs to.  If there is no other value, nothing in it is quoted, and no such media
range is unwanted, this is what the values say. -/
theorem negotiates (s : Service) (t : FileTree) (uptime : Nat) {r : HttpRequest}
    (h : r.PostsMessage) : s.Negotiates t uptime r where
  status_iff := status_eq_406_iff h
  refused := respond_of_refusesJson h
  status_iff_of_plainly := by
    intro hplainly
    rw [status_eq_406_iff h, ← HttpRequest.acceptsJson_eq_false_iff,
      ← HttpRequest.acceptsJson_iff_takesJson hplainly, Bool.not_eq_true]

/-- A message without a body, with `accept` fields. -/
def accepting (values : List String) : HttpRequest :=
  ⟨"POST", ⟨"/o/r/mcp", ""⟩,
    ("content-type", Utf8.encode "application/json") ::
      values.map fun value => ("accept", Utf8.encode value), []⟩

/-- The example posts a message. -/
theorem postsMessage_accepting (values : List String) : (accepting values).PostsMessage where
  post := rfl
  leads := by
    have hroute : Route.ofPath? "/o/r/mcp" = some (.repository "o" "r") := by decide +kernel
    have hdecode : RepoName.decode "o" "r" = .ok ⟨"o", "r"⟩ := by decide +kernel
    refine ⟨⟨"o", "r"⟩, ?_⟩
    rw [HttpRequest.repository?, accepting, hroute]
    dsimp only
    rw [hdecode]
    rfl
  unaddressed := by
    have hheader : (accepting values).header? HttpRequest.sessionHeader = none := by
      rw [HttpRequest.header?, Option.map_eq_none_iff, List.find?_eq_none]
      intro header hmem
      rcases List.mem_cons.1 hmem with rfl | hmem
      · decide
      · obtain ⟨value, _, rfl⟩ := List.mem_map.1 hmem
        exact (by decide : ¬decide (Text.asciiLower "accept" = HttpRequest.sessionHeader) = true)
    have hfield : Target.field? ⟨"/o/r/mcp", ""⟩ HttpRequest.sessionField = none := by decide +kernel
    rw [HttpRequest.sessionId?, hheader, accepting, hfield]
    rfl
  json := by
    have hheader : (accepting values).header? "content-type" =
        some (Utf8.encode "application/json") := by
      rw [HttpRequest.header?, accepting, List.find?_cons_of_pos (by decide)]
      rfl
    rw [HttpRequest.isJson, hheader]
    decide +kernel

/-- A browser that asks for text is refused. -/
theorem negotiates_plain_text :
    (accepting ["text/html, text/plain;q=0.5"]).PostsMessage ∧
      (accepting ["text/html, text/plain;q=0.5"]).AcceptsPlainly ∧
      ((start .default "" .hexadecimal).respond (.empty []) 0
        (accepting ["text/html, text/plain;q=0.5"])).2.status = 406 := by
  have hposts := postsMessage_accepting ["text/html, text/plain;q=0.5"]
  have hplainly : (accepting ["text/html, text/plain;q=0.5"]).AcceptsPlainly := by
    refine ⟨?_, ?_, ?_, ?_⟩ <;> decide +kernel
  have hnegotiates := negotiates (start .default "" .hexadecimal) (.empty []) 0 hposts
  exact ⟨hposts, hplainly, (hnegotiates.status_iff_of_plainly hplainly).2 (by decide +kernel)⟩

/-- **Values that are misunderstood.**  What is taken for JSON may be unwanted or quoted, and what JSON
belongs to is not found in a second value or beside a character that is not ASCII. -/
theorem status_of_unusual_values :
    (∀ values ∈ [["application/json;q=0"], ["text/html;x=\"a,application/json,b\""]],
      (accepting values).PostsMessage ∧ ¬(accepting values).TakesJson ∧
        ∀ s t uptime, (Service.respond s t uptime (accepting values)).2.status ≠ 406) ∧
      ∀ values ∈ [["text/html", "application/json"], ["application/json;charset=\u00E9"]],
        (accepting values).PostsMessage ∧ (accepting values).TakesJson ∧
          ∀ s t uptime, (Service.respond s t uptime (accepting values)).2.status = 406 := by
  constructor
  · intro values hvalues
    have hjudged : (accepting values).acceptsJson = true ∧ ¬(accepting values).TakesJson := by
      revert values
      decide +kernel
    refine ⟨postsMessage_accepting values, hjudged.2, fun s t uptime => ?_⟩
    rw [ne_eq, status_eq_406_iff (postsMessage_accepting values),
      ← HttpRequest.acceptsJson_eq_false_iff, Bool.not_eq_false]
    exact hjudged.1
  · intro values hvalues
    have hjudged : (accepting values).acceptsJson = false ∧ (accepting values).TakesJson := by
      revert values
      decide +kernel
    refine ⟨postsMessage_accepting values, hjudged.2, fun s t uptime => ?_⟩
    rw [status_eq_406_iff (postsMessage_accepting values), ← HttpRequest.acceptsJson_eq_false_iff]
    exact hjudged.1

end Service

end RegistryGraph
