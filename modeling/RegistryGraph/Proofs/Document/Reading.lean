import RegistryGraph.Proofs.Document.Selection
import RegistryGraph.Proofs.Document.Table

/-!
# Tables are read back

`Csv.Reader` reads a table character by character: commas part fields, line breaks end records, and between
quotes everything is text but a quote that is not doubled.  It accepts a carriage return, a line feed, and
both in this order as line breaks, and refuses quotes inside a field that does not begin with one.  What is
written is read back, whatever characters the fields hold.

* `Csv.feed_field`: a field as it is written is read as its text.
* `Csv.feed_record`: so is a record, and the next one begins behind it.
* `Csv.read_text`: a table is read back.
* `EntityIndex.table_of_build`: what is read from a table over the index of a document.
-/

namespace RegistryGraph

namespace Csv

/-- Where a reader is in a field. -/
inductive Place where
  /-- At its beginning. -/
  | fresh
  /-- At the beginning of the first field, behind a carriage return. -/
  | returned
  /-- In a field without quotes. -/
  | bare
  /-- Between quotes. -/
  | quoted
  /-- Behind a quote that closes the field, unless another one follows. -/
  | closed
deriving DecidableEq, Repr

/-- What has been read of a table. -/
structure Reader where
  /-- The records that are complete, latest first. -/
  records : List (List String)
  /-- The fields of the record under way that are complete, latest first. -/
  fields : List String
  /-- The text of the field under way, latest first. -/
  text : List Char
  place : Place

namespace Reader

/-- The reader before the first character. -/
def start : Reader := ⟨[], [], [], .fresh⟩

/-- Ends a field. -/
def endField (r : Reader) : Reader :=
  ⟨r.records, .ofList r.text.reverse :: r.fields, [], .fresh⟩

/-- Ends a record; `place` is where the reader is behind it. -/
def endRecord (r : Reader) (place : Place) : Reader :=
  ⟨r.endField.fields.reverse :: r.records, [], [], place⟩

/-- Takes a character that ends a field, if it does. -/
def takeEnd? (r : Reader) (c : Char) : Option Reader :=
  if c = ',' then some r.endField
  else if c = '\n' then some (r.endRecord .fresh)
  else if c = '\r' then some (r.endRecord .returned)
  else none

/-- Takes the first character of a field. -/
def takeFirst (r : Reader) (c : Char) : Reader :=
  if c = '"' then { r with place := .quoted }
  else (r.takeEnd? c).getD { r with text := c :: r.text, place := .bare }

/-- Takes a character.  A reader refuses a quote in a field without quotes, and anything but a quote or the
end of the field behind a closing one. -/
def step (r : Reader) (c : Char) : Option Reader :=
  match r.place with
  | .fresh => some (r.takeFirst c)
  | .returned => if c = '\n' then some { r with place := .fresh } else some (r.takeFirst c)
  | .bare => if c = '"' then none else some ((r.takeEnd? c).getD { r with text := c :: r.text })
  | .quoted => some (if c = '"' then { r with place := .closed } else { r with text := c :: r.text })
  | .closed => if c = '"' then some { r with text := c :: r.text, place := .quoted } else r.takeEnd? c

/-- Takes characters, one after the other. -/
def feed (r : Reader) : List Char → Option Reader
  | [] => some r
  | c :: rest => (r.step c).bind (·.feed rest)

/-- The records at the end of a text. The last one need not end with a line break, but its quotes must be
closed. -/
def finish (r : Reader) : Option (List (List String)) :=
  match r.place with
  | .quoted => none
  | .fresh | .returned =>
    if r.fields.isEmpty then some r.records.reverse else some (r.endRecord .fresh).records.reverse
  | .bare | .closed => some (r.endRecord .fresh).records.reverse

/-- Characters are taken one list behind the other. -/
theorem feed_append (r : Reader) (cs more : List Char) :
    r.feed (cs ++ more) = (r.feed cs).bind (·.feed more) := by
  induction cs generalizing r with
  | nil => rfl
  | cons c rest ih =>
      rw [List.cons_append, feed, feed]
      cases r.step c with
      | none => rfl
      | some r' => exact ih r'

end Reader

/-- The records of a table. -/
def read (s : String) : Option (List (List String)) := (Reader.start.feed s.toList).bind (·.finish)

/-! ## Fields -/

section Fields

variable {records : List (List String)} {done : List String} {text cs : List Char} {place : Place}

/-- Where a reader is when it has read a field as it is written, and may see its end. -/
def Place.MayEnd (place : Place) : Prop := place = .fresh ∨ place = .bare ∨ place = .closed

/-- Characters that are not special are text. -/
theorem feed_plain (records : List (List String)) (done : List String) (text : List Char)
    (h : ∀ c ∈ cs, isSpecial c = false) (hplace : place = .fresh ∨ place = .bare) :
    ∃ place', (place' = .fresh ∨ place' = .bare) ∧
      Reader.feed ⟨records, done, text, place⟩ cs =
        some ⟨records, done, cs.reverse ++ text, place'⟩ := by
  induction cs generalizing text place with
  | nil => exact ⟨place, hplace, rfl⟩
  | cons c cs ih =>
      rw [List.forall_mem_cons] at h
      obtain ⟨hc, hrest⟩ := h
      simp only [isSpecial, Bool.or_eq_false_iff, decide_eq_false_iff_not] at hc
      obtain ⟨⟨⟨hcomma, hquote⟩, hreturn⟩, hfeed⟩ := hc
      have hstep : Reader.step ⟨records, done, text, place⟩ c =
          some ⟨records, done, c :: text, .bare⟩ := by
        rcases hplace with rfl | rfl <;>
          simp [Reader.step, Reader.takeFirst, Reader.takeEnd?, hcomma, hquote, hreturn, hfeed]
      obtain ⟨place', hplace', hread⟩ := ih (c :: text) hrest (.inr rfl)
      refine ⟨place', hplace', ?_⟩
      rw [Reader.feed, hstep, Option.bind_some, hread, List.reverse_cons, List.append_assoc]
      rfl

/-- Between quotes everything is text, with its quotes doubled. -/
theorem feed_quoted (cs : List Char) :
    Reader.feed ⟨records, done, text, .quoted⟩ (cs.flatMap quotedChar) =
      some ⟨records, done, cs.reverse ++ text, .quoted⟩ := by
  induction cs generalizing text with
  | nil => rfl
  | cons c cs ih =>
      have hchar : Reader.feed ⟨records, done, text, .quoted⟩ (quotedChar c) =
          some ⟨records, done, c :: text, .quoted⟩ := by
        by_cases hc : c = '"' <;> simp [quotedChar, Reader.feed, Reader.step, hc]
      rw [List.flatMap_cons, Reader.feed_append, hchar, Option.bind_some, ih, List.reverse_cons,
        List.append_assoc]
      rfl

/-- **A field as it is written** is read as its text. -/
theorem feed_field (records : List (List String)) (done : List String) (s : String) :
    ∃ place : Place, place.MayEnd ∧
      Reader.feed ⟨records, done, [], .fresh⟩ (field s) =
        some ⟨records, done, s.toList.reverse, place⟩ := by
  unfold field
  dsimp only
  split
  next hspecial =>
    refine ⟨.closed, .inr (.inr rfl), ?_⟩
    have hopen : Reader.step ⟨records, done, [], .fresh⟩ '"' = some ⟨records, done, [], .quoted⟩ := rfl
    rw [Reader.feed, hopen, Option.bind_some, Reader.feed_append, feed_quoted, Option.bind_some,
      List.append_nil]
    rfl
  next hplain =>
    rw [Bool.not_eq_true, List.any_eq_false] at hplain
    obtain ⟨place, hplace, hread⟩ := feed_plain records done []
      (fun c hc => by simpa using hplain c hc) (.inl rfl)
    rw [List.append_nil] at hread
    exact ⟨place, hplace.imp_right .inl, hread⟩

/-- A comma ends a field that may end. -/
theorem step_comma (hplace : place.MayEnd) :
    Reader.step ⟨records, done, text, place⟩ ',' =
      some ⟨records, .ofList text.reverse :: done, [], .fresh⟩ := by
  rcases hplace with rfl | rfl | rfl <;> rfl

/-- A line feed ends a field that may end, and its record. -/
theorem step_lineFeed (hplace : place.MayEnd) :
    Reader.step ⟨records, done, text, place⟩ '\n' =
      some ⟨(.ofList text.reverse :: done).reverse :: records, [], [], .fresh⟩ := by
  rcases hplace with rfl | rfl | rfl <;> rfl

/-! ## Records -/

/-- The fields of a record are read one after the other, up to the line feed that ends it. -/
theorem feed_fields {r : List String} (h : r ≠ []) :
    Reader.feed ⟨records, done, [], .fresh⟩ (Csv.fields r ++ ['\n']) =
      some ⟨(done.reverse ++ r) :: records, [], [], .fresh⟩ := by
  induction r generalizing done with
  | nil => exact absurd rfl h
  | cons s rest ih =>
      obtain ⟨place, hplace, hread⟩ := feed_field records done s
      cases rest with
      | nil =>
          rw [Csv.fields, Reader.feed_append, hread, Option.bind_some, Reader.feed,
            step_lineFeed hplace, List.reverse_reverse, String.ofList_toList, List.reverse_cons]
          rfl
      | cons s' rest =>
          have hfields : Csv.fields (s :: s' :: rest) = field s ++ ',' :: Csv.fields (s' :: rest) := rfl
          rw [hfields, List.append_assoc, Reader.feed_append, hread, Option.bind_some,
            List.cons_append, Reader.feed, step_comma hplace, Option.bind_some,
            ih (List.cons_ne_nil _ _), List.reverse_reverse, String.ofList_toList, List.reverse_cons,
            List.append_assoc]
          rfl

/-- **A record as it is written** is read as its fields, and the next one begins behind it. -/
theorem feed_record {r : List String} (h : r ≠ []) :
    Reader.feed ⟨records, [], [], .fresh⟩ (record r) = some ⟨r :: records, [], [], .fresh⟩ := by
  unfold record
  split
  next hempty =>
    subst hempty
    rfl
  next => exact feed_fields h

end Fields

/-- **A table is read back.** -/
theorem read_text {records : List (List String)} (h : ∀ r ∈ records, r ≠ []) :
    read (text records) = some records := by
  suffices hfeed : ∀ before, Reader.feed ⟨before, [], [], .fresh⟩ (records.flatMap record) =
      some ⟨records.reverse ++ before, [], [], .fresh⟩ by
    rw [read, text, String.toList_ofList, Reader.start, hfeed, List.append_nil]
    simp [Reader.finish]
  intro before
  induction records generalizing before with
  | nil => rfl
  | cons r rest ih =>
      rw [List.forall_mem_cons] at h
      rw [List.flatMap_cons, Reader.feed_append, feed_record h.1, Option.bind_some, ih h.2,
        List.reverse_cons, List.append_assoc]
      rfl

/-- A comma, quotes, both line breaks and an empty field. -/
example :
    text [["a,\"b\"", "\r\n"], ["", "c"]] = "\"a,\"\"b\"\"\",\"\r\n\"\n,c\n" ∧
      read "\"a,\"\"b\"\"\",\"\r\n\"\n,c\n" = some [["a,\"b\"", "\r\n"], ["", "c"]] := by
  decide +kernel

end Csv

namespace EntityIndex

variable {octets : Octets} {sourceFile revision : String} {index : EntityIndex}

/-- **What is read from a table over the index of a document.**  For every filter the table is written, and
it is read as its head and one record for each entity that the filter selects, in ascending order of the ids,
with seven fields that are the texts of the entity, whatever characters these hold. -/
theorem table_of_build (h : build octets sourceFile revision = .ok index) (filter : DocumentFilter) :
    index.SelectedBy filter (index.csvRows filter) ∧
      ∃ text, index.csv filter = .ok text ∧
        Csv.read text = some (["type", "id", "name", "parent_id", "code", "nmr", "docPrefix"] ::
          (index.csvRows filter).map fun e => [e.type, e.id, e.name, e.parentId,
            (e.attribute? "code").getD "", (e.attribute? "nmr").getD "",
            (e.attribute? "docPrefix").getD ""]) := by
  refine ⟨(consistent_of_build h).selectedBy_csvRows filter, _, csv_eq index filter, ?_⟩
  refine Csv.read_text ?_
  intro r hr
  rcases List.mem_cons.1 hr with rfl | hr
  · exact List.cons_ne_nil _ _
  · obtain ⟨e, _, rfl⟩ := List.mem_map.1 hr
    exact List.cons_ne_nil _ _

/-- A name with a comma, quotes and a line break, below the entity that the filter names. -/
theorem table_of_awkward_name :
    ∃ index text, build (Utf8.encode
        "<r><a code='1'><b code='2' name='x, \"y\"&#10;z'/></a><b code='3'/></r>") "f" "v" = .ok index ∧
      (index.csvRows ⟨some "b", some "a:1"⟩).map (·.id) = ["b:2"] ∧
      index.SelectedBy ⟨some "b", some "a:1"⟩ (index.csvRows ⟨some "b", some "a:1"⟩) ∧
      index.csv ⟨some "b", some "a:1"⟩ = .ok text ∧
      Csv.read text = some [["type", "id", "name", "parent_id", "code", "nmr", "docPrefix"],
        ["b", "b:2", "x, \"y\"\nz", "a:1", "2", "", ""]] := by
  have hbuilt : (build (Utf8.encode
      "<r><a code='1'><b code='2' name='x, \"y\"&#10;z'/></a><b code='3'/></r>") "f" "v").toOption.map
      (fun index => ((index.csvRows ⟨some "b", some "a:1"⟩).map (·.id),
        (index.csvRows ⟨some "b", some "a:1"⟩).map csvFields)) =
      some (["b:2"], [["b", "b:2", "x, \"y\"\nz", "a:1", "2", "", ""]]) := by
    decide +kernel
  obtain ⟨index, hbuild, hshown⟩ := exists_build_of_map hbuilt
  obtain ⟨hids, hrows⟩ := Prod.mk.inj hshown
  obtain ⟨hselected, text, hcsv, hread⟩ := table_of_build hbuild ⟨some "b", some "a:1"⟩
  refine ⟨index, text, hbuild, hids, hselected, hcsv, ?_⟩
  rw [hread]
  exact congrArg (fun rows => some (csvColumns :: rows)) hrows

end EntityIndex

end RegistryGraph
