import RegistryGraph.Proofs.Document.Rows
import RegistryGraph.Proofs.Session.Framing

/-!
# Lines and cells

A Markdown table is read line by line, and a line cell by cell: a bar parts cells unless a backslash stands
directly before it.  Values are written with a backslash before each bar and with blanks for line breaks, and
between two blanks; so whatever a value holds, its row stays on one line and has no cells but its own.

* `Markdown.cells?_tableLine`: the cells of a line of a table.
* `Markdown.unbroken_tableLine`: such a line is one line.
* `EntityIndex.mem_tableColumns_iff`, `EntityIndex.pairwise_tableColumns`: the columns of a table.
* `EntityIndex.isTable_childTable`: the lines of a table, cell by cell.
-/

namespace RegistryGraph

open Listener (Unbroken linesFrom)

/-! ## Lines -/

namespace Markdown

/-- The lines of a text that ends with a line break. -/
def lines (s : String) : List (List Char) := linesFrom [] false s.toList

/-- The text ends with a line feed. -/
def IsEnded (s : String) : Prop := ∃ front, s.toList = front ++ ['\n']

/-- A text ends with a line feed if its last part does. -/
theorem IsEnded.append {t : String} (h : IsEnded t) (s : String) : IsEnded (s ++ t) := by
  obtain ⟨front, hfront⟩ := h
  exact ⟨s.toList ++ front, by rw [String.toList_append, hfront, List.append_assoc]⟩

/-- Behind a line feed the lines begin anew. -/
theorem linesFrom_append_lineFeed (line : List Char) (returned : Bool) (cs rest : List Char) :
    linesFrom line returned (cs ++ '\n' :: rest) =
      linesFrom line returned (cs ++ ['\n']) ++ linesFrom [] false rest := by
  induction cs generalizing line returned with
  | nil =>
      simp only [List.nil_append, linesFrom, if_true]
      cases returned <;> rfl
  | cons c cs ih =>
      simp only [List.cons_append, linesFrom, ih]
      split
      · cases returned <;> rfl
      · split <;> rfl

/-- A text that ends with a line feed and the text behind it share no line. -/
theorem lines_append {s : String} (h : IsEnded s) (t : String) : lines (s ++ t) = lines s ++ lines t := by
  obtain ⟨front, hfront⟩ := h
  rw [lines, lines, lines, String.toList_append, hfront, List.append_assoc]
  exact linesFrom_append_lineFeed [] false front t.toList

/-- **The lines of texts** that all end with a line feed. -/
theorem lines_join {texts : List String} (h : ∀ s ∈ texts, IsEnded s) :
    lines (String.join texts) = texts.flatMap lines := by
  induction texts with
  | nil => rfl
  | cons s rest ih =>
      obtain ⟨hs, hrest⟩ := List.forall_mem_cons.1 h
      rw [String.join_cons, lines_append hs, ih hrest, List.flatMap_cons]

/-! ## Cells -/

/-- The stretches of a line between the bars that part cells; `escaped` tells whether a backslash stands
directly before the line. -/
def stretches (escaped : Bool) : List Char → List (List Char)
  | [] => [[]]
  | c :: rest =>
    if c = '|' && !escaped then [] :: stretches false rest
    else
      match stretches (c = '\\') rest with
      | [] => [[c]]
      | first :: others => (c :: first) :: others

/-- The cells of a line that begins and ends with a bar. -/
def cells? (line : List Char) : Option (List (List Char)) :=
  match stretches false line with
  | [] :: rest => if rest.getLast? = some [] then some rest.dropLast else none
  | _ => none

/-- No bar in the characters parts cells; `escaped` tells whether a backslash stands directly before
them. -/
def IsSealed (escaped : Bool) : List Char → Prop
  | [] => True
  | c :: rest => (c = '|' → escaped = true) ∧ IsSealed (c = '\\') rest

/-- Characters without a bar part no cells. -/
theorem isSealed_of_not_mem {cs : List Char} (h : '|' ∉ cs) (escaped : Bool) : IsSealed escaped cs := by
  induction cs generalizing escaped with
  | nil => trivial
  | cons c rest ih =>
      rw [List.mem_cons, not_or] at h
      exact ⟨fun hc => absurd hc.symm h.1, ih h.2 _⟩

/-- What is sealed, and a blank behind it, is one stretch up to the next bar. -/
theorem stretches_of_isSealed {cs : List Char} {escaped : Bool} (h : IsSealed escaped cs)
    (rest : List Char) :
    stretches escaped (cs ++ ' ' :: '|' :: rest) = (cs ++ [' ']) :: stretches false rest := by
  induction cs generalizing escaped with
  | nil => simp [stretches]
  | cons c cs ih =>
      have hbar : ¬(c = '|' && !escaped) = true := by
        have := h.1
        cases escaped <;> simp_all
      rw [List.cons_append, stretches, if_neg hbar, ih h.2]
      rfl

/-- A cell as it stands between two bars. -/
def cell (s : String) : List Char := ' ' :: (s.toList ++ [' '])

/-- The stretches of a row are its cells, and nothing behind the last bar. -/
theorem stretches_row {values : List String} (h : ∀ s ∈ values, IsSealed false s.toList) :
    stretches false (values.flatMap fun s => cell s ++ ['|']) = values.map cell ++ [[]] := by
  induction values with
  | nil => rfl
  | cons s rest ih =>
      obtain ⟨hs, hrest⟩ := List.forall_mem_cons.1 h
      have hcell : cell s ++ ['|'] ++ rest.flatMap (fun s => cell s ++ ['|']) =
          (' ' :: s.toList) ++ ' ' :: '|' :: rest.flatMap fun s => cell s ++ ['|'] := by
        simp [cell]
      have hsealed : IsSealed false (' ' :: s.toList) := ⟨by decide, hs⟩
      rw [List.flatMap_cons, hcell, stretches_of_isSealed hsealed, ih hrest]
      rfl

/-- The stretches of a rule are its dashes, and nothing behind the last bar. -/
theorem stretches_rule (width : Nat) :
    stretches false ((List.replicate width "---|".toList).flatten) =
      List.replicate width "---".toList ++ [[]] := by
  induction width with
  | zero => rfl
  | succ width ih =>
      rw [List.replicate_succ, List.flatten_cons, List.replicate_succ, List.cons_append, ← ih]
      rfl

/-- A line that consists of a bar and stretches with a bar behind each has these as its cells. -/
theorem cells?_of_stretches {cs : List Char} {cells : List (List Char)}
    (h : stretches false cs = cells ++ [[]]) : cells? ('|' :: cs) = some cells := by
  have hline : stretches false ('|' :: cs) = [] :: stretches false cs := rfl
  rw [cells?, hline, h]
  simp

end Markdown

namespace EntityIndex

open Markdown

/-! ## Values -/

/-- What is written for a character of a value. -/
def cellChars (c : Char) : List Char :=
  if c = '|' then ['\\', '|'] else if c = '\r' || c = '\n' then [' '] else [c]

/-- A value is escaped character by character. -/
theorem toList_escapeCell (s : String) : (escapeCell s).toList = s.toList.flatMap cellChars := by
  rw [escapeCell, String.toList_ofList]
  rfl

/-- **No bar of a value parts cells.** -/
theorem isSealed_escapeCell (s : String) : IsSealed false (escapeCell s).toList := by
  rw [toList_escapeCell]
  suffices h : ∀ escaped, IsSealed escaped (s.toList.flatMap cellChars) from h false
  induction s.toList with
  | nil => exact fun _ => trivial
  | cons c rest ih =>
      intro escaped
      rw [List.flatMap_cons]
      unfold cellChars
      split
      · exact ⟨fun hc => absurd hc (by decide), fun _ => rfl, ih _⟩
      · next hbar =>
          split
          · exact ⟨fun hc => absurd hc (by decide), ih _⟩
          · exact ⟨fun hc => absurd hc hbar, ih _⟩

/-- **No line break is left in a value.** -/
theorem unbroken_escapeCell (s : String) : Unbroken (escapeCell s).toList := by
  rw [toList_escapeCell]
  unfold Unbroken
  simp only [List.mem_flatMap, not_exists, not_and]
  constructor <;>
  · intro c _ hc
    unfold cellChars at hc
    split at hc
    · revert hc
      decide
    · split at hc
      · revert hc
        decide
      · next hother =>
          rw [List.mem_singleton] at hc
          subst hc
          exact hother (by decide)

/-! ## Lines of a table -/

/-- The characters of a line of a table, without the line feed. -/
def rowChars (values : List String) : List Char := '|' :: values.flatMap fun s => cell s ++ ['|']

/-- A line of a table is its row and a line feed. -/
theorem toList_tableLine (values : List String) :
    (tableLine values).toList = rowChars values ++ ['\n'] := by
  have hcells : (String.join (values.map fun s => s!" {s} |")).toList =
      values.flatMap fun s => cell s ++ ['|'] := by
    rw [String.toList_join, List.flatMap_map]
    congr 1
    funext s
    have hs : s!" {s} |" = " " ++ s ++ " |" := rfl
    rw [hs]
    simp [cell]
  rw [tableLine, String.toList_append, String.toList_append, hcells]
  rfl

/-- The characters of the line below the head, without the line feed. -/
def ruleChars (width : Nat) : List Char := '|' :: (List.replicate width "---|".toList).flatten

/-- The line below the head is its rule and a line feed. -/
theorem toList_tableRule (width : Nat) : (tableRule width).toList = ruleChars width ++ ['\n'] := by
  rw [tableRule, String.toList_append, String.toList_append, String.toList_join, ruleChars]
  simp [List.flatMap]

/-- A row of sealed values reads back cell by cell. -/
theorem cells?_rowChars {values : List String} (h : ∀ s ∈ values, IsSealed false s.toList) :
    cells? (rowChars values) = some (values.map cell) :=
  cells?_of_stretches (stretches_row h)

/-- A rule reads back as dashes in every column. -/
theorem cells?_ruleChars (width : Nat) :
    cells? (ruleChars width) = some (List.replicate width "---".toList) :=
  cells?_of_stretches (stretches_rule width)

/-! ## Columns -/

/-- **The columns of a table** are the attributes of the children, less the name. -/
theorem mem_tableColumns_iff {children : List Entity} {key : String} :
    key ∈ tableColumns children ↔ key ≠ Entity.nameKey ∧ ∃ c ∈ children, key ∈ c.attributes := by
  rw [tableColumns, List.mem_filter, Std.ExtTreeMap.mem_keys, Keyed.mem_foldl_keys_iff, and_comm,
    decide_eq_true_iff]
  simp

/-- The columns stand in ascending order. -/
theorem pairwise_tableColumns (children : List Entity) :
    (tableColumns children).Pairwise (· < ·) :=
  (Keyed.pairwise_keys _).sublist List.filter_sublist

/-! ## Tables -/

/-- A key that can head a column: without a bar and without a line break. -/
def IsPlainKey (key : String) : Prop := '|' ∉ key.toList ∧ Unbroken key.toList

instance (key : String) : Decidable (IsPlainKey key) := inferInstanceAs (Decidable (_ ∧ _))

/-- A row of values without line breaks is a single line. -/
theorem unbroken_rowChars {values : List String} (h : ∀ s ∈ values, Unbroken s.toList) :
    Unbroken (rowChars values) := by
  have hrow : Unbroken (values.flatMap fun s => cell s ++ ['|']) := by
    induction values with
    | nil => exact ⟨List.not_mem_nil, List.not_mem_nil⟩
    | cons s rest ih =>
        obtain ⟨hs, hrest⟩ := List.forall_mem_cons.1 h
        have hcell : cell s ++ ['|'] = [' '] ++ s.toList ++ [' ', '|'] := by simp [cell]
        rw [List.flatMap_cons, hcell]
        exact ((Unbroken.append (by decide) hs).append (by decide)).append (ih hrest)
  have hbar : Unbroken ['|'] := by decide
  exact hbar.append hrow

/-- A rule is a single line. -/
theorem unbroken_ruleChars (width : Nat) : Unbroken (ruleChars width) := by
  unfold Unbroken ruleChars
  constructor <;>
  · simp only [List.mem_cons, List.mem_flatten, List.mem_replicate, not_or, not_exists, not_and]
    refine ⟨by decide, ?_⟩
    rintro _ ⟨_, rfl⟩
    decide

/-- The head of a table. -/
def headCells (columns : List String) : List String := "ID" :: "Type" :: "Name" :: columns

variable {columns : List String} {children : List Entity}

/-- What holds of the columns and of the three fixed names holds of the whole head. -/
theorem forall_mem_headCells {p : String → Prop} (hfixed : p "ID" ∧ p "Type" ∧ p "Name")
    (h : ∀ key ∈ columns, p key) : ∀ key ∈ headCells columns, p key := by
  unfold headCells
  simp only [List.forall_mem_cons]
  exact ⟨hfixed.1, hfixed.2.1, hfixed.2.2, h⟩

/-- Every cell of a child's row is an escaped value. -/
theorem exists_escapeCell_of_mem_tableCells {c : Entity} {s : String} (h : s ∈ tableCells columns c) :
    ∃ value, s = escapeCell value := by
  unfold tableCells at h
  simp only [List.mem_cons, List.mem_map] at h
  rcases h with rfl | rfl | rfl | ⟨key, _, rfl⟩ <;> exact ⟨_, rfl⟩

/-- **The lines of a table**, and the blank one behind it. -/
theorem lines_childTable (h : ∀ key ∈ tableColumns children, Unbroken key.toList) :
    lines (childTable children) =
      rowChars (headCells (tableColumns children)) ::
        ruleChars ((tableColumns children).length + 3) ::
          (children.map (fun c => rowChars (tableCells (tableColumns children) c)) ++ [[]]) := by
  have htext : (childTable children).toList = Text.unlines
      (rowChars (headCells (tableColumns children)) ::
        ruleChars ((tableColumns children).length + 3) ::
          (children.map (fun c => rowChars (tableCells (tableColumns children) c)) ++ [[]])) := by
    have hrows : (String.join (children.map fun c =>
        tableLine (tableCells (tableColumns children) c))).toList =
          Text.unlines (children.map fun c => rowChars (tableCells (tableColumns children) c)) := by
      rw [String.toList_join, List.flatMap_map, Text.unlines, List.flatMap_map]
      simp only [toList_tableLine]
    rw [childTable]
    simp only [String.toList_append, toList_tableLine, toList_tableRule, hrows]
    rw [Text.unlines_cons, Text.unlines_cons, Text.unlines_append, List.append_assoc,
      List.append_assoc, List.append_assoc, List.append_assoc]
    rfl
  rw [lines, htext, Listener.linesFrom_unlines]
  simp only [List.forall_mem_cons, List.forall_mem_append, List.forall_mem_map]
  refine ⟨?_, unbroken_ruleChars _, fun c _ => ?_, by decide⟩
  · exact unbroken_rowChars (forall_mem_headCells (by decide) h)
  · refine unbroken_rowChars fun s hs => ?_
    obtain ⟨value, rfl⟩ := exists_escapeCell_of_mem_tableCells hs
    exact unbroken_escapeCell value

/-- How the lines of a table over some children read, cell by cell, up to the blank line behind it. -/
structure IsTable (columns : List String) (children : List Entity) (lines : List (List Char)) :
    Prop where
  mem_columns : ∀ key, key ∈ columns ↔ key ≠ "name" ∧ ∃ c ∈ children, key ∈ c.attributes
  columns_sorted : columns.Pairwise (· < ·)
  cells : lines.map cells? =
    some (("ID" :: "Type" :: "Name" :: columns).map cell) ::
      some (List.replicate (columns.length + 3) "---".toList) ::
        (children.map (fun c => some ((c.id :: c.type :: c.name :: columns.map c.attributeD).map
          fun value => cell (escapeCell value))) ++ [none])
  width : ∀ line ∈ lines, ∀ row, cells? line = some row → row.length = columns.length + 3

/-- **A table over children**, cell by cell. -/
theorem isTable_childTable (h : ∀ key ∈ tableColumns children, IsPlainKey key) :
    IsTable (tableColumns children) children (lines (childTable children)) := by
  have hhead : cells? (rowChars (headCells (tableColumns children))) =
      some ((headCells (tableColumns children)).map cell) := by
    refine cells?_rowChars fun key hkey => ?_
    exact isSealed_of_not_mem (forall_mem_headCells (by decide) h key hkey).1 false
  have hrow : ∀ c, cells? (rowChars (tableCells (tableColumns children) c)) =
      some ((tableCells (tableColumns children) c).map cell) := by
    intro c
    refine cells?_rowChars fun s hs => ?_
    obtain ⟨value, rfl⟩ := exists_escapeCell_of_mem_tableCells hs
    exact isSealed_escapeCell value
  have hlines := lines_childTable fun key hkey => (h key hkey).2
  have hcells : ∀ c : Entity, (tableCells (tableColumns children) c).map cell =
      (c.id :: c.type :: c.name :: (tableColumns children).map c.attributeD).map
        fun value => cell (escapeCell value) := by
    intro c
    simp [tableCells]
  constructor
  case mem_columns => exact fun key => mem_tableColumns_iff
  case columns_sorted => exact pairwise_tableColumns children
  case cells =>
    rw [hlines]
    simp only [List.map_cons, List.map_append, List.map_map, hhead, cells?_ruleChars, hrow, hcells,
      Function.comp_def]
    rfl
  case width =>
    rw [hlines]
    simp only [List.forall_mem_cons, List.forall_mem_append, List.forall_mem_map, hhead,
      cells?_ruleChars, hrow, Option.some.injEq]
    refine ⟨?_, ?_, ?_, ?_⟩
    · rintro row rfl
      simp [headCells]
    · rintro row rfl
      simp
    · rintro c _ row rfl
      simp [tableCells]
    · simp [cells?, stretches]

end EntityIndex

end RegistryGraph
