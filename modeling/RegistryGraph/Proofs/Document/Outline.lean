import RegistryGraph.Proofs.Document.Groups
import RegistryGraph.Proofs.Index.Names

/-!
# The outline of a document

The lines of the Markdown form that begin with a number sign are its headings: the title, one for each type,
and one for each entity with a group.  In tables and in lists of attributes a line break within a value
becomes a blank.  In headings it stays, and ends the heading; what follows may begin with a number sign.  So
the outline is what it should be just in case nothing that a heading shows holds a line break.

* `Markdown.headings_group`: the headings within the group of an entity.
* `EntityIndex.headings_markdown`: the headings of a document whose headings are lines.
* `EntityIndex.outline_of_build`: when a document has its outline.
-/

namespace RegistryGraph

open Listener (Unbroken linesFrom)

/-! ## Headings of a text -/

namespace Markdown

/-- The line begins with a number sign. -/
def isHeading (line : List Char) : Bool := line.head? = some '#'

/-- The headings of a text that ends with a line break. -/
def headings (s : String) : List (List Char) := (lines s).filter isHeading

/-- A text has no line break exactly if neither of its halves has. -/
theorem unbroken_append_iff {cs ds : List Char} :
    Unbroken (cs ++ ds) ↔ Unbroken cs ∧ Unbroken ds := by
  unfold Unbroken
  rw [List.mem_append, List.mem_append]
  tauto

/-- No line break is left in a line. -/
theorem unbroken_of_mem_linesFrom {line cs l : List Char} {returned : Bool} (hline : Unbroken line)
    (h : l ∈ linesFrom line returned cs) : Unbroken l := by
  have hnil : Unbroken [] := by decide
  induction cs generalizing line returned with
  | nil => cases h
  | cons c rest ih =>
      have hreverse : Unbroken line.reverse := by simpa [Unbroken] using hline
      rw [linesFrom] at h
      split at h
      · split at h
        · exact ih hnil h
        · rcases List.mem_cons.1 h with rfl | h
          · exact hreverse
          · exact ih hnil h
      · next hfeed =>
          split at h
          · rcases List.mem_cons.1 h with rfl | h
            · exact hreverse
            · exact ih hnil h
          · next hreturn =>
              exact ih (by simpa [Unbroken, Ne.symm hfeed, Ne.symm hreturn] using hline) h

/-- A heading is a single line. -/
theorem unbroken_of_mem_headings {s : String} {line : List Char} (h : line ∈ headings s) :
    Unbroken line :=
  unbroken_of_mem_linesFrom (by decide) (List.mem_filter.1 h).1

/-- Behind an ended text the headings go on. -/
theorem headings_append {s : String} (h : IsEnded s) (t : String) :
    headings (s ++ t) = headings s ++ headings t := by
  rw [headings, lines_append h, List.filter_append]
  rfl

/-- The headings of ended texts, one text after the other. -/
theorem headings_join {texts : List String} (h : ∀ s ∈ texts, IsEnded s) :
    headings (String.join texts) = texts.flatMap headings := by
  rw [headings, lines_join h, List.filter_flatMap]
  rfl

/-- A paragraph ends with a line feed. -/
theorem isEnded_paragraph (s : String) : IsEnded (s ++ "\n\n") :=
  EntityIndex.isEnded_blankLine.append s

/-- A heading that is a line, with a blank line behind it. -/
theorem headings_paragraph {s : String} (hline : Unbroken s.toList) (hsign : isHeading s.toList = true) :
    headings (s ++ "\n\n") = [s.toList] := by
  have hlines : lines (s ++ "\n\n") = [s.toList, []] := by
    rw [lines, String.toList_append]
    exact Listener.linesFrom_unbroken hline [] ['\n']
  rw [headings, hlines, List.filter_cons_of_pos hsign]
  rfl

/-- The heading of an entity. -/
def entityHeading (mark : String) (e : Entity) : String := s!"{mark} {e.label} (`{e.id}`)"

/-- A heading shows the label and the id as they are. -/
theorem unbroken_entityHeading_iff {mark : String} (hmark : Unbroken mark.toList) {e : Entity} :
    Unbroken (entityHeading mark e).toList ↔ Unbroken e.label.toList ∧ Unbroken e.id.toList := by
  have htext : entityHeading mark e = mark ++ " " ++ e.label ++ " (`" ++ e.id ++ "`)" := rfl
  have hchars : (entityHeading mark e).toList =
      mark.toList ++ ([' '] ++ (e.label.toList ++ ([' ', '(', '`'] ++ (e.id.toList ++ ['`', ')'])))) := by
    rw [htext]
    simp
  have hblank : Unbroken [' '] := by decide
  have hopen : Unbroken [' ', '(', '`'] := by decide
  have hclose : Unbroken ['`', ')'] := by decide
  rw [hchars]
  simp only [unbroken_append_iff, hmark, hblank, hopen, hclose, true_and, and_true]

/-- What begins with a mark is a heading. -/
theorem isHeading_append {s : String} (h : isHeading s.toList = true) (t : String) :
    isHeading (s ++ t).toList = true := by
  unfold isHeading at *
  rw [String.toList_append]
  cases hs : s.toList with
  | nil => simp [hs] at h
  | cons c rest => simpa [hs] using h

/-- The heading of an entity begins with its mark. -/
theorem isHeading_entityHeading {mark : String} (h : isHeading mark.toList = true) (e : Entity) :
    isHeading (entityHeading mark e).toList = true :=
  isHeading_append (isHeading_append (isHeading_append (isHeading_append (isHeading_append h _) _) _) _) _

/-- A number has no line break. -/
theorem unbroken_toString (n : Nat) : Unbroken (toString n).toList := by
  have hdigit : ∀ c ∈ (toString n).toList, c.isDigit = true := by
    intro c hc
    have hdigits : (toString n).toList = Nat.toDigits 10 n := String.toList_ofList
    exact Nat.isDigit_of_mem_toDigits (by decide) (by decide) (hdigits ▸ hc)
  exact ⟨fun h => absurd (hdigit _ h) (by decide), fun h => absurd (hdigit _ h) (by decide)⟩

/-- The heading of a type. -/
def typeHeading (type : String) : String := "## " ++ type

/-- The heading of a type with the number of its entities. -/
def countedHeading (type : String) (n : Nat) : String := "## " ++ type ++ " (" ++ toString n ++ ")"

/-- The heading of a type begins with number signs. -/
theorem isHeading_typeHeading (type : String) : isHeading (typeHeading type).toList = true :=
  isHeading_append (by decide) type

/-- The heading of a type with the number of its entities begins with number signs. -/
theorem isHeading_countedHeading (type : String) (n : Nat) :
    isHeading (countedHeading type n).toList = true :=
  isHeading_append (isHeading_append (isHeading_append (isHeading_typeHeading type) _) _) _

/-- The heading of a type is a single line exactly if the type is. -/
theorem unbroken_typeHeading_iff {type : String} :
    Unbroken (typeHeading type).toList ↔ Unbroken type.toList := by
  have hmark : Unbroken "## ".toList := by decide
  rw [typeHeading, String.toList_append, unbroken_append_iff, and_iff_right hmark]

/-- The heading with the number of entities is a single line exactly if the type is. -/
theorem unbroken_countedHeading_iff {type : String} {n : Nat} :
    Unbroken (countedHeading type n).toList ↔ Unbroken type.toList := by
  have hmark : Unbroken "## ".toList := by decide
  have hopen : Unbroken " (".toList := by decide
  have hclose : Unbroken ")".toList := by decide
  simp only [countedHeading, String.toList_append, unbroken_append_iff, hmark, hopen, hclose,
    unbroken_toString, true_and, and_true]

variable {index : EntityIndex} {g : Group}

/-- The names of a group hold no line break: the attributes of its entity and of the children that it
shows. -/
def Group.HasSolidKeys (index : EntityIndex) (g : Group) : Prop :=
  (∀ key ∈ g.entity.attributes, Unbroken key.toList) ∧
    ∀ c ∈ g.children index, ∀ key ∈ c.attributes, Unbroken key.toList

/-- Lines that begin with something else are no headings. -/
theorem filter_isHeading_eq_nil {ls : List (List Char)} (h : ∀ l ∈ ls, isHeading l = false) :
    ls.filter isHeading = [] := by
  rw [List.filter_eq_nil_iff]
  exact fun l hl => ne_true_of_eq_false (h l hl)

/-- Texts without headings, and a blank line behind them. -/
theorem headings_list {texts : List String} (h : ∀ s ∈ texts, IsEnded s ∧ headings s = []) :
    headings (String.join texts ++ "\n") = [] := by
  have hjoin : String.join texts ++ "\n" = String.join (texts ++ ["\n"]) := by
    rw [String.join_append]
    rfl
  have hended : ∀ s ∈ texts ++ ["\n"], IsEnded s := by
    simp only [List.forall_mem_append, List.forall_mem_singleton]
    exact ⟨fun s hs => (h s hs).1, EntityIndex.isEnded_lineFeed⟩
  rw [hjoin, headings_join hended, List.flatMap_append,
    List.flatMap_eq_nil_iff.2 fun s hs => (h s hs).2]
  rfl

/-- An attribute is written on a line that begins with a dash. -/
theorem lines_attribute {key : String} (hkey : Unbroken key.toList) (value : String) :
    lines s!"- **{key}**: {EntityIndex.escapeCell value}\n" =
      ['-' :: ' ' :: '*' :: '*' :: (key.toList ++ ('*' :: '*' :: ':' :: ' ' ::
        (EntityIndex.escapeCell value).toList))] := by
  have htext : s!"- **{key}**: {EntityIndex.escapeCell value}\n" =
      "- **" ++ key ++ "**: " ++ EntityIndex.escapeCell value ++ "\n" := rfl
  have hchars : (s!"- **{key}**: {EntityIndex.escapeCell value}\n").toList =
      (['-', ' ', '*', '*'] ++ key.toList ++ ['*', '*', ':', ' '] ++
        (EntityIndex.escapeCell value).toList) ++ '\n' :: [] := by
    rw [htext]
    simp
  have hfront : Unbroken ['-', ' ', '*', '*'] := by decide
  have hmiddle : Unbroken ['*', '*', ':', ' '] := by decide
  have hline := ((hfront.append hkey).append hmiddle).append (EntityIndex.unbroken_escapeCell value)
  rw [lines, hchars, Listener.linesFrom_unbroken hline]
  simp [linesFrom]

/-- A list of attributes has no heading. -/
theorem headings_attributeLines {e : Entity} (h : ∀ key ∈ e.attributes, Unbroken key.toList) :
    headings (EntityIndex.attributeLines e) = [] := by
  have hlist : ∀ s ∈ (e.attributes.toList.filter (·.1 ≠ Entity.nameKey)).map
      (fun a => s!"- **{a.1}**: {EntityIndex.escapeCell a.2}\n"), IsEnded s ∧ headings s = [] := by
    intro s hs
    obtain ⟨a, ha, rfl⟩ := List.mem_map.1 hs
    have hmem := Std.ExtTreeMap.mem_toList_iff_getElem?_eq_some.1 (List.mem_filter.1 ha).1
    have hkey : Unbroken a.1.toList :=
      h a.1 (Std.ExtTreeMap.mem_iff_isSome_getElem?.2 (by rw [hmem]; rfl))
    refine ⟨EntityIndex.isEnded_lineFeed.append _, ?_⟩
    rw [headings, lines_attribute hkey]
    rfl
  unfold EntityIndex.attributeLines
  cases hempty : e.attributes.isEmpty with
  | true =>
      rw [Std.ExtTreeMap.isEmpty_iff.1 hempty]
      rfl
  | false =>
      rw [if_neg Bool.false_ne_true]
      exact headings_list hlist

/-- A table has no heading: each of its lines begins with a bar. -/
theorem headings_childTable {children : List Entity}
    (h : ∀ c ∈ children, ∀ key ∈ c.attributes, Unbroken key.toList) :
    headings (EntityIndex.childTable children) = [] := by
  have hcolumns : ∀ key ∈ EntityIndex.tableColumns children, Unbroken key.toList := by
    intro key hkey
    obtain ⟨_, c, hc, hmem⟩ := EntityIndex.mem_tableColumns_iff.1 hkey
    exact h c hc key hmem
  rw [headings, EntityIndex.lines_childTable hcolumns]
  apply filter_isHeading_eq_nil
  simp only [List.forall_mem_cons, List.forall_mem_append, List.forall_mem_map]
  exact ⟨rfl, rfl, fun _ _ => rfl, rfl, List.forall_mem_nil _⟩

/-- The headings in the group of an entity, its table included. -/
def Group.headings (index : EntityIndex) (g : Group) : List (List Char) :=
  (g.parts index).flatMap fun p => Markdown.headings (p.text index)

/-- **The headings of a group** are the lines of its heading that begin with a number sign. -/
theorem headings_group (hkeys : g.HasSolidKeys index) :
    g.headings index = headings (entityHeading g.mark g.entity ++ "\n\n") := by
  have hintro : headings (Part.text index (.intro g)) =
      headings (entityHeading g.mark g.entity ++ "\n\n") := by
    have htext : Part.text index (.intro g) = entityHeading g.mark g.entity ++ "\n\n" ++
        (EntityIndex.attributeLines g.entity ++
          if (g.children index).isEmpty then "_No child entities._\n\n" else "") := by
      have hclose : ∀ s : String, s ++ "`)\n\n" = s ++ "`)" ++ "\n\n" := fun s => by
        rw [String.append_assoc]
        rfl
      have hheading : s!"{g.mark} {g.entity.label} (`{g.entity.id}`)\n\n" =
          entityHeading g.mark g.entity ++ "\n\n" := hclose _
      rw [Part.text, hheading, String.append_assoc]
    have hremark : headings (if (g.children index).isEmpty then "_No child entities._\n\n" else "") =
        [] := by
      split <;> decide
    rw [htext, headings_append (isEnded_paragraph _)]
    rcases EntityIndex.attributeLines_cases g.entity with hnone | hended
    · rw [hnone, String.empty_append, hremark, List.append_nil]
    · rw [headings_append hended, headings_attributeLines hkeys.1, hremark, List.append_nil,
        List.append_nil]
  rw [Group.headings, Group.parts, List.flatMap_cons, hintro]
  split
  · exact List.append_nil _
  · rw [List.flatMap_singleton, Part.text, headings_childTable hkeys.2, List.append_nil]

end Markdown

/-! ## Outlines -/

namespace EntityIndex

open Markdown

variable {octets : Octets} {sourceFile revision : String} {index : EntityIndex} {title : String}
  {filter : DocumentFilter}

/-- What the head of a document says about its origin. -/
def origin (index : EntityIndex) : String :=
  s!"_Source: `{index.sourceFile}` at revision `{index.revision}`, " ++
    s!"{index.size} entities._\n\n"

/-- The headings of the sections and groups of a document. -/
def sections (index : EntityIndex) (filter : DocumentFilter) : List String :=
  match filter.parent.bind index.get? with
  | some parent => [entityHeading "##" parent]
  | none =>
    match filter.type with
    | some type =>
      countedHeading type (index.members type).length ::
        (index.members type).map (entityHeading "###")
    | none =>
      index.topLevelTypes.flatMap fun type =>
        typeHeading type :: (index.rootsOf type).map (entityHeading "###")

/-- The outline of a document: its title, and a heading for each type and each group. -/
def outline (index : EntityIndex) (title : String) (filter : DocumentFilter) : List String :=
  s!"# {title}" :: index.sections filter

/-- Nothing that a heading shows holds a line break, and the origin is no heading. -/
structure HasPlainHeadings (index : EntityIndex) (filter : DocumentFilter) : Prop where
  entities : ∀ e, index.Heads filter e → Unbroken e.label.toList ∧ Unbroken e.id.toList
  type : filter.parent.bind index.get? = none → ∀ type, filter.type = some type →
    Unbroken type.toList
  origin : headings index.origin = []

/-- The head of a document has its title as a heading, and those that stand in its origin. -/
theorem headings_documentHead (htitle : Unbroken title.toList) :
    headings (index.documentHead title) = s!"# {title}".toList :: headings index.origin := by
  have htext : index.documentHead title = s!"# {title}" ++ "\n\n" ++ index.origin := by
    have hsplit : "\n\n_Source: `" = "\n\n" ++ "_Source: `" := rfl
    simp only [documentHead, origin, toString, hsplit, String.append_assoc]
  have hline : Unbroken (s!"# {title}").toList := by
    have hmark : Unbroken "# ".toList := by decide
    exact String.toList_append ▸ hmark.append htitle
  rw [htext, headings_append (isEnded_paragraph _), headings_paragraph hline]
  · rfl
  · exact isHeading_append (s := "# ") rfl _

/-- The groups of some entities whose names hold no line break. -/
theorem headings_groupParts {mark : String} {entities : List Entity}
    (hmark : isHeading mark.toList = true)
    (hkeys : ∀ e ∈ entities, Group.HasSolidKeys index ⟨mark, none, e⟩)
    (hplain : ∀ e ∈ entities, Unbroken (entityHeading mark e).toList) :
    (index.groupParts mark entities).flatMap (fun p => headings (p.text index)) =
      (entities.map (entityHeading mark)).map String.toList := by
  induction entities with
  | nil => rfl
  | cons e rest ih =>
      obtain ⟨hkey, hkeys⟩ := List.forall_mem_cons.1 hkeys
      obtain ⟨hline, hplain⟩ := List.forall_mem_cons.1 hplain
      have hgroup := headings_group hkey
      rw [headings_paragraph hline (isHeading_entityHeading hmark e)] at hgroup
      rw [groupParts, List.flatMap_cons, List.flatMap_append]
      exact congrArg₂ (· ++ ·) hgroup (ih hkeys hplain)

/-- The groups of some entities behind a heading. -/
theorem headings_section {heading : String} {entities : List Entity}
    (hsign : isHeading heading.toList = true) (hline : Unbroken heading.toList)
    (hkeys : ∀ e ∈ entities, Group.HasSolidKeys index ⟨"###", none, e⟩)
    (hplain : ∀ e ∈ entities, Unbroken (entityHeading "###" e).toList) :
    headings (heading ++ "\n\n") ++
        (index.groupParts "###" entities).flatMap (fun p => headings (p.text index)) =
      (heading :: entities.map (entityHeading "###")).map String.toList := by
  rw [headings_paragraph hline hsign, headings_groupParts rfl hkeys hplain]
  rfl

/-- The headings of a document are those of its parts. -/
theorem headings_markdown_eq (index : EntityIndex) (title : String) (filter : DocumentFilter) :
    headings (index.markdown title filter) =
      (index.parts title filter).flatMap fun p => headings (p.text index) := by
  rw [headings, lines_markdown, List.filter_flatMap]
  rfl

/-- **The headings of a document** whose headings are lines: its outline, with what stands in its origin
behind the title. -/
theorem headings_markdown (htitle : Unbroken title.toList)
    (hkeys : ∀ g ∈ index.groups filter, g.HasSolidKeys index)
    (hplain : ∀ s ∈ index.sections filter, Unbroken s.toList) :
    headings (index.markdown title filter) =
      s!"# {title}".toList :: (headings index.origin ++ (index.sections filter).map String.toList) := by
  rw [headings_markdown_eq, parts, List.flatMap_cons, Part.text, headings_documentHead htitle,
    List.cons_append]
  congr 2
  unfold groups heads childType at hkeys
  unfold sections at hplain ⊢
  cases hparent : filter.parent.bind index.get? with
  | some parent =>
      simp only [hparent, Option.isSome_some, if_true, List.map_singleton,
        List.forall_mem_singleton] at hkeys hplain ⊢
      have hgroup := headings_group hkeys
      rw [headings_paragraph hplain (isHeading_entityHeading rfl parent)] at hgroup
      exact hgroup
  | none =>
      simp only [hparent, Option.isSome_none, Bool.false_eq_true, if_false] at hkeys hplain ⊢
      cases htype : filter.type with
      | some type =>
          simp only [htype, List.forall_mem_map, List.forall_mem_cons] at hkeys hplain ⊢
          have htext : s!"## {type} ({(index.members type).length})\n\n" =
              countedHeading type (index.members type).length ++ "\n\n" := by
            have hclose : ")\n\n" = ")" ++ "\n\n" := rfl
            simp only [countedHeading, toString, hclose, String.append_assoc]
          have hremark : (if (index.members type).isEmpty then
              [Part.prose "_No entities of this type._\n\n"] else []).flatMap
                (fun p => headings (p.text index)) = [] := by
            have hnone : headings "_No entities of this type._\n\n" = [] := by decide
            split
            · exact (List.flatMap_singleton _ _).trans hnone
            · rfl
          rw [List.flatMap_cons, List.flatMap_append, hremark, List.nil_append, Part.text, htext]
          exact headings_section (isHeading_countedHeading _ _) hplain.1 hkeys hplain.2
      | none =>
          simp only [htype, List.forall_mem_map, List.forall_mem_flatMap, List.forall_mem_cons]
            at hkeys hplain ⊢
          split
          next hempty =>
            have hnone : headings "_No entities._\n" = [] := by decide
            rw [List.isEmpty_iff.1 hempty]
            exact (List.flatMap_singleton _ _).trans hnone
          next =>
            rw [List.flatMap_assoc, List.map_flatMap]
            refine List.flatMap_congr fun type htype => ?_
            exact headings_section (isHeading_typeHeading type) (hplain type htype).1
              (hkeys type htype) (hplain type htype).2

/-- What the headings of a document show: the labels and the ids of its entities, and the type that the
filter names.  Types of an index are names, and hold no line break. -/
theorem forall_mem_sections_iff (htypes : ∀ type ∈ index.topLevelTypes, Unbroken type.toList) :
    (∀ s ∈ index.sections filter, Unbroken s.toList) ↔
      (∀ e ∈ index.heads filter, Unbroken e.label.toList ∧ Unbroken e.id.toList) ∧
        (filter.parent.bind index.get? = none → ∀ type, filter.type = some type →
          Unbroken type.toList) := by
  have htwo : Unbroken "##".toList := by decide
  have hthree : Unbroken "###".toList := by decide
  unfold sections heads
  cases filter.parent.bind index.get? with
  | some parent => simp [unbroken_entityHeading_iff htwo]
  | none =>
      cases filter.type with
      | some type =>
          simp only [List.forall_mem_cons, List.forall_mem_map, unbroken_countedHeading_iff,
            unbroken_entityHeading_iff hthree, Option.some.injEq, forall_const, forall_eq']
          exact and_comm
      | none =>
          simp only [List.forall_mem_flatMap, List.forall_mem_cons, List.forall_mem_map,
            unbroken_typeHeading_iff, unbroken_entityHeading_iff hthree]
          constructor
          · exact fun h => ⟨fun type htype => (h type htype).2, fun _ _ h => by cases h⟩
          · exact fun h type htype => ⟨htypes type htype, h.1 type htype⟩

/-- A solid text has no line break. -/
theorem unbroken_of_isSolid {s : String} (h : IsSolid s) : Unbroken s.toList :=
  ⟨fun hmem => (h _ hmem).2.2.1 rfl, fun hmem => (h _ hmem).2.2.2 rfl⟩

/-- The names in the groups of a document hold no line break. -/
theorem hasSolidKeys_of_build (h : build octets sourceFile revision = .ok index) :
    ∀ g ∈ index.groups filter, g.HasSolidKeys index := by
  have hkeys : ∀ {id : String} {e : Entity}, index.get? id = some e →
      ∀ key ∈ e.attributes, Unbroken key.toList := fun he key hkey =>
    unbroken_of_isSolid ((isSolid_of_build h he).2 key hkey)
  intro g hg
  obtain ⟨e, he, rfl⟩ := List.mem_map.1 hg
  refine ⟨hkeys ((consistent_of_build h).mem_heads_iff.1 he).1, fun c hc => ?_⟩
  rw [Group.children, selectedChildren, (sortById_perm _).mem_iff, List.mem_filter, childrenOf,
    List.mem_filterMap] at hc
  obtain ⟨⟨id, _, hfound⟩, _⟩ := hc
  exact hkeys hfound

/-- **When a document has its outline.**  The group of an entity has one heading, with the whole label and the
whole id, just in case neither holds a line break.  The headings of a document with a title of one line are
its title, those of the types and those of the entities with a group, just in case this is so for all of these
entities, for the type that the filter names, and the origin brings no heading along. -/
theorem outline_of_build (h : build octets sourceFile revision = .ok index)
    (htitle : Unbroken title.toList) (filter : DocumentFilter) :
    (∀ g ∈ index.groups filter, g.headings index = [(entityHeading g.mark g.entity).toList] ↔
      Unbroken g.entity.label.toList ∧ Unbroken g.entity.id.toList) ∧
    (headings (index.markdown title filter) = (index.outline title filter).map String.toList ↔
      index.HasPlainHeadings filter) := by
  have hindex := consistent_of_build h
  have hkeys : ∀ g ∈ index.groups filter, g.HasSolidKeys index := hasSolidKeys_of_build h
  have htypes : ∀ type ∈ index.topLevelTypes, Unbroken type.toList := by
    intro type htype
    obtain ⟨e, he, _⟩ := List.any_eq_true.1 (List.mem_filter.1 htype).2
    obtain ⟨hfound, rfl⟩ := hindex.mem_ofType_iff.1 he
    exact unbroken_of_isSolid (isSolid_of_build h hfound).1
  constructor
  · intro g hg
    have hmark : Unbroken g.mark.toList ∧ isHeading g.mark.toList = true := by
      obtain ⟨e, _, rfl⟩ := List.mem_map.1 hg
      dsimp only
      split <;> decide
    rw [headings_group (hkeys g hg), ← unbroken_entityHeading_iff hmark.1]
    constructor
    · intro hone
      exact unbroken_of_mem_headings (hone ▸ List.mem_singleton_self _)
    · exact fun hline => headings_paragraph hline (isHeading_entityHeading hmark.2 g.entity)
  · constructor
    · intro houtline
      have hlines : ∀ s ∈ index.sections filter, Unbroken s.toList := fun s hs =>
        unbroken_of_mem_headings
          (houtline ▸ List.mem_map_of_mem (List.mem_cons_of_mem _ hs))
      obtain ⟨hentities, htype⟩ := (forall_mem_sections_iff htypes).1 hlines
      refine ⟨fun e he => hentities e (hindex.mem_heads_iff.2 he), htype, ?_⟩
      rw [headings_markdown htitle hkeys hlines] at houtline
      exact List.append_left_eq_self.1 (List.cons.inj houtline).2
    · intro hplain
      have hlines : ∀ s ∈ index.sections filter, Unbroken s.toList :=
        (forall_mem_sections_iff htypes).2
          ⟨fun e he => hplain.entities e (hindex.mem_heads_iff.1 he), hplain.type⟩
      rw [headings_markdown htitle hkeys hlines, hplain.origin]
      rfl

/-- A document whose names hold number signs and bars, and whose other values hold line breaks. -/
theorem outline_of_build_plain :
    ∃ index, build (Utf8.encode
        "<r><a code='1' name='# x | y' note='u&#10;# v'><b code='2'>w\n# z</b></a></r>") "f" "v" =
          .ok index ∧
      Unbroken "T".toList ∧ index.HasPlainHeadings ⟨none, none⟩ ∧
        (index.outline "T" ⟨none, none⟩) = ["# T", "## a", "### # x | y (`a:1`)"] := by
  have hbuilt : (build (Utf8.encode
      "<r><a code='1' name='# x | y' note='u&#10;# v'><b code='2'>w\n# z</b></a></r>") "f" "v").toOption.map
        (fun index => (headings (index.markdown "T" ⟨none, none⟩), index.outline "T" ⟨none, none⟩)) =
      some (["# T", "## a", "### # x | y (`a:1`)"].map String.toList,
        ["# T", "## a", "### # x | y (`a:1`)"]) := by
    decide +kernel
  obtain ⟨index, hbuild, hshown⟩ := exists_build_of_map hbuilt
  obtain ⟨hheadings, houtline⟩ := Prod.mk.inj hshown
  have htitle : Unbroken "T".toList := by decide
  have hexact := (outline_of_build hbuild htitle ⟨none, none⟩).2
  exact ⟨index, hbuild, htitle, hexact.1 (by rw [hheadings, houtline]), houtline⟩

/-- **A heading in two lines.**  The name holds a line break: the group has two headings, none of which shows
the whole name, and the document has one that is not in its outline. -/
theorem outline_broken :
    ∃ index, build (Utf8.encode "<r><a code='1' name='x&#10;# y'/></r>") "f" "v" = .ok index ∧
      (index.groups ⟨none, none⟩).map (Group.headings index) =
        [["### x", "# y (`a:1`)"].map String.toList] ∧
      headings (index.markdown "T" ⟨none, none⟩) =
        ["# T", "## a", "### x", "# y (`a:1`)"].map String.toList ∧
      headings (index.markdown "T" ⟨none, none⟩) ≠
        (index.outline "T" ⟨none, none⟩).map String.toList := by
  have hbuilt : (build (Utf8.encode "<r><a code='1' name='x&#10;# y'/></r>") "f" "v").toOption.map
      (fun index => ((index.groups ⟨none, none⟩).map (Group.headings index),
        headings (index.markdown "T" ⟨none, none⟩), index.outline "T" ⟨none, none⟩)) =
      some ([["### x", "# y (`a:1`)"].map String.toList],
        ["# T", "## a", "### x", "# y (`a:1`)"].map String.toList,
        ["# T", "## a", "### x\n# y (`a:1`)"]) := by
    decide +kernel
  obtain ⟨index, hbuild, hshown⟩ := exists_build_of_map hbuilt
  obtain ⟨hgroups, hdocument⟩ := Prod.mk.inj hshown
  obtain ⟨hheadings, houtline⟩ := Prod.mk.inj hdocument
  refine ⟨index, hbuild, hgroups, hheadings, ?_⟩
  rw [hheadings, houtline]
  decide

end EntityIndex

end RegistryGraph
