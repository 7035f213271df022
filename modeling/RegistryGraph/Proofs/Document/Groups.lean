import RegistryGraph.Proofs.Document.Cells
import RegistryGraph.Proofs.Document.Selection
import RegistryGraph.Proofs.Index.Partitions

/-!
# The groups of a document

The Markdown form of an index is one text.  `EntityIndex.parts` takes it apart: the head, the headings of
the types, and for every group the heading and the attributes of its entity, followed by the table of its
children if there are any.  Every part ends with a line feed, so the lines of the document are those of its
parts.

* `EntityIndex.markdown_eq`: the document is its parts, one after the other.
* `EntityIndex.lines_markdown`: so are its lines.
* `EntityIndex.holds_parts`: the groups among the parts.
* `EntityIndex.Consistent.mem_heads_iff`, `EntityIndex.Consistent.pairwise_heads`: whose groups these are, and
  their order.
* `EntityIndex.tables_of_build`: what the tables of a document are.
-/

namespace RegistryGraph

namespace Markdown

/-- An entity with a group in a document: its heading mark, and the type that its children must have. -/
structure Group where
  mark : String
  childType : Option String
  entity : Entity

/-- A part of a document. -/
inductive Part where
  /-- What belongs to no entity: the head, the heading of a type, or a remark. -/
  | prose (s : String)
  /-- The heading and the attributes of an entity, and a remark if it has no children to show. -/
  | intro (g : Group)
  /-- The table of an entity's children. -/
  | table (g : Group)

variable (index : EntityIndex)

/-- The children that a group shows. -/
def Group.children (g : Group) : List Entity := index.selectedChildren g.childType g.entity

/-- The parts of a group. -/
def Group.parts (g : Group) : List Part :=
  .intro g :: if (g.children index).isEmpty then [] else [.table g]

/-- The parts hold these groups in this order: every group in one piece, and nothing else but prose. -/
inductive Holds : List Part → List Group → Prop where
  | nil : Holds [] []
  | prose (s : String) {parts : List Part} {groups : List Group} (h : Holds parts groups) :
      Holds (.prose s :: parts) groups
  | group (g : Group) {parts : List Part} {groups : List Group} (h : Holds parts groups) :
      Holds (g.parts index ++ parts) (g :: groups)

/-- The text of a part. -/
def Part.text : Part → String
  | .prose s => s
  | .intro g =>
    s!"{g.mark} {g.entity.label} (`{g.entity.id}`)\n\n" ++ EntityIndex.attributeLines g.entity ++
      if (g.children index).isEmpty then "_No child entities._\n\n" else ""
  | .table g => EntityIndex.childTable (g.children index)

/-- The text of parts, one after the other. -/
def textOf (parts : List Part) : String := .join (parts.map (Part.text index))

variable {index}

/-- Parts behind parts hold the groups of both, in this order. -/
theorem Holds.append {parts more : List Part} {groups others : List Group}
    (h : Holds index parts groups) (hmore : Holds index more others) :
    Holds index (parts ++ more) (groups ++ others) := by
  induction h with
  | nil => exact hmore
  | prose s _ ih => exact .prose s ih
  | group g _ ih =>
      rw [List.append_assoc]
      exact .group g ih

end Markdown

namespace EntityIndex

open Markdown

variable {octets : Octets} {sourceFile revision : String} {index : EntityIndex} {title : String}
  {filter : DocumentFilter} {g : Group} {p : Part}

/-! ## A document in parts -/

/-- The parts of the groups of some entities. -/
def groupParts (index : EntityIndex) (mark : String) (entities : List Entity) : List Part :=
  entities.flatMap fun e => Group.parts index ⟨mark, none, e⟩

/-- The entities of a type that have a group in a document about this type. -/
def members (index : EntityIndex) (type : String) : List Entity := sortById (index.ofType type)

/-- The entities of a type at the top level. -/
def rootsOf (index : EntityIndex) (type : String) : List Entity :=
  sortById ((index.ofType type).filter Entity.isRoot)

/-- The parts of the Markdown form of what the filter selects. -/
def parts (index : EntityIndex) (title : String) (filter : DocumentFilter) : List Part :=
  .prose (index.documentHead title) ::
    match filter.parent.bind index.get? with
    | some parent => Group.parts index ⟨"##", filter.type, parent⟩
    | none =>
      match filter.type with
      | some type =>
        .prose s!"## {type} ({(index.members type).length})\n\n" ::
          ((if (index.members type).isEmpty then [.prose "_No entities of this type._\n\n"] else []) ++
            index.groupParts "###" (index.members type))
      | none =>
        if index.topLevelTypes.isEmpty then [.prose "_No entities._\n"]
        else
          index.topLevelTypes.flatMap fun type =>
            .prose s!"## {type}\n\n" :: index.groupParts "###" (index.rootsOf type)

/-- The text of parts begins with that of the first. -/
theorem textOf_cons (p : Part) (parts : List Part) :
    textOf index (p :: parts) = p.text index ++ textOf index parts := String.join_cons

/-- Texts of parts, one behind the other. -/
theorem textOf_append (parts more : List Part) :
    textOf index (parts ++ more) = textOf index parts ++ textOf index more := by
  rw [textOf, List.map_append, String.join_append]
  rfl

/-- The text of parts that come list by list. -/
theorem textOf_flatMap {α : Type} (xs : List α) (f : α → List Part) :
    textOf index (xs.flatMap f) = String.join (xs.map fun x => textOf index (f x)) := by
  induction xs with
  | nil => rfl
  | cons x rest ih => rw [List.flatMap_cons, textOf_append, ih, List.map_cons, String.join_cons]

/-- The text of a group is the text of its parts. -/
theorem group_eq (mark : String) (childType : Option String) (e : Entity) :
    index.group mark childType e = textOf index (Group.parts index ⟨mark, childType, e⟩) := by
  have hchildren : Group.children index ⟨mark, childType, e⟩ = index.selectedChildren childType e := rfl
  rw [Group.parts, textOf_cons, Part.text, group, hchildren]
  cases (index.selectedChildren childType e).isEmpty with
  | true => simp [textOf]
  | false => simp [textOf, Part.text, hchildren]

/-- The texts of groups are the text of all their parts. -/
theorem join_groups (mark : String) (entities : List Entity) :
    String.join (entities.map (index.group mark none)) =
      textOf index (index.groupParts mark entities) := by
  rw [groupParts, textOf_flatMap]
  exact congrArg String.join (List.map_congr_left fun e _ => group_eq mark none e)

/-- **The document is its parts**, one after the other. -/
theorem markdown_eq (index : EntityIndex) (title : String) (filter : DocumentFilter) :
    index.markdown title filter = textOf index (index.parts title filter) := by
  rw [markdown, parts, textOf_cons]
  congr 1
  cases filter.parent.bind index.get? with
  | some parent => exact group_eq ..
  | none =>
      cases filter.type with
      | some type =>
          dsimp only
          rw [typeSection, textOf_cons, textOf_append, ← join_groups, String.append_assoc]
          unfold members
          cases (sortById (index.ofType type)).isEmpty <;> rfl
      | none =>
          dsimp only
          cases htop : index.topLevelTypes.isEmpty with
          | true => rfl
          | false =>
              rw [if_neg Bool.false_ne_true, if_neg Bool.false_ne_true, textOf_flatMap]
              congr 2
              funext type
              rw [rootSection, textOf_cons, ← join_groups]
              rfl

/-! ## Lines -/

/-- A line feed ends a line. -/
theorem isEnded_lineFeed : IsEnded "\n" := ⟨[], rfl⟩

/-- A blank line ends a line. -/
theorem isEnded_blankLine : IsEnded "\n\n" := ⟨['\n'], rfl⟩

/-- The remark on a type without entities ends a line. -/
theorem isEnded_remark : IsEnded "_No entities of this type._\n\n" :=
  ⟨"_No entities of this type._\n".toList, by decide⟩

/-- The remark on a document without entities ends a line. -/
theorem isEnded_noEntities : IsEnded "_No entities._\n" := ⟨"_No entities._".toList, by decide⟩

/-- A table of children ends a line, also if there are none. -/
theorem isEnded_childTable (children : List Entity) : IsEnded (childTable children) :=
  isEnded_lineFeed.append _

/-- The attributes of an entity end a line, if there are any. -/
theorem attributeLines_cases (e : Entity) : attributeLines e = "" ∨ IsEnded (attributeLines e) := by
  unfold attributeLines
  cases hempty : e.attributes.isEmpty with
  | false => exact .inr (isEnded_lineFeed.append _)
  | true =>
      left
      rw [Std.ExtTreeMap.isEmpty_iff.1 hempty]
      rfl

/-- The introduction of a group ends a line. -/
theorem isEnded_intro (g : Group) : IsEnded (Part.text index (.intro g)) := by
  have hheading : IsEnded s!"{g.mark} {g.entity.label} (`{g.entity.id}`)\n\n" :=
    IsEnded.append ⟨"`)\n".toList, by decide⟩ _
  have hattributes : IsEnded (s!"{g.mark} {g.entity.label} (`{g.entity.id}`)\n\n" ++
      attributeLines g.entity) := by
    rcases attributeLines_cases g.entity with hnone | hended
    · rw [hnone, String.append_empty]
      exact hheading
    · exact hended.append _
  rw [Part.text]
  split
  · exact IsEnded.append ⟨"_No child entities._\n".toList, by decide⟩ _
  · rwa [String.append_empty]

/-- Every part of a group ends a line. -/
theorem isEnded_of_mem_groupParts (h : p ∈ Group.parts index g) : IsEnded (p.text index) := by
  unfold Group.parts at h
  rcases List.mem_cons.1 h with rfl | h
  · exact isEnded_intro g
  · split at h
    · cases h
    · rw [List.mem_singleton] at h
      subst h
      exact isEnded_childTable _

/-- **Every part ends with a line feed.** -/
theorem isEnded_of_mem_parts (h : p ∈ index.parts title filter) : IsEnded (p.text index) := by
  have hgroups : ∀ {mark entities}, p ∈ index.groupParts mark entities → IsEnded (p.text index) := by
    intro mark entities h
    obtain ⟨e, _, hp⟩ := List.mem_flatMap.1 h
    exact isEnded_of_mem_groupParts hp
  unfold parts at h
  rcases List.mem_cons.1 h with rfl | h
  · exact IsEnded.append (t := s!"{index.size} entities._\n\n")
      (IsEnded.append ⟨" entities._\n".toList, by decide⟩ _) _
  · split at h
    · exact isEnded_of_mem_groupParts h
    · split at h
      · next type _ =>
          rcases List.mem_cons.1 h with rfl | h
          · exact IsEnded.append ⟨")\n".toList, by decide⟩ _
          · rcases List.mem_append.1 h with h | h
            · split at h
              · rw [List.mem_singleton] at h
                subst h
                exact isEnded_remark
              · cases h
            · exact hgroups h
      · split at h
        · rw [List.mem_singleton] at h
          subst h
          exact isEnded_noEntities
        · obtain ⟨type, _, h⟩ := List.mem_flatMap.1 h
          rcases List.mem_cons.1 h with rfl | h
          · exact isEnded_blankLine.append _
          · exact hgroups h

/-- **The lines of a document** are those of its parts. -/
theorem lines_markdown (index : EntityIndex) (title : String) (filter : DocumentFilter) :
    lines (index.markdown title filter) =
      (index.parts title filter).flatMap fun p => lines (p.text index) := by
  rw [markdown_eq, textOf, lines_join, List.flatMap_map]
  intro s hs
  obtain ⟨p, hp, rfl⟩ := List.mem_map.1 hs
  exact isEnded_of_mem_parts hp

/-! ## Groups -/

/-- The type that the children in a document must have. -/
def childType (index : EntityIndex) (filter : DocumentFilter) : Option String :=
  if (filter.parent.bind index.get?).isSome then filter.type else none

/-- The entity has a group in the document: it is the one that the filter names, or is of the type that the
filter names, or stands at the top level. -/
def Heads (index : EntityIndex) (filter : DocumentFilter) (e : Entity) : Prop :=
  index.get? e.id = some e ∧
    match filter.parent.bind index.get?, filter.type with
    | some parent, _ => e = parent
    | none, some type => e.type = type
    | none, none => e.parentId = ""

/-- The entities with a group in a document, in the order of their groups. -/
def heads (index : EntityIndex) (filter : DocumentFilter) : List Entity :=
  match filter.parent.bind index.get? with
  | some parent => [parent]
  | none =>
    match filter.type with
    | some type => index.members type
    | none => index.topLevelTypes.flatMap index.rootsOf

/-- The order of the groups of a document. -/
def Precedes (e e' : Entity) : Prop := e.type < e'.type ∨ e.type = e'.type ∧ e.id < e'.id

/-- The entities with a group are those that head one by the filter. -/
theorem Consistent.mem_heads_iff (h : index.Consistent) {e : Entity} :
    e ∈ index.heads filter ↔ index.Heads filter e := by
  unfold heads Heads
  cases hparent : filter.parent.bind index.get? with
  | some parent =>
      obtain ⟨id, _, hfound⟩ := Option.bind_eq_some_iff.1 hparent
      have hid : parent.id = id := h.id_eq id parent hfound
      rw [List.mem_singleton]
      refine ⟨?_, And.right⟩
      rintro rfl
      exact ⟨hid ▸ hfound, rfl⟩
  | none =>
      cases filter.type with
      | some type => exact ((sortById_perm _).mem_iff).trans h.mem_ofType_iff
      | none =>
          simp only [topLevelTypes, rootsOf, List.mem_flatMap, (sortById_perm _).mem_iff,
            List.mem_filter, List.any_eq_true, h.mem_ofType_iff, Entity.isRoot,
            String.isEmpty_iff]
          constructor
          · rintro ⟨type, _, ⟨hfound, _⟩, hroot⟩
            exact ⟨hfound, hroot⟩
          · rintro ⟨hfound, hroot⟩
            exact ⟨e.type, ⟨h.type_mem_types hfound, e, ⟨hfound, rfl⟩, hroot⟩, ⟨hfound, rfl⟩, hroot⟩

/-- Entities of one type are sorted by their ids. -/
theorem Consistent.pairwise_sortById (h : index.Consistent) {type : String} {entities : List Entity}
    (hsub : entities.Sublist (index.ofType type)) : (sortById entities).Pairwise Precedes := by
  have hmem : ∀ e ∈ entities, index.get? e.id = some e ∧ e.type = type := fun e he =>
    h.mem_ofType_iff.1 (hsub.subset he)
  have hids : (entities.map (·.id)).Nodup :=
    nodup_ids ((h.nodup_ofType type).sublist hsub) fun e he => (hmem e he).1
  refine (sortById_sorted hids).imp_of_mem fun ha hb hlt => .inr ⟨?_, hlt⟩
  rw [(sortById_perm _).mem_iff] at ha hb
  exact (hmem _ ha).2.trans (hmem _ hb).2.symm

/-- The groups come by type and then by id, each once. -/
theorem Consistent.pairwise_heads (h : index.Consistent) : (index.heads filter).Pairwise Precedes := by
  unfold heads
  split
  · exact List.pairwise_singleton _ _
  · split
    · exact h.pairwise_sortById (List.Sublist.refl _)
    · rw [List.pairwise_flatMap]
      refine ⟨fun type _ => h.pairwise_sortById List.filter_sublist, ?_⟩
      have htypes : index.types.Pairwise (· < ·) := Keyed.pairwise_keys index.byType
      refine (htypes.sublist List.filter_sublist).imp fun {type type'} hlt e he e' he' => .inl ?_
      simp only [rootsOf, (sortById_perm _).mem_iff, List.mem_filter, h.mem_ofType_iff] at he he'
      rw [he.1.2, he'.1.2]
      exact hlt

/-! ## Documents -/

/-- The parts of the groups of some entities hold these groups. -/
theorem holds_groupParts (index : EntityIndex) (mark : String) (entities : List Entity) :
    Holds index (index.groupParts mark entities) (entities.map (⟨mark, none, ·⟩)) := by
  induction entities with
  | nil => exact .nil
  | cons e rest ih => exact .group ⟨mark, none, e⟩ ih

/-- The groups of a document. -/
def groups (index : EntityIndex) (filter : DocumentFilter) : List Group :=
  (index.heads filter).map fun e =>
    ⟨if (filter.parent.bind index.get?).isSome then "##" else "###", index.childType filter, e⟩

/-- **A document holds its groups**, in the order of their entities. -/
theorem holds_parts (index : EntityIndex) (title : String) (filter : DocumentFilter) :
    Holds index (index.parts title filter) (index.groups filter) := by
  unfold parts groups heads childType
  refine .prose _ ?_
  cases filter.parent.bind index.get? with
  | some parent =>
      have hgroup : Holds index (Group.parts index ⟨"##", filter.type, parent⟩ ++ [])
          [⟨"##", filter.type, parent⟩] := .group _ .nil
      rwa [List.append_nil] at hgroup
  | none =>
      cases filter.type with
      | some type =>
          refine .prose _ ?_
          have hremark : Holds index
              (if (index.members type).isEmpty then [.prose "_No entities of this type._\n\n"] else [])
              [] := by
            split
            · exact .prose _ .nil
            · exact .nil
          exact hremark.append (holds_groupParts index "###" (index.members type))
      | none =>
          dsimp only
          split
          next hempty =>
            rw [List.isEmpty_iff.1 hempty]
            exact .prose _ .nil
          next =>
            rw [List.map_flatMap]
            induction index.topLevelTypes with
            | nil => exact .nil
            | cons type rest ih =>
                rw [List.flatMap_cons, List.flatMap_cons]
                exact .prose _ ((holds_groupParts index "###" (index.rootsOf type)).append ih)

/-- The children that a group shows, and the table that shows them. -/
structure Tabulates (index : EntityIndex) (filter : DocumentFilter) (g : Group) : Prop where
  mem : ∀ c, c ∈ g.children index ↔
    index.get? c.id = some c ∧ c.parentId = g.entity.id ∧
      ∀ type, index.childType filter = some type → c.type = type
  sorted : (g.children index).Pairwise fun a b => a.id < b.id
  table : IsTable (tableColumns (g.children index)) (g.children index)
    (lines (Part.text index (.table g)))

/-- The Markdown form of what a filter selects: its text and its lines part by part, the entities with a
group and their order, and the table in each group. -/
structure IsDocument (index : EntityIndex) (title : String) (filter : DocumentFilter)
    (parts : List Part) (groups : List Group) : Prop where
  text : index.markdown title filter = textOf index parts
  lines : lines (index.markdown title filter) = parts.flatMap fun p => lines (p.text index)
  holds : Holds index parts groups
  heads : ∀ e, e ∈ groups.map Group.entity ↔ index.Heads filter e
  order : (groups.map Group.entity).Pairwise Precedes
  tables : ∀ g ∈ groups, index.Tabulates filter g

/-- The groups of a document are headed by its heads. -/
theorem map_entity_groups (index : EntityIndex) (filter : DocumentFilter) :
    (index.groups filter).map Group.entity = index.heads filter := by
  rw [groups, List.map_map]
  exact List.map_id _

/-- The table of a group that belongs to an entity of the index. -/
theorem Consistent.tabulates (h : index.Consistent)
    (hkeys : ∀ e ∈ index.all, ∀ key ∈ e.attributes.keys, IsPlainKey key)
    (hfound : index.get? g.entity.id = some g.entity) (htype : g.childType = index.childType filter) :
    index.Tabulates filter g := by
  have hchildren : ∀ c, c ∈ g.children index ↔
      (index.get? c.id = some c ∧ c.parentId = g.entity.id) ∧
        ∀ type, index.childType filter = some type → c.type = type := by
    intro c
    rw [Group.children, selectedChildren, (sortById_perm _).mem_iff, List.mem_filter, htype,
      admits_iff, h.mem_childrenOf_iff (h.id_ne_of_get? hfound)]
  constructor
  case mem => exact fun c => (hchildren c).trans and_assoc
  case sorted =>
    have hlisted : ∀ c ∈ (index.childrenOf g.entity.id).filter (DocumentFilter.admits g.childType),
        index.get? c.id = some c := by
      intro c hc
      rw [← (sortById_perm _).mem_iff] at hc
      exact ((hchildren c).1 hc).1.1
    exact sortById_sorted (nodup_ids ((h.nodup_childrenOf hfound).filter _) hlisted)
  case table =>
    refine isTable_childTable fun key hkey => ?_
    obtain ⟨_, c, hc, hmem⟩ := mem_tableColumns_iff.1 hkey
    exact hkeys c ((mem_all_iff h).2 ((hchildren c).1 hc).1.1) key (Std.ExtTreeMap.mem_keys.2 hmem)

/-- **The tables of a document.**  Whatever the filter selects, its document has one group for each entity
that the filter calls for, ordered by their types and then by their ids; without a filter these are the
entities at the top level.  A group with children to show has one table.  It shows each of them once, in
ascending order of their ids, under the attributes that occur among them; and its head, its rule and its rows
are a line each, all of the same number of cells, whatever characters the values hold. -/
theorem tables_of_build (h : build octets sourceFile revision = .ok index)
    (hkeys : ∀ e ∈ index.all, ∀ key ∈ e.attributes.keys, IsPlainKey key) (title : String) :
    (∀ filter, index.IsDocument title filter (index.parts title filter) (index.groups filter)) ∧
      ∀ e, index.Heads ⟨none, none⟩ e ↔ index.get? e.id = some e ∧ e.parentId = "" := by
  have hindex := consistent_of_build h
  refine ⟨fun filter => ?_, fun e => Iff.rfl⟩
  constructor
  case text => exact markdown_eq index title filter
  case lines => exact lines_markdown index title filter
  case holds => exact holds_parts index title filter
  case heads =>
    intro e
    rw [map_entity_groups, hindex.mem_heads_iff]
  case order =>
    rw [map_entity_groups]
    exact hindex.pairwise_heads
  case tables =>
    intro g hg
    obtain ⟨e, he, rfl⟩ := List.mem_map.1 hg
    exact hindex.tabulates hkeys (hindex.mem_heads_iff.1 he).1 rfl

/-- Bars and backslashes side by side and at the end of a value, a line break in a value, and children with
different attributes. -/
theorem tables_of_awkward_values :
    ∃ index, build (Utf8.encode
        ("<r><b code='2'/><a code='1'><b code='1' name='x|y\\' note='u&#10;v'/>" ++
          "<b code='0' size='3\\|'/></a></r>")) "f" "v" = .ok index ∧
      (∀ e ∈ index.all, ∀ key ∈ e.attributes.keys, IsPlainKey key) ∧
      index.IsDocument "T" ⟨none, none⟩ (index.parts "T" ⟨none, none⟩) (index.groups ⟨none, none⟩) ∧
      (index.heads ⟨none, none⟩).map (·.id) = ["a:1", "b:2"] ∧
      (index.childrenOf "a:1").map (tableCells ["code", "note", "size"]) =
        [["b:1", "b", "x\\|y\\", "1", "u v", ""], ["b:0", "b", "", "0", "", "3\\\\|"]] := by
  have hbuilt : (build (Utf8.encode
      ("<r><b code='2'/><a code='1'><b code='1' name='x|y\\' note='u&#10;v'/>" ++
        "<b code='0' size='3\\|'/></a></r>")) "f" "v").toOption.map (fun index =>
        (decide (∀ e ∈ index.all, ∀ key ∈ e.attributes.keys, IsPlainKey key),
          (index.heads ⟨none, none⟩).map (·.id),
          (index.childrenOf "a:1").map (tableCells ["code", "note", "size"]))) =
      some (true, ["a:1", "b:2"],
        [["b:1", "b", "x\\|y\\", "1", "u v", ""], ["b:0", "b", "", "0", "", "3\\\\|"]]) := by
    decide +kernel
  obtain ⟨index, hbuild, hshown⟩ := exists_build_of_map hbuilt
  obtain ⟨hkeys, hgroups⟩ := Prod.mk.inj hshown
  have hkeys := of_decide_eq_true hkeys
  obtain ⟨hheads, hrows⟩ := Prod.mk.inj hgroups
  exact ⟨index, hbuild, hkeys, (tables_of_build hbuild hkeys "T").1 ⟨none, none⟩, hheads, hrows⟩

end EntityIndex

end RegistryGraph
