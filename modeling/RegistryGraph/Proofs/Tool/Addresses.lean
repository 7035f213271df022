import RegistryGraph.Proofs.Document.Rows
import RegistryGraph.Proofs.Document.Table
import RegistryGraph.Proofs.Json.Members
import RegistryGraph.Proofs.Text.Trim
import RegistryGraph.Tool.Call

/-!
# Which addresses lead to an entity

A listing prints the ids of entities as they are, and a tool that is given an id looks the entity up
under what is left of the id when it is trimmed.  So the ids that begin or end with white space cannot be
given back: they lead to no entity, or to another one.

* `Arguments.required_of_trim`, `Arguments.optional_of_trim`: what is read of an address.
* `ToolContext.LeadsTo`: what the tools say when they reach an entity.
* `ToolContext.leadsTo_iff`: the addresses that lead to an entity.
* `ToolContext.leadsTo_id_iff`: when the id of an entity is one of them.
-/

namespace RegistryGraph

/-! ## Reading an address -/

namespace Arguments

variable {args : Json} {key s t : String}

/-- A required text is what is left of the given one when it is trimmed. -/
theorem required_of_trim (h : args.get? key = some (.string s)) (htrim : Text.trim s = t)
    (hne : t ≠ "") : required args key = .ok t := by
  have hfull : ¬Text.allBlank s = true := by rwa [← Text.trim_eq_empty_iff, htrim]
  rw [required, h]
  dsimp only
  rw [if_neg hfull, htrim]

/-- An optional text that is given is what is left of it when it is trimmed. -/
theorem optional_of_trim (h : args.get? key = some (.string s)) (htrim : Text.trim s = t)
    (hne : t ≠ "") : optional args key = .ok (some t) := by
  have hfull : ¬Text.allBlank s = true := by rwa [← Text.trim_eq_empty_iff, htrim]
  rw [optional, h]
  dsimp only
  rw [if_neg hfull, htrim]

/-- Nothing but the trimmed text is read. -/
theorem trim_of_required (h : args.get? key = some (.string s)) (hread : required args key = .ok t) :
    Text.trim s = t := by
  rw [required, h] at hread
  dsimp only at hread
  split at hread
  · cases hread
  · exact Except.ok.inj hread

end Arguments

/-! ## Leading to an entity -/

/-- The tools that are given the address act on the entity: they describe it, and they show its
children and descendants. -/
structure ToolContext.LeadsTo (ctx : ToolContext) (address : String) (e : Entity) : Prop where
  described : ∀ args, args.get? "id" = some (.string address) →
    ∃ children, ctx.index.ChildrenAre e children ∧
      Tool.answer ctx args .getEntity =
        .ok (EntityReply.found e ((ctx.index.get? e.parentId).map (·.name)) children).answer
  listed : ∀ args type, args.get? "parent" = some (.string address) →
    Arguments.optional args "type" = .ok type →
    ∃ children, ctx.index.ChildrenAre e children ∧
      Tool.answer ctx args .listEntities =
        .ok (Listing.children e.id type (children.filter fun c => type.all (c.type = ·))).answer
  outlined : ∀ args type name, args.get? "parent" = some (.string address) →
    Arguments.optional args "type" = .ok type → Arguments.optional args "format" = .ok name →
    Tool.formatOf name = .ok .markdown →
    ∃ children, ctx.index.ChildrenAre e children ∧
      ctx.index.selectedChildren type e =
        sortById (children.filter (DocumentFilter.admits type)) ∧
      Tool.answer ctx args .generateDocument =
        .ok (.text (ctx.index.documentHead ctx.server.name ++ ctx.index.group "##" type e))
  tabulated : ∀ args type name, args.get? "parent" = some (.string address) →
    Arguments.optional args "type" = .ok type → Arguments.optional args "format" = .ok name →
    Tool.formatOf name = .ok .csv →
    ∃ rows, ctx.index.RowsAre e type rows ∧
      Tool.answer ctx args .generateDocument =
        .ok (.text (Csv.text (EntityIndex.csvColumns :: rows.map EntityIndex.csvFields)))

namespace ToolContext

variable {ctx : ToolContext} {address : String} {e : Entity}

/-- The description of one entity is not the description of another. -/
theorem id_eq_of_found {e' : Entity} {parentName parentName' : Option String}
    {children children' : List Entity}
    (h : (EntityReply.found e parentName children).answer =
      (EntityReply.found e' parentName' children').answer) : e.id = e'.id := by
  have hid : ∀ (e : Entity) (parentName : Option String) (children : List Entity),
      (match (EntityReply.found e parentName children).answer with
        | .json v => v.get? "id"
        | _ => none) = some (.string e.id) := by
    intro e parentName children
    change Json.member? (Json.sortMembers _) "id" = _
    rw [Json.member?_sortMembers]
    rfl
  have hsame := hid e parentName children
  rw [h, hid] at hsame
  exact (Json.string.inj (Option.some.inj hsame)).symm

/-- A description of an entity shows the id that was asked for, less the white space around it. -/
theorem LeadsTo.trim_eq (hindex : ctx.index.Consistent) (h : ctx.LeadsTo address e) :
    Text.trim address = e.id := by
  obtain ⟨children, _, hanswer⟩ := h.described (.object [("id", .string address)]) rfl
  dsimp only [Tool.answer] at hanswer
  unfold EntityIndex.entityReply at hanswer
  cases hread : Arguments.required (.object [("id", .string address)]) "id" with
  | error fault =>
      rw [hread] at hanswer
      cases hanswer
  | ok id =>
      rw [hread] at hanswer
      cases hfound : ctx.index.get? id with
      | none =>
          simp only [bind, Except.bind, hfound] at hanswer
          cases hanswer
      | some e' =>
          simp only [bind, Except.bind, hfound] at hanswer
          have hid : e'.id = e.id := id_eq_of_found (Except.ok.inj hanswer)
          rw [Arguments.trim_of_required rfl hread, ← hindex.id_eq id e' hfound, hid]

/-- What trims to the id of an entity leads to the entity. -/
theorem leadsTo_of_trim_eq (hindex : ctx.index.Consistent)
    (hfound : ctx.index.get? e.id = some e) (htrim : Text.trim address = e.id) :
    ctx.LeadsTo address e := by
  have hne : e.id ≠ "" := hindex.id_ne_of_get? hfound
  have hknown : ctx.index.unknownParent? (some e.id) = none := by
    simp [EntityIndex.unknownParent?, hfound]
  have horder : ∀ {args type name format}, args.get? "parent" = some (.string address) →
      Arguments.optional args "type" = .ok type → Arguments.optional args "format" = .ok name →
      Tool.formatOf name = .ok format →
      Tool.documentOrder ctx args = .ok (⟨type, some e.id⟩, format) := by
    intro args type name format haddress htype hname hformat
    unfold Tool.documentOrder
    simp only [bind, Except.bind, Except.mapError, htype, hname, hformat, hknown,
      Arguments.optional_of_trim haddress htrim hne]
  constructor
  case described =>
    intro args haddress
    refine ⟨_, hindex.childrenAre hfound, ?_⟩
    dsimp only [Tool.answer]
    unfold EntityIndex.entityReply
    simp only [bind, Except.bind, Arguments.required_of_trim haddress htrim hne, hfound]
    rfl
  case listed =>
    intro args type haddress htype
    refine ⟨_, hindex.childrenAre hfound, ?_⟩
    dsimp only [Tool.answer]
    unfold EntityIndex.listingReply EntityIndex.listing
    simp only [bind, Except.bind, Arguments.optional_of_trim haddress htrim hne, htype, hfound]
    rfl
  case outlined =>
    intro args type name haddress htype hname hformat
    refine ⟨_, hindex.childrenAre hfound, rfl, ?_⟩
    change Tool.document ctx args = _
    unfold Tool.document
    rw [horder haddress htype hname hformat]
    dsimp only
    unfold EntityIndex.document
    rw [hknown]
    simp only [EntityIndex.markdown, Option.bind_some, hfound]
  case tabulated =>
    intro args type name haddress htype hname hformat
    refine ⟨_, hindex.rowsAre hfound type, ?_⟩
    change Tool.document ctx args = _
    unfold Tool.document
    rw [horder haddress htype hname hformat]
    dsimp only
    unfold EntityIndex.document
    rw [hknown]
    dsimp only
    rw [EntityIndex.csv_eq]
    rfl

/-- **The addresses of an entity** are the texts that trim to its id. -/
theorem leadsTo_iff (hindex : ctx.index.Consistent) (hfound : ctx.index.get? e.id = some e) :
    ctx.LeadsTo address e ↔ Text.trim address = e.id :=
  ⟨LeadsTo.trim_eq hindex, leadsTo_of_trim_eq hindex hfound⟩

/-- An address that leads nowhere is refused. -/
theorem leadsTo_or_refused (hindex : ctx.index.Consistent) (address : String) :
    (∃ e, e.id = Text.trim address ∧ ctx.LeadsTo address e) ∨
      ∀ args, args.get? "id" = some (.string address) →
        ∃ message, Tool.answer ctx args .getEntity = .ok (.refusal message) := by
  cases hfound : ctx.index.get? (Text.trim address) with
  | some e =>
      have hid : e.id = Text.trim address := hindex.id_eq _ e hfound
      rw [← hid] at hfound
      exact .inl ⟨e, hid, leadsTo_of_trim_eq hindex hfound hid.symm⟩
  | none =>
      refine .inr fun args haddress => ?_
      dsimp only [Tool.answer]
      unfold EntityIndex.entityReply
      cases hread : Arguments.required args "id" with
      | error fault => exact ⟨_, rfl⟩
      | ok id =>
          have htrim : Text.trim address = id := Arguments.trim_of_required haddress hread
          simp only [bind, Except.bind, ← htrim, hfound]
          exact ⟨_, rfl⟩

/-- **Which entities can be addressed.**  The id of an entity leads to it just in case trimming leaves
the id alone, and then only has the entity an address at all. Otherwise the id is refused, or leads to
the entity with the trimmed id. -/
theorem leadsTo_id_iff {octets : Octets} {sourceFile revision id : String}
    (hbuild : EntityIndex.build octets sourceFile revision = .ok ctx.index)
    (hfound : ctx.index.get? id = some e) :
    (ctx.LeadsTo e.id e ↔ Text.trim e.id = e.id) ∧
      ((∃ address, ctx.LeadsTo address e) ↔ Text.trim e.id = e.id) ∧
      ((∃ e', e'.id = Text.trim e.id ∧ ctx.LeadsTo e.id e') ∨
        ∀ args, args.get? "id" = some (.string e.id) →
          ∃ message, Tool.answer ctx args .getEntity = .ok (.refusal message)) := by
  have hindex : ctx.index.Consistent := by
    obtain ⟨content, _, hcontent⟩ := IndexBuilder.exists_hasContent_of_build hbuild
    rw [hcontent]
    exact EntityIndex.consistent_index content sourceFile revision
  have hid : e.id = id := hindex.id_eq id e hfound
  rw [← hid] at hfound
  refine ⟨leadsTo_iff hindex hfound, ?_, leadsTo_or_refused hindex e.id⟩
  constructor
  · rintro ⟨address, haddress⟩
    rw [← (leadsTo_iff hindex hfound).1 haddress, Text.trim_trim]
  · exact fun htrim => ⟨e.id, (leadsTo_iff hindex hfound).2 htrim⟩

/-! ## Two ids that differ in a blank -/

/-- A context over an index. -/
def ofIndex (index : EntityIndex) : ToolContext where
  snapshot := .ofParts "r" [] ⟨"1.0", ⟨"r", "", ""⟩, []⟩ ∅
  index
  serverStats := none

/-- Two elements, one of which has a blank at the end of its code. -/
def twins : Octets := Utf8.encode "<r><a code='1'/><a code='1 '/></r>"

/-- The twins have two entities, whose ids differ by a blank at the end. -/
theorem exists_build_twins :
    ∃ index e e', EntityIndex.build twins "f" "v" = .ok index ∧ index.get? "a:1" = some e ∧
      e.id = "a:1" ∧ index.get? "a:1 " = some e' ∧ e'.id = "a:1 " := by
  have hbuilt : (EntityIndex.build twins "f" "v").toOption.map (fun index =>
      ((index.get? "a:1").map (·.id), (index.get? "a:1 ").map (·.id))) =
        some (some "a:1", some "a:1 ") := by
    cbv
  cases hbuild : EntityIndex.build twins "f" "v" with
  | error fault =>
      rw [hbuild] at hbuilt
      cases hbuilt
  | ok index =>
      rw [hbuild] at hbuilt
      obtain ⟨hfirst, hsecond⟩ := Prod.ext_iff.1 (Option.some.inj hbuilt)
      obtain ⟨e, he, hid⟩ := Option.map_eq_some_iff.1 hfirst
      obtain ⟨e', he', hid'⟩ := Option.map_eq_some_iff.1 hsecond
      exact ⟨index, e, e', rfl, he, hid, he', hid'⟩

/-- The id without a blank is an address. -/
theorem leadsTo_id_plain :
    ∃ index e, EntityIndex.build twins "f" "v" = .ok index ∧ e.id = "a:1" ∧
      (ofIndex index).LeadsTo e.id e := by
  obtain ⟨index, e, _, hbuild, hfound, hid, _⟩ := exists_build_twins
  have htrim : Text.trim e.id = e.id := by
    rw [hid]
    decide
  have hindex : EntityIndex.build twins "f" "v" = .ok (ofIndex index).index := hbuild
  exact ⟨index, e, hbuild, hid, (leadsTo_id_iff hindex hfound).1.2 htrim⟩

/-- **The id with a blank leads to the other entity.** -/
theorem leadsTo_twin :
    ∃ index e e', EntityIndex.build twins "f" "v" = .ok index ∧ index.get? "a:1" = some e ∧
      index.get? "a:1 " = some e' ∧ e.id ≠ e'.id ∧ (ofIndex index).LeadsTo e'.id e ∧
      ¬(ofIndex index).LeadsTo e'.id e' := by
  obtain ⟨index, e, e', hbuild, hfound, hid, hfound', hid'⟩ := exists_build_twins
  have hindex : (ofIndex index).index.Consistent := by
    obtain ⟨content, _, rfl⟩ := IndexBuilder.exists_hasContent_of_build hbuild
    exact EntityIndex.consistent_index content "f" "v"
  have htrim : Text.trim e'.id = e.id := by
    rw [hid, hid']
    decide
  have hne : e.id ≠ e'.id := by
    rw [hid, hid']
    decide
  refine ⟨index, e, e', hbuild, hfound, hfound', hne, ?_, fun h => ?_⟩
  · exact leadsTo_of_trim_eq hindex (hid ▸ hfound) htrim
  · exact hne (htrim.symm.trans (h.trim_eq hindex))

end ToolContext

end RegistryGraph
