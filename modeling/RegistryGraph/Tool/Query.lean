import RegistryGraph.Index.Search
import RegistryGraph.Tool.Arguments
import RegistryGraph.Tool.Result

/-!
# Queries over the entities

The tools that look entities up.  Each first finds its reply, a value that says what was found, and
then puts it into JSON.
-/

namespace RegistryGraph

/-- The summary as a JSON value. -/
def EntitySummary.toJson (s : EntitySummary) : Json :=
  .record
    ([("id", .string s.id), ("type", .string s.type), ("name", .string s.name)] ++
      if s.parentId.isEmpty then [] else [("parent_id", .string s.parentId)])

/-- The summaries of entities. -/
def summariesJson (entities : List Entity) : Json :=
  .array (entities.map fun e => e.summary.toJson)

/-- The stats as a JSON value. -/
def IndexStats.toJson (s : IndexStats) : Json :=
  .record
    [("total_entities", .count s.total),
      ("type_counts", .ofKeyed (s.byType.map fun _ n => .count n))]

/-! ## Searching -/

namespace SearchReply

/-- The number of results for a call that gives no limit. -/
def defaultLimit : Nat := 25

/-- The greatest number of results. -/
def greatestLimit : Nat := 100

end SearchReply

/-- What a search has found. -/
structure SearchReply where
  query : String
  limit : Nat
  results : List Entity

/-- Searches as the arguments say. -/
def EntityIndex.searchReply (index : EntityIndex) (args : Json) :
    Except ArgumentFault SearchReply := do
  let query ← Arguments.required args "query"
  let limit ←
    Arguments.count args "limit" 1 SearchReply.greatestLimit SearchReply.defaultLimit
  return ⟨query, limit, index.search query limit⟩

/-- The reply as a JSON value. -/
def SearchReply.toJson (r : SearchReply) : Json :=
  .record
    [("query", .string r.query), ("limit", .count r.limit), ("count", .count r.results.length),
      ("results", summariesJson r.results)]

/-! ## One entity -/

/-- An entity with its neighbours, or the entities that the caller may have meant. -/
inductive EntityReply where
  | found (entity : Entity) (parentName : Option String) (children : List Entity)
  | unknown (id : String) (suggestions : List Entity)

namespace EntityReply

/-- The greatest number of suggestions. -/
def suggestionLimit : Nat := 3

/-- What stands behind the first colon. -/
def codePart? (id : String) : Option String :=
  match id.toList.dropWhile (· ≠ ':') with
  | [] => none
  | _ :: code => some (.ofList code)

/-- The entities that a caller may have meant by an unknown id. -/
def suggestions (index : EntityIndex) (id : String) : List Entity :=
  let found := index.search id suggestionLimit
  if found.isEmpty then
    match codePart? id with
    | some code => if code.isEmpty then [] else index.search code suggestionLimit
    | none => []
  else found

/-- The wording of a miss. -/
def missMessage (id : String) (suggestions : List Entity) : String :=
  s!"Entity not found: {id}" ++
    if suggestions.isEmpty then ""
    else "\nDid you mean:" ++ String.join (suggestions.map fun e => s!"\n- {e.id} ({e.label})")

/-- The answer with this reply. -/
def answer : EntityReply → ToolAnswer
  | .found e parentName children =>
    .json (.record
      [("id", .string e.id), ("type", .string e.type), ("name", .string e.name),
        ("parent_id", .string e.parentId), ("parent_name", .optString parentName),
        ("attributes", .ofKeyed (e.attributes.map fun _ value => .string value)),
        ("child_count", .count children.length), ("children", summariesJson children)])
  | .unknown id suggestions => .refusal (missMessage id suggestions)

end EntityReply

/-- Looks up the entity that the arguments name. -/
def EntityIndex.entityReply (index : EntityIndex) (args : Json) :
    Except ArgumentFault EntityReply := do
  let id ← Arguments.required args "id"
  match index.get? id with
  | some e =>
    return .found e ((index.get? e.parentId).map (·.name)) (index.childrenOf e.id)
  | none => return .unknown id (EntityReply.suggestions index id)

/-! ## Listings -/

/-- A listing of entities. -/
inductive Listing where
  /-- The children of `parent` of the given type, or of all types. -/
  | children (parent : String) (type : Option String) (entities : List Entity)
  | ofType (type : String) (entities : List Entity)
  | unknownType (type : String) (validTypes : List String)
  | all (entities : List Entity)
  | unknownParent (parent : String)

namespace Listing

/-- The answer with this listing. -/
def answer : Listing → ToolAnswer
  | .children parent type entities =>
    .json (.record
      [("mode", .string "parent"), ("parent", .string parent), ("type", .optString type),
        ("count", .count entities.length), ("entities", summariesJson entities)])
  | .ofType type entities =>
    .json (.record
      [("mode", .string "type"), ("type", .string type), ("count", .count entities.length),
        ("entities", summariesJson entities)])
  | .unknownType type validTypes =>
    .json (.record
      [("mode", .string "type"), ("type", .string type), ("count", .count 0),
        ("entities", .array []), ("message", .string s!"Unknown entity type '{type}'."),
        ("valid_types", .strings validTypes)])
  | .all entities =>
    .json (.record
      [("mode", .string "all"), ("count", .count entities.length),
        ("entities", summariesJson entities)])
  | .unknownParent parent => .refusal s!"Entity not found: {parent}"

end Listing

/-- The listing for the given filters. -/
def EntityIndex.listing (index : EntityIndex) (type parent : Option String) : Listing :=
  match parent with
  | some parent =>
    if (index.get? parent).isNone then .unknownParent parent
    else
      .children parent type ((index.childrenOf parent).filter fun e => type.all (e.type = ·))
  | none =>
    match type with
    | some type =>
      if index.byType.contains type then .ofType type (index.ofType type)
      else .unknownType type index.types
    | none => .all index.all

/-- The listing that the arguments ask for. -/
def EntityIndex.listingReply (index : EntityIndex) (args : Json) :
    Except ArgumentFault Listing := do
  let type ← Arguments.optional args "type"
  let parent ← Arguments.optional args "parent"
  return index.listing type parent

/-! ## The model -/

/-- What is said about a type. -/
structure TypeDescription where
  type : String
  count : Nat
  /-- The attribute keys of its entities, in ascending order. -/
  attributes : List String
  /-- The type of the parent of the first entity that has one. -/
  parentType : Option String
  /-- The type of the first child of the first entity that has children. -/
  childType : Option String
deriving DecidableEq, Repr

/-- The attribute keys of some entities, in ascending order. -/
def attributeKeys (entities : List Entity) : List String :=
  (entities.foldl
    (fun (keys : Keyed Unit) e => e.attributes.keys.foldl (fun keys k => keys.insert k ()) keys)
    ∅).keys

/-- The description of a type. -/
def EntityIndex.describeType (index : EntityIndex) (type : String) : TypeDescription :=
  let members := index.ofType type
  { type
    count := members.length
    attributes := attributeKeys members
    parentType :=
      ((members.find? (!·.isRoot)).bind fun e => index.get? e.parentId).map (·.type)
    childType := ((members.findSome? (·.children.head?)).bind index.get?).map (·.type) }

/-- The descriptions of all types in ascending order. -/
def EntityIndex.describeTypes (index : EntityIndex) : List TypeDescription :=
  index.types.map index.describeType

/-- The description as a JSON value. -/
def TypeDescription.toJson (d : TypeDescription) : Json :=
  .record
    [("type", .string d.type), ("count", .count d.count), ("attributes", .strings d.attributes),
      ("parent_type", .optString d.parentType), ("child_type", .optString d.childType)]

/-- The model of an index as a JSON value. -/
def EntityIndex.modelJson (index : EntityIndex) : Json :=
  .record
    [("source_file", .string index.sourceFile), ("total_entities", .count index.size),
      ("types", .array (index.describeTypes.map TypeDescription.toJson)),
      ("note", .string
        ("parent_type and child_type are sampled from the first entity of each type that has " ++
          "one; they are not a full schema."))]

end RegistryGraph
