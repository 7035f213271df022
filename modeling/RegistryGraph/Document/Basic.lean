import RegistryGraph.Index.Basic
import RegistryGraph.Text.Blank
import RegistryGraph.Document.Csv

/-!
# Documents over an index

A document shows an index, or the part of it that a filter selects.  The Markdown form has one group
per top-level entity with a table of the entity's direct children; the CSV form is a flat listing with
a fixed set of columns.  Rows stand in ascending order of their ids.
-/

namespace RegistryGraph

/-- The forms of a document. -/
inductive DocumentFormat where
  | markdown
  | csv
deriving DecidableEq, Repr

/-- The format with the given name, whatever the case of its ASCII letters. -/
def DocumentFormat.ofName? (name : String) : Option DocumentFormat :=
  let name := Text.asciiLower name
  if name = "markdown" || name = "md" then some .markdown
  else if name = "csv" then some .csv
  else none

/-- Why there is no document. -/
inductive DocumentFault where
  | unknownParent (id : String)
  | table (fault : Csv.Fault)
deriving DecidableEq, Repr

/-- The wording of a document fault. -/
def DocumentFault.message : DocumentFault → String
  | .unknownParent id => s!"entity not found: {id}"
  | .table fault => fault.message

/-- Which entities a document covers. -/
structure DocumentFilter where
  type : Option String
  parent : Option String
deriving DecidableEq, Repr

namespace DocumentFilter

/-- Whether the filter's type admits the entity. -/
def admits (type : Option String) (e : Entity) : Bool :=
  match type with
  | none => true
  | some t => e.type = t

end DocumentFilter

/-- Entities in ascending order of their ids. -/
def sortById (entities : List Entity) : List Entity :=
  entities.mergeSort fun a b => (compare a.id b.id).isLE

namespace EntityIndex

/-! ## Markdown -/

/-- A text inside a table cell: bars are escaped, line ends become blanks. -/
def escapeCell (s : String) : String :=
  .ofList (s.toList.flatMap fun c =>
    if c = '|' then ['\\', '|'] else if c = '\r' || c = '\n' then [' '] else [c])

/-- The attribute keys of the children, less the name, in ascending order. -/
def tableColumns (children : List Entity) : List String :=
  (children.foldl
    (fun (keys : Keyed Unit) e => e.attributes.keys.foldl (fun keys k => keys.insert k ()) keys)
    ∅).keys.filter (· ≠ Entity.nameKey)

/-- A table line with the given cells. -/
def tableLine (cells : List String) : String :=
  "|" ++ String.join (cells.map fun cell => s!" {cell} |") ++ "\n"

/-- The line below the head of a table of `width` columns. -/
def tableRule (width : Nat) : String :=
  "|" ++ String.join (List.replicate width "---|") ++ "\n"

/-- The cells of a child's row. -/
def tableCells (columns : List String) (child : Entity) : List String :=
  escapeCell child.id :: escapeCell child.type :: escapeCell child.name ::
    columns.map fun key => escapeCell (child.attributeD key)

/-- The table of an entity's children. -/
def childTable (children : List Entity) : String :=
  let columns := tableColumns children
  tableLine ("ID" :: "Type" :: "Name" :: columns) ++ tableRule (columns.length + 3) ++
    String.join (children.map fun child => tableLine (tableCells columns child)) ++ "\n"

/-- The direct children of an entity that the type admits, in ascending order of their ids. -/
def selectedChildren (index : EntityIndex) (childType : Option String) (e : Entity) :
    List Entity :=
  sortById ((index.childrenOf e.id).filter (DocumentFilter.admits childType))

/-- The lines of an entity's attributes, the name left out. -/
def attributeLines (e : Entity) : String :=
  String.join
    ((e.attributes.toList.filter (·.1 ≠ Entity.nameKey)).map fun a =>
      s!"- **{a.1}**: {escapeCell a.2}\n") ++
    if e.attributes.isEmpty then "" else "\n"

/-- One entity: its heading, its attributes and the table of its children. -/
def group (index : EntityIndex) (heading : String) (childType : Option String) (e : Entity) :
    String :=
  let children := index.selectedChildren childType e
  s!"{heading} {e.label} (`{e.id}`)\n\n" ++ attributeLines e ++
    if children.isEmpty then "_No child entities._\n\n" else childTable children

/-- The title and the origin of a document. -/
def documentHead (index : EntityIndex) (title : String) : String :=
  s!"# {title}\n\n_Source: `{index.sourceFile}` at revision `{index.revision}`, " ++
    s!"{index.size} entities._\n\n"

/-- The groups of the entities of one type. -/
def typeSection (index : EntityIndex) (type : String) : String :=
  let members := sortById (index.ofType type)
  s!"## {type} ({members.length})\n\n" ++
    (if members.isEmpty then "_No entities of this type._\n\n" else "") ++
    String.join (members.map (index.group "###" none))

/-- The groups of the top-level entities of one type. -/
def rootSection (index : EntityIndex) (type : String) : String :=
  let roots := sortById ((index.ofType type).filter Entity.isRoot)
  s!"## {type}\n\n" ++ String.join (roots.map (index.group "###" none))

/-- The Markdown form of what the filter selects. -/
def markdown (index : EntityIndex) (title : String) (filter : DocumentFilter) : String :=
  index.documentHead title ++
    match filter.parent.bind index.get? with
    | some parent => index.group "##" filter.type parent
    | none =>
      match filter.type with
      | some type => index.typeSection type
      | none =>
        let top := index.topLevelTypes
        if top.isEmpty then "_No entities._\n" else String.join (top.map index.rootSection)

/-! ## CSV -/

/-- The head of the CSV form. -/
def csvColumns : List String :=
  ["type", "id", "name", "parent_id", "code", "nmr", "docPrefix"]

/-- The entities that the filter selects, in ascending order of their ids. -/
def csvRows (index : EntityIndex) (filter : DocumentFilter) : List Entity :=
  let scope :=
    match filter.parent with
    | some parent => index.subtree parent
    | none => index.all
  sortById (scope.filter (DocumentFilter.admits filter.type))

/-- The fields of an entity's record. -/
def csvFields (e : Entity) : List String :=
  [e.type, e.id, e.name, e.parentId, e.code, e.attributeD "nmr", e.attributeD "docPrefix"]

/-- The CSV form of what the filter selects. -/
def csv (index : EntityIndex) (filter : DocumentFilter) : Except Csv.Fault String :=
  Csv.write (csvColumns :: (index.csvRows filter).map csvFields)

/-! ## Documents -/

/-- The id in a filter that the index does not have. -/
def unknownParent? (index : EntityIndex) (parent : Option String) : Option String :=
  parent.filter fun id => (index.get? id).isNone

/-- The document in the given format. -/
def document (index : EntityIndex) (title : String) (filter : DocumentFilter)
    (format : DocumentFormat) : Except DocumentFault String :=
  match index.unknownParent? filter.parent with
  | some id => .error (.unknownParent id)
  | none =>
    match format with
    | .markdown => .ok (index.markdown title filter)
    | .csv => (index.csv filter).mapError .table

end EntityIndex

end RegistryGraph
