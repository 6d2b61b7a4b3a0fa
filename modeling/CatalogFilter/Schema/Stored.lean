import CatalogFilter.Json.Reader
import CatalogFilter.Json.Record
import CatalogFilter.Json.Writer
import CatalogFilter.Schema.Basic

/-!
# Stored schemas

The JSON form of schemas.  When a definition is written every field is present; when one is read, fields
with a usual value may be missing.
-/

namespace CatalogFilter

/-! ## §1 Fields and types -/

namespace FieldRef

def toJson (ref : FieldRef) : Json :=
  .object [("table", .string ref.table), ("field", .string ref.field)]

def ofJson? (value : Json) : Option FieldRef :=
  match value.fields? ["table", "field"] with
  | some [some table, some field] => do
    let table ← table.string?
    let field ← field.string?
    pure ⟨table, field⟩
  | _ => none

end FieldRef

namespace EnumLabels

def entryToJson (entry : Int64 × String) : Json :=
  .object [("value", .ofInt64 entry.1), ("label", .string entry.2)]

def entryOfJson? (value : Json) : Option (Int64 × String) :=
  match value.fields? ["value", "label"] with
  | some [some number, some label] => do
    let number ← number.int64?
    let label ← label.string?
    pure (number, label)
  | _ => none

def toJson (labels : EnumLabels) : Json := .ofList entryToJson labels.entries

/-- The labels of a stored form.  Of several labels for one number the last counts. -/
def ofJson? (value : Json) : Option EnumLabels :=
  (value.list? entryOfJson?).map SortedMap.ofList

end EnumLabels

namespace ValueType

def kind : ValueType → String
  | .text => "text"
  | .number => "number"
  | .enum _ => "enum"
  | .gameId => "game_id"

def toJson : ValueType → Json
  | .enum labels => .object [("kind", .string (kind (.enum labels))), ("labels", labels.toJson)]
  | type => .object [("kind", .string type.kind)]

/-- The type with a given name; only an enumeration has labels, and needs them. -/
def ofKind? (kind : String) (labels : Option Json) : Option ValueType :=
  match kind with
  | "text" => some .text
  | "number" => some .number
  | "game_id" => some .gameId
  | "enum" => (labels.bind EnumLabels.ofJson?).map .enum
  | _ => none

/-- How many levels of nesting a stored type may have. -/
def maxLevels : Nat := 124

/-- The type of a stored form.  All of it is taken in before its name is looked at, so every part of it
has to be sound. -/
def ofJson? (value : Json) : Option ValueType :=
  if value.isSound maxLevels then
    match value with
    | .object members =>
      match (Json.object members).fields? ["kind"] with
      | some [some (.string "enum")] =>
        match (Json.object members).fields? ["labels"] with
        | some [labels] => ofKind? "enum" labels
        | _ => none
      | some [some (.string kind)] => ofKind? kind none
      | _ => none
    | .array [.string "enum", labels] => ofKind? "enum" (some labels)
    | .array [.string kind] => ofKind? kind none
    | _ => none
  else none

end ValueType

/-! ## §2 Columns and joins -/

namespace Column

def toJson (c : Column) : Json :=
  .object
    [("id", .string c.id), ("label", .string c.label), ("source", .ofOption FieldRef.toJson c.source),
     ("value_type", c.valueType.toJson), ("filterable", .bool c.filterable),
     ("sortable", .bool c.sortable)]

/-- The column of a stored form.  Usually a column reads no field, holds texts, and can be filtered and
sorted by. -/
def ofJson? (value : Json) : Option Column :=
  match value.fields? ["id", "label", "source", "value_type", "filterable", "sortable"] with
  | some [some id, some label, source, valueType, filterable, sortable] => do
    let id ← id.string?
    let label ← label.string?
    let source ← Json.fieldOr none (Json.optional? FieldRef.ofJson?) source
    let valueType ← Json.fieldOr .text ValueType.ofJson? valueType
    let filterable ← Json.fieldOr true Json.bool? filterable
    let sortable ← Json.fieldOr true Json.bool? sortable
    pure ⟨id, label, source, valueType, filterable, sortable⟩
  | _ => none

end Column

namespace JoinSpec

def toJson (spec : JoinSpec) : Json :=
  .object
    [("table", .string spec.table), ("dependencies", .ofList .string spec.dependencies),
     ("clause", .string spec.clause), ("alias_of", .ofOption .string spec.aliasOf)]

/-- The join of a stored form.  Usually a join has no dependencies and its table is a physical one. -/
def ofJson? (value : Json) : Option JoinSpec :=
  match value.fields? ["table", "dependencies", "clause", "alias_of"] with
  | some [some table, dependencies, some clause, aliasOf] => do
    let table ← table.string?
    let dependencies ← Json.fieldOr [] (Json.list? Json.string?) dependencies
    let clause ← clause.string?
    let aliasOf ← Json.fieldOr none (Json.optional? Json.string?) aliasOf
    pure ⟨table, dependencies, clause, aliasOf⟩
  | _ => none

end JoinSpec

/-! ## §3 Schemas -/

namespace SchemaDefinition

def toJson (d : SchemaDefinition) : Json :=
  .object
    [("base_table", .string d.baseTable), ("required_fields", .ofList FieldRef.toJson d.requiredFields),
     ("columns", .ofList Column.toJson d.columns), ("joins", .ofList JoinSpec.toJson d.joins)]

/-- The definition of a stored form.  Usually no field is required and nothing is joined. -/
def ofJson? (value : Json) : Option SchemaDefinition :=
  match value.fields? ["base_table", "required_fields", "columns", "joins"] with
  | some [some baseTable, requiredFields, some columns, joins] => do
    let baseTable ← baseTable.string?
    let requiredFields ← Json.fieldOr [] (Json.list? FieldRef.ofJson?) requiredFields
    let columns ← columns.list? Column.ofJson?
    let joins ← Json.fieldOr [] (Json.list? JoinSpec.ofJson?) joins
    pure ⟨baseTable, requiredFields, columns, joins⟩
  | _ => none

def toText (d : SchemaDefinition) : String := d.toJson.compact

def ofText? (text : String) : Option SchemaDefinition := (Json.ofText? text).bind ofJson?

end SchemaDefinition

/-- Why a stored text is no schema. -/
inductive SchemaLoadError where
  /-- The text is no definition. -/
  | unreadable
  /-- The definition has a fault. -/
  | invalid (fault : SchemaError)
  deriving DecidableEq, Repr

namespace Schema

/-- The schema of a definition that may not have been readable. -/
def ofDefinition? (d : Option SchemaDefinition) : Except SchemaLoadError Schema :=
  match d with
  | none => .error .unreadable
  | some d =>
    match ofDefinition d with
    | .ok schema => .ok schema
    | .error fault => .error (.invalid fault)

def ofText (text : String) : Except SchemaLoadError Schema :=
  ofDefinition? (SchemaDefinition.ofText? text)

end Schema
end CatalogFilter
