import CatalogFilter.Order.SortedMap
import CatalogFilter.Text.Case

/-!
# Columns

A column has an id that never changes, and a label to show.  Most columns read a field of a table; a
column that reads none, such as a switch for details, can be neither filtered nor sorted by.
-/

namespace CatalogFilter

open Text

/-! ## §1 Fields -/

/-- A field of a table. -/
structure FieldRef where
  table : String
  field : String
  deriving DecidableEq, Repr, Inhabited

namespace FieldRef

/-- Is this the field of that name in the table of that name, up to case? -/
def named (ref : FieldRef) (table field : String) : Bool :=
  sameName ref.table table && sameName ref.field field

def dotted (ref : FieldRef) : String := ref.table ++ "." ++ ref.field

end FieldRef

/-! ## §2 Types of values -/

/-- The labels of the numbers that stand for the values of an enumeration. -/
abbrev EnumLabels := SortedMap Int64 String

namespace EnumLabels

def label? (labels : EnumLabels) (value : Int64) : Option String := labels.get? value

/-- The least number with a label, up to case. -/
def valueOf? (labels : EnumLabels) (label : String) : Option Int64 :=
  (labels.entries.find? fun e => sameName e.2 label).map (·.1)

end EnumLabels

/-- What the values of a column are. -/
inductive ValueType where
  | text
  | number
  /-- A number shown by its label. -/
  | enum (labels : EnumLabels)
  /-- The id of another game. -/
  | gameId
  deriving DecidableEq, Inhabited

namespace ValueType

/-- A stored number as it is shown in a column of this type. -/
def display (type : ValueType) (value : Int64) : String :=
  match type with
  | .enum labels => (labels.label? value).getD (toString value.toInt)
  | .gameId => "#" ++ toString value.toInt
  | .text | .number => toString value.toInt

def labels? : ValueType → Option EnumLabels
  | .enum labels => some labels
  | _ => none

end ValueType

/-! ## §3 Columns -/

/-- A column that can be shown. -/
structure Column where
  id : String
  label : String
  /-- The field that the column reads, if it reads one. -/
  source : Option FieldRef
  valueType : ValueType
  filterable : Bool
  sortable : Bool
  deriving DecidableEq, Inhabited

namespace Column

/-- The field that a filter on the column compares, if it can be filtered. -/
def filterField (c : Column) : Option FieldRef := if c.filterable then c.source else none

/-- The field that an ordering by the column compares, if it can be sorted by. -/
def sortField (c : Column) : Option FieldRef := if c.sortable then c.source else none

end Column
end CatalogFilter
