import CatalogFilter.Catalog.Column
import CatalogFilter.Decimal.Layout
import CatalogFilter.Json.Writer

/-!
# Cells

A cell is one value of a result row.  It has three written forms: what a column of some type shows, a
plain form, and JSON.
-/

namespace CatalogFilter

/-- A value that a database holds. -/
inductive Cell where
  | null
  | integer (value : Int64)
  | real (value : Float)
  | text (value : String)
  | blob (bytes : List UInt8)
  deriving Inhabited

namespace Cell

def isNull : Cell → Bool
  | null => true
  | _ => false

def integer? : Cell → Option Int64
  | integer value => some value
  | _ => none

def text? : Cell → Option String
  | text value => some value
  | _ => none

def plain : Cell → String
  | null => "NULL"
  | integer value => toString value.toInt
  | real value => String.ofList (Decimal.plain value.toBits)
  | text value => value
  | blob bytes => "<" ++ toString bytes.length ++ " bytes>"

/-- What a column of a type shows: nothing for no value, integers as their type has it, and every other
cell in its plain form. -/
def display (type : ValueType) : Cell → String
  | null => ""
  | integer value => type.display value
  | cell => cell.plain

/-- The JSON text of a cell.  A double that is not finite is null, and a blob is the list of its bytes. -/
def json : Cell → String
  | null => "null"
  | integer value => toString value.toInt
  | real value => String.ofList ((Decimal.jsonNumber? value.toBits).getD "null".toList)
  | text value => String.ofList (Json.writeString value.toList)
  | blob bytes => (Json.array (bytes.map fun b => .integer b.toNat)).compact

end Cell

/-- The rows that a statement results in. -/
structure ResultSet where
  columns : List String
  rows : List (List Cell)
  deriving Inhabited

namespace ResultSet

def empty : ResultSet := ⟨[], []⟩

end ResultSet
end CatalogFilter
