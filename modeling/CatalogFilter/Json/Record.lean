import CatalogFilter.Json.Basic
import CatalogFilter.Text.Numeral

/-!
# Records in JSON

A record is an object with fields of known names.  Members of other names are passed over; a field may
stand only once.  A record may also be written as an array of its fields in order, the last of which may
be missing.  What a missing field means is settled by the reader of the record.
-/

namespace CatalogFilter.Json

/-! ## §1 Fields -/

/-- The values of the fields of a record, in the order of their names. -/
def fields? (names : List String) : Json → Option (List (Option Json))
  | .object members =>
    if names.all fun name => (members.filter fun m => m.1 == name).length ≤ 1 then
      some (names.map fun name => (members.find? fun m => m.1 == name).map (·.2))
    else none
  | .array items =>
    if items.length ≤ names.length then
      some (items.map some ++ List.replicate (names.length - items.length) none)
    else none
  | _ => none

def fieldOr {α : Type} (default : α) (read : Json → Option α) : Option Json → Option α
  | some value => read value
  | none => some default

/-! ## §2 Plain values -/

def string? : Json → Option String
  | .string text => some text
  | _ => none

def bool? : Json → Option Bool
  | .bool value => some value
  | _ => none

def int64? : Json → Option Int64
  | .integer n => if Text.fitsWord n then some (Int64.ofInt n) else none
  | _ => none

def list? {α : Type} (read : Json → Option α) : Json → Option (List α)
  | .array items => items.mapM read
  | _ => none

def optional? {α : Type} (read : Json → Option α) : Json → Option (Option α)
  | .null => some none
  | value => (read value).map some

def ofList {α : Type} (write : α → Json) (items : List α) : Json := .array (items.map write)

def ofInt64 (n : Int64) : Json := .integer n.toInt

def ofOption {α : Type} (write : α → Json) : Option α → Json
  | none => .null
  | some value => write value

end CatalogFilter.Json
