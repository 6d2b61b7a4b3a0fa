/-!
# TOML values

A TOML document is a table: keys with values, some of which are tables and arrays again.
-/

namespace CatalogFilter

/-- A TOML value. -/
inductive Toml where
  | string (text : String)
  | integer (value : Int)
  /-- A floating point number, by its bits. -/
  | float (bits : UInt64)
  | boolean (value : Bool)
  /-- A date, a time or both, in its one written form. -/
  | moment (text : String)
  | array (items : List Toml)
  | table (entries : List (String × Toml))
  deriving Inhabited

end CatalogFilter
