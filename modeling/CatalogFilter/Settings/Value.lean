import CatalogFilter.Decimal.Layout
import CatalogFilter.Decimal.Reader
import CatalogFilter.Json.Basic
import CatalogFilter.Order.Entries
import CatalogFilter.Text.Numeral
import CatalogFilter.Toml.Basic

/-!
# Values of settings

Settings are a tree: groups of named values, lists, and single values.  Values that come later are laid
over earlier ones.  A group is merged with the group below it; any other value takes the place of what
was there.  The names in groups do not regard the case of their letters.

**Main definitions**: `Value.laidOver` lays one value over another, and `Value.text?`, `Value.texts?` and
`Value.truth?` convert a value to what a setting asks for where there is a plain way to.
-/

namespace CatalogFilter.Settings

/-! ## §1 Values -/

/-- A value of settings. -/
inductive Value where
  /-- No value, in a place that exists only because a later place of its list has one. -/
  | nothing
  | text (content : String)
  | integer (value : Int)
  /-- A floating point number, by its bits. -/
  | number (bits : UInt64)
  | truth (value : Bool)
  | list (items : List Value)
  | group (entries : List (String × Value))
  deriving Inhabited

namespace Value

mutual

/-- The value that a value of a document stands for.  A moment is its text. -/
def ofToml : Toml → Value
  | .string content => .text content
  | .integer value => .integer value
  | .float bits => .number bits
  | .boolean value => .truth value
  | .moment content => .text content
  | .array items => .list (ofItems items)
  | .table entries => .group (ofEntries entries)

def ofItems : List Toml → List Value
  | [] => []
  | item :: items => ofToml item :: ofItems items

def ofEntries : List (String × Toml) → List (String × Value)
  | [] => []
  | (key, value) :: entries => (key, ofToml value) :: ofEntries entries

end

/-- The double nearest to a decimal of JSON. -/
def ofDecimal (mantissa exponent : Int) : Value :=
  let magnitude := Decimal.nearest mantissa.natAbs exponent
  .number (if mantissa < 0 then -magnitude else magnitude).toBits

mutual

/-- The value that a JSON value stands for.  An integer that does not fit a word is a floating point
number. -/
def ofJson : Json → Value
  | .null => .nothing
  | .bool value => .truth value
  | .integer n => if Text.fitsWord n then .integer n else ofDecimal n 0
  | .decimal mantissa exponent => ofDecimal mantissa exponent
  | .string content => .text content
  | .array items => .list (ofJsonItems items)
  | .object members => .group (ofMembers members)
  | .unreadable => .nothing

def ofJsonItems : List Json → List Value
  | [] => []
  | item :: items => ofJson item :: ofJsonItems items

def ofMembers : List (String × Json) → List (String × Value)
  | [] => []
  | (key, value) :: members => (key, ofJson value) :: ofMembers members

end

/-! ## §2 Laying values over each other -/

/-- The entries of a group; no other value has any. -/
def entries : Value → List (String × Value)
  | .group entries => entries
  | _ => []

/-- The items of a list; no other value has any. -/
def items : Value → List Value
  | .list items => items
  | _ => []

mutual

/-- A value laid over the value below it, if there is one. -/
def laidOver (below : Option Value) : Value → Value
  | .group entries => layEntries (below.getD (.group [])) entries
  | value => value

/-- The entries of a group laid over the value below, one after the other. -/
def layEntries (below : Value) : List (String × Value) → Value
  | [] => below
  | (name, value) :: rest =>
    let key := name.toLower
    layEntries (.group (Entries.set below.entries key (laidOver (below.entries.lookup key) value))) rest

end

/-! ## §3 Conversions -/

def text? : Value → Option String
  | .text content => some content
  | .integer n => some (toString n)
  | .number bits => some (String.ofList (Decimal.plain bits))
  | .truth value => some (if value then "true" else "false")
  | .nothing | .list _ | .group _ => none

def texts? : Value → Option (List String)
  | .list items => items.mapM text?
  | _ => none

/-- The text that a value is, which may be missing. -/
def optionalText? : Value → Option (Option String)
  | .nothing => some none
  | value => value.text?.map some

def truth? : Value → Option Bool
  | .truth value => some value
  | .integer n => some (n != 0)
  | .number bits => some (bits <<< 1 != 0)
  | .text content =>
    match content.toLower with
    | "1" | "true" | "on" | "yes" => some true
    | "0" | "false" | "off" | "no" => some false
    | _ => none
  | _ => none

end Value
end CatalogFilter.Settings
