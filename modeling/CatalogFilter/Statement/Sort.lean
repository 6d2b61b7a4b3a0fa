import CatalogFilter.Text.Blank
import CatalogFilter.Text.Split

/-!
# Orderings

An ordering is a list of keys, each a column and a direction.  A key is written as the id of the column
with `:asc` or `:desc` after it; without a direction it ascends.
-/

namespace CatalogFilter

open Text

/-- A column to order rows by. -/
structure SortKey where
  column : String
  ascending : Bool
  deriving DecidableEq, Repr, Inhabited

/-- Why a text is no sort key. -/
inductive SortError where
  | missingColumn (text : String)
  | unknownDirection (direction : String)
  deriving DecidableEq, Repr

def SortError.message : SortError → String
  | .missingColumn text => "missing column in sort spec '" ++ text ++ "'"
  | .unknownDirection direction => "unknown sort direction '" ++ direction ++ "'"

namespace SortKey

def text (key : SortKey) : String := key.column ++ ":" ++ (if key.ascending then "asc" else "desc")

/-- The column and the direction of a sort key, without blanks around them. -/
def parts (cs : List Char) : List Char × Option (List Char) :=
  match splitFirst ':' cs with
  | some (column, direction) => (trim column, some ((trim direction).map Char.toLower))
  | none => (trim cs, none)

def ofText (text : String) : Except SortError SortKey :=
  match parts text.toList with
  | ([], _) => .error (.missingColumn text)
  | (column, none) => .ok ⟨String.ofList column, true⟩
  | (column, some direction) =>
    if direction = "asc".toList then .ok ⟨String.ofList column, true⟩
    else if direction = "desc".toList then .ok ⟨String.ofList column, false⟩
    else .error (.unknownDirection (String.ofList direction))

def ofTexts (texts : List String) : Except SortError (List SortKey) := texts.mapM ofText

end SortKey
end CatalogFilter
