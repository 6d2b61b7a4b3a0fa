import CatalogFilter.Catalog.Basic
import CatalogFilter.Criterion.Predicate

/-!
# Filter sets

A filter set is what the column view of a filter edits: rows that are alternatives, each of them criteria
for columns that all have to hold.  **Main definition**: `FilterSet.render` writes the filter that a set
stands for.  A row is a group of its terms in the order of the catalog; blank criteria and columns that
cannot be filtered give no term, and rows without terms are left out.
-/

namespace CatalogFilter

open Text

/-! ## §1 Rows -/

/-- The criteria of a row, by column id. -/
abbrev CriteriaRow := SortedMap String String

namespace CriteriaRow

def isBlank (row : CriteriaRow) : Bool := row.entries.all fun e => (trim e.2.toList).isEmpty

/-- The term that a row has for a column, if any: the comparison that its criterion stands for. -/
def term? (row : CriteriaRow) (column : Column) : Option (List Char) := do
  let criterion ← row.get? column.id
  let predicate ← Predicate.ofCriterion? criterion
  let field ← column.filterField
  pure (predicate.render field.render)

def terms (row : CriteriaRow) (catalog : Catalog) : List (List Char) :=
  catalog.columns.filterMap row.term?

end CriteriaRow

/-! ## §2 Sets -/

/-- Rows of criteria, one of which has to hold. -/
structure FilterSet where
  rows : List CriteriaRow
  deriving DecidableEq

namespace FilterSet

def empty : FilterSet := ⟨[]⟩

instance : Inhabited FilterSet := ⟨empty⟩

def push (set : FilterSet) (row : CriteriaRow) : FilterSet := ⟨set.rows ++ [row]⟩

def group (terms : List (List Char)) : List Char :=
  '(' :: (" AND ".toList.intercalate terms ++ [')'])

/-- The filter that a set stands for; the empty text if no row has a term. -/
def render (set : FilterSet) (catalog : Catalog) : List Char :=
  let groups := (set.rows.map fun row => row.terms catalog).filter fun terms => !terms.isEmpty
  " OR ".toList.intercalate (groups.map group)

def sql (set : FilterSet) (catalog : Catalog) : String := String.ofList (set.render catalog)

end FilterSet
end CatalogFilter
