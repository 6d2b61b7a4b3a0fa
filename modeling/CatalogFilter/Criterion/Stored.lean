import CatalogFilter.Criterion.FilterSet
import CatalogFilter.Json.Reader
import CatalogFilter.Json.Record
import CatalogFilter.Json.Writer

/-!
# Stored filter sets

The JSON form of filter sets: a record with a list of rows, each an object from column ids to criteria.
In a row the last of several criteria for one column counts.
-/

namespace CatalogFilter

namespace CriteriaRow

def toJson (row : CriteriaRow) : Json :=
  .object (row.entries.map fun (id, criterion) => (id, .string criterion))

/-- The column id and the criterion that a member of a stored row is. -/
def entryOfJson? (member : String × Json) : Option (String × String) :=
  member.2.string?.map fun criterion => (member.1, criterion)

def ofJson? : Json → Option CriteriaRow
  | .object members => (members.mapM entryOfJson?).map SortedMap.ofList
  | _ => none

end CriteriaRow

namespace FilterSet

def rowsToJson (set : FilterSet) : Json := .ofList CriteriaRow.toJson set.rows

def ofRowsJson? (value : Json) : Option FilterSet := (value.list? CriteriaRow.ofJson?).map .mk

def toJson (set : FilterSet) : Json := .object [("rows", set.rowsToJson)]

def ofJson? (value : Json) : Option FilterSet :=
  match value.fields? ["rows"] with
  | some [some rows] => ofRowsJson? rows
  | _ => none

def toText (set : FilterSet) : String := set.toJson.compact

def ofText? (text : String) : Option FilterSet := (Json.ofText? text).bind ofJson?

end FilterSet
end CatalogFilter
