import CatalogFilter.Criterion.Predicate
import CatalogFilter.Expr.Parser
import CatalogFilter.Schema.Basic
import CatalogFilter.Statement.Sort

/-!
# Statements

A view asks for columns, a filter and an ordering.  Its statement selects the required fields and then
the columns that can be shown, joins the tables that are named anywhere in it, and filters and orders the
rows.  A filter that is an expression is written in its one form; any other text is passed on as it is.

The statement is planned before it is written: `Plan.ofView` settles what is selected, joined, filtered and
ordered, and `Plan.render` writes it.
-/

namespace CatalogFilter

open Text

/-! ## §1 Views -/

/-- What a view asks for. -/
structure View where
  /-- The ids of the columns to be shown. -/
  columns : List String
  /-- The text of the filter; a blank one filters nothing. -/
  filter : String
  sort : List SortKey
  deriving DecidableEq, Inhabited

namespace View

/-- A list without repetitions; of equal items the first stays. -/
def firstOnly (ids : List String) : List String :=
  ids.foldl (fun kept id => if id ∈ kept then kept else kept ++ [id]) []

/-- The columns that can be shown, each with the field to be selected for it.  Repeated ids, unknown
ids and columns without a field are passed over. -/
def selected (v : View) (catalog : Catalog) : List (String × FieldRef) :=
  (firstOnly v.columns).filterMap fun id => do
    let column ← catalog.get? id
    let field ← column.filterField
    pure (id, field)

/-- The fields to order by, each with its direction.  Unknown columns and those that cannot be sorted by
are passed over. -/
def ordering (v : View) (catalog : Catalog) : List (FieldRef × Bool) :=
  v.sort.filterMap fun key => do
    let column ← catalog.get? key.column
    let field ← column.sortField
    pure (field, key.ascending)

def filterText (v : View) : String := trimmed v.filter

def filterExpr? (v : View) : Option Expr := Expr.ofString? v.filterText

/-- The fields of the columns that the names in the filter mean. -/
def filterFields (v : View) (catalog : Catalog) : List FieldRef :=
  match v.filterExpr? with
  | none => []
  | some e => e.names.filterMap fun name => do
    let column ← catalog.resolve? name
    column.filterField

def condition (v : View) : List Char :=
  match v.filterExpr? with
  | none => v.filterText.toList
  | some e => e.render

end View

/-! ## §2 Plans -/

/-- What a statement consists of. -/
structure Plan where
  /-- The fields that are selected. -/
  select : List FieldRef
  /-- The table that rows are read from. -/
  base : String
  /-- The clauses of the joins. -/
  joins : List String
  /-- The condition on the rows; the empty text for none. -/
  condition : List Char
  /-- The fields that rows are ordered by, ascending or not. -/
  ordering : List (FieldRef × Bool)
  deriving Inhabited

namespace Plan

/-- The tables that a view names, in the order in which their joins are added. -/
def tables (s : Schema) (v : View) : List String :=
  s.requiredFields.map (·.table) ++ (v.selected s.catalog).map (·.2.table) ++
    (v.ordering s.catalog).map (·.1.table) ++ (v.filterFields s.catalog).map (·.table)

def ofView (s : Schema) (v : View) : Plan where
  select := s.requiredFields ++ (v.selected s.catalog).map (·.2)
  base := s.baseTable
  joins := (Resolver.fresh.resolveAll s.joins (tables s v)).1
  condition := v.condition
  ordering := v.ordering s.catalog

def orderTerm (field : FieldRef) (ascending : Bool) : List Char :=
  field.render ++ (if ascending then " ASC" else " DESC").toList

def render (p : Plan) : List Char :=
  "SELECT ".toList ++ ", ".toList.intercalate (p.select.map FieldRef.render) ++
    " FROM ".toList ++ p.base.toList ++
    p.joins.flatMap (fun clause => ' ' :: clause.toList) ++
    (if p.condition.isEmpty then [] else " WHERE ".toList ++ p.condition) ++
    (if p.ordering.isEmpty then []
      else " ORDER BY ".toList ++
        ", ".toList.intercalate (p.ordering.map fun (field, ascending) => orderTerm field ascending))

end Plan

/-! ## §3 Statements -/

/-- A statement and the shape of its rows: the required fields, and then a value for each column. -/
structure Statement where
  sql : String
  /-- The number of required fields. -/
  required : Nat
  /-- The ids of the columns. -/
  columns : List String
  deriving DecidableEq, Repr, Inhabited

namespace Statement

def ofView (s : Schema) (v : View) : Statement where
  sql := String.ofList (Plan.ofView s v).render
  required := s.requiredFields.length
  columns := (v.selected s.catalog).map (·.1)

def valueIndex? (q : Statement) (id : String) : Option Nat :=
  (q.columns.findIdx? fun column => column == id).map fun place => q.required + place

end Statement
end CatalogFilter
