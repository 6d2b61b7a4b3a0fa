import CatalogFilter.Criterion.FilterSet
import CatalogFilter.Expr.Flatten
import CatalogFilter.Expr.Parser

/-!
# Criteria of an expression

The way back from a filter to the column view.  It loses on purpose: a term that is not one comparison of
one column of the catalog with one value has no criterion and is left out.  A comparison has a criterion
only if the criterion would be read as the same predicate again.

**Main definitions**: `Catalog.criterion?` for one term, `FilterSet.ofExpr` and `FilterSet.ofText` for
whole filters.
-/

namespace CatalogFilter

/-! ## §1 Terms -/

namespace Expr

def value? : Expr → Option String
  | .literal .null _ => none
  | .literal _ value => some value
  | _ => none

def comparisonOf? : Operator → Option Comparison
  | .equal | .doubleEqual => some .eq
  | .notEqual | .bangEqual => some .ne
  | .lessThan => some .lt
  | .lessOrEqual => some .le
  | .greaterThan => some .gt
  | .greaterOrEqual => some .ge
  | _ => none

/-- The predicate of a comparison with a literal.  With NULL, only being equal and being different have
one. -/
def comparePredicate? (comparison : Comparison) (kind : LiteralKind) (value : String) :
    Option Predicate :=
  match kind, comparison with
  | .null, .eq => some .isNull
  | .null, .ne => some .isNotNull
  | .null, _ => none
  | _, comparison => some (.compare comparison value)

def likePredicate? (field : String) (pattern : Expr) (escape : Option String) :
    Option (String × Predicate) := do
  let text ← pattern.value?
  let predicate ← Predicate.ofLike? text.toList (escape.map String.toList)
  pure (field, predicate)

/-- The name that a term compares, and what it asks of that name's value. -/
def predicate? : Expr → Option (String × Predicate)
  | .node .escape [.node .like [.name field, pattern], .literal _ escape] =>
    likePredicate? field pattern (some escape)
  | .node .like [.name field, pattern] => likePredicate? field pattern none
  | .node .regexp [.name field, pattern] => pattern.value?.map fun text => (field, .regexp text)
  | .node .between [.name field, .node .and [low, high]] => do
    let low ← low.value?
    let high ← high.value?
    pure (field, .between low high)
  | .node .is [.name field, .literal .null _] => some (field, .isNull)
  | .node .isNot [.name field, .literal .null _] => some (field, .isNotNull)
  | .node op [.name field, .literal kind value] => do
    let comparison ← comparisonOf? op
    let predicate ← comparePredicate? comparison kind value
    pure (field, predicate)
  | .node op [.literal kind value, .name field] => do
    let comparison ← comparisonOf? op
    let predicate ← comparePredicate? comparison.flipped kind value
    pure (field, predicate)
  | _ => none

end Expr

/-- The column and the criterion of a term, if the criterion is read as the term's predicate again. -/
def Catalog.criterion? (catalog : Catalog) (term : Expr) : Option (String × String) := do
  let (name, predicate) ← term.predicate?
  let column ← catalog.resolve? name
  if Predicate.ofCriterion? predicate.criterion = some predicate then
    pure (column.id, predicate.criterion)
  else none

/-! ## §2 Rows and sets -/

/-- The criteria of terms that all have to hold.  Of several criteria for one column the first counts. -/
def CriteriaRow.ofTerms (catalog : Catalog) (terms : List Expr) : CriteriaRow :=
  (terms.filterMap catalog.criterion?).foldl
    (fun row (id, criterion) => if row.contains id then row else row.insert id criterion)
    SortedMap.empty

namespace FilterSet

/-- The criteria of an expression: a row for each operand of its outermost chain of OR, without the rows
that have no criterion. -/
def ofExpr (catalog : Catalog) (e : Expr) : FilterSet :=
  let rows := (e.flattenChains.chainOf .or).map fun alternative =>
    CriteriaRow.ofTerms catalog (alternative.chainOf .and)
  ⟨rows.filter fun row => !row.isEmpty⟩

/-- The criteria of a filter text.  A blank text has none. -/
def ofText (catalog : Catalog) (text : String) : Except FilterError FilterSet :=
  match Expr.ofString text with
  | .ok e => .ok (ofExpr catalog e)
  | .error .empty => .ok empty
  | .error fault => .error fault

end FilterSet
end CatalogFilter
