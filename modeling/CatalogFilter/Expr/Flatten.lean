import CatalogFilter.Expr.Basic

/-!
# Flattening chains

`AND` and `OR` are associative, so a chain of them written from left to right and any other grouping of
it mean the same.  Flattening gives every such chain one shape: an operator right under itself is merged
with the operator above.  The bounds of a range test are an AND as well, but they stand under the range
test and so are never merged.
-/

namespace CatalogFilter.Expr

/-- The operands that an operand stands for: its own if it is a chain of the target operator to be
merged, else itself alone. -/
def merged (target : Operator) (merge : Bool) : Expr → List Expr
  | .node op operands => if merge && op = target then operands else [.node op operands]
  | e => [e]

mutual

def flatten (target : Operator) : Expr → Expr
  | .node op operands => .node op (flattenAll target (op = target) operands)
  | .name text => .name text
  | .literal kind value => .literal kind value

/-- The operands after flattening, those of the target operator merged if asked for. -/
def flattenAll (target : Operator) (merge : Bool) : List Expr → List Expr
  | [] => []
  | e :: es => merged target merge (flatten target e) ++ flattenAll target merge es

end

/-- Merges the chains of AND, then those of OR. -/
def flattenChains (e : Expr) : Expr := (e.flatten .and).flatten .or

theorem flattenAll_eq_flatMap (target : Operator) (merge : Bool) (es : List Expr) :
    flattenAll target merge es = es.flatMap fun e => merged target merge (flatten target e) := by
  induction es with
  | nil => rfl
  | cons e es ih => simp [flattenAll, ih]

/-- The operands of the chain that an expression is: its own if it is a chain of `op`, else the
expression alone. -/
def chainOf (op : Operator) : Expr → List Expr
  | .node op' operands => if op' = op then operands else [.node op' operands]
  | e => [e]

end CatalogFilter.Expr
