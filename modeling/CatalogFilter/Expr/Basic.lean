import CatalogFilter.Token.Basic

/-!
# Filter expressions

A filter expression is an operator over an ordered list of operands, or a leaf: the name of a field or
a literal.  A range test keeps the shape in which it is written: its second operand is an AND of the
two bounds.  An ESCAPE stands around the comparison that it belongs to.
-/

namespace CatalogFilter

/-! ## §1 Operators -/

/-- The operators of filter expressions. -/
inductive Operator where
  | or | and | not
  | equal | doubleEqual | notEqual | bangEqual
  | lessThan | lessOrEqual | greaterThan | greaterOrEqual
  | like | regexp | is | isNot | between | escape
  deriving DecidableEq, Repr, Inhabited

namespace Operator

def all : List Operator :=
  [or, and, not, equal, doubleEqual, notEqual, bangEqual, lessThan, lessOrEqual, greaterThan,
    greaterOrEqual, like, regexp, is, isNot, between, escape]

def text : Operator → String
  | or => "OR"
  | and => "AND"
  | not => "NOT"
  | equal => "="
  | doubleEqual => "=="
  | notEqual => "<>"
  | bangEqual => "!="
  | lessThan => "<"
  | lessOrEqual => "<="
  | greaterThan => ">"
  | greaterOrEqual => ">="
  | like => "LIKE"
  | regexp => "REGEXP"
  | is => "IS"
  | isNot => "IS NOT"
  | between => "BETWEEN"
  | escape => "ESCAPE"

def ofText? (s : String) : Option Operator := all.find? fun op => op.text == s

/-- How tightly an operator binds: OR least, then AND, then NOT, then all others alike. -/
def precedence : Operator → Nat
  | or => 1
  | and => 2
  | not => 3
  | _ => 4

theorem mem_all (op : Operator) : op ∈ all := by cases op <;> decide

@[simp] theorem ofText?_text (op : Operator) : ofText? op.text = some op := by cases op <;> decide

end Operator

/-! ## §2 Expressions -/

/-- A filter expression. -/
inductive Expr where
  | node (op : Operator) (operands : List Expr)
  | name (text : String)
  | literal (kind : LiteralKind) (value : String)
  deriving Repr, Inhabited

namespace Expr

def binary (op : Operator) (left right : Expr) : Expr := .node op [left, right]

/-- How tightly an expression holds together; a leaf does so most. -/
def precedence : Expr → Nat
  | .node op _ => op.precedence
  | _ => 5

mutual

def names : Expr → List String
  | .node _ operands => namesOfAll operands
  | .name text => [text]
  | .literal _ _ => []

/-- All names in a list of expressions, from left to right. -/
def namesOfAll : List Expr → List String
  | [] => []
  | e :: es => names e ++ namesOfAll es

end

theorem namesOfAll_eq_flatMap (es : List Expr) : namesOfAll es = es.flatMap names := by
  induction es with
  | nil => rfl
  | cons e es ih => simp [namesOfAll, ih]

/-! ## §3 Equality -/

mutual

/-- Equality of expressions is decided node by node. -/
def decideEq : (e e' : Expr) → Decidable (e = e')
  | .node op es, .node op' es' =>
    if h : op = op' then
      match decideEqAll es es' with
      | isTrue hes => isTrue (by rw [h, hes])
      | isFalse hes => isFalse fun heq => hes (node.inj heq).2
    else isFalse fun heq => h (node.inj heq).1
  | .name text, .name text' => decidable_of_iff (text = text') (by simp)
  | .literal kind value, .literal kind' value' =>
    decidable_of_iff (kind = kind' ∧ value = value') (by simp)
  | .node _ _, .name _ => isFalse nofun
  | .node _ _, .literal _ _ => isFalse nofun
  | .name _, .node _ _ => isFalse nofun
  | .name _, .literal _ _ => isFalse nofun
  | .literal _ _, .node _ _ => isFalse nofun
  | .literal _ _, .name _ => isFalse nofun

/-- `decideEq` for lists of expressions. -/
def decideEqAll : (es es' : List Expr) → Decidable (es = es')
  | [], [] => isTrue rfl
  | [], _ :: _ => isFalse nofun
  | _ :: _, [] => isFalse nofun
  | e :: es, e' :: es' =>
    match decideEq e e', decideEqAll es es' with
    | isTrue he, isTrue hes => isTrue (by rw [he, hes])
    | isFalse he, _ => isFalse fun heq => he (List.cons.inj heq).1
    | _, isFalse hes => isFalse fun heq => hes (List.cons.inj heq).2

end

instance : DecidableEq Expr := decideEq

end Expr
end CatalogFilter
