import CatalogFilter.Expr.Basic
import CatalogFilter.Text.Letter
import CatalogFilter.Text.Numeral
import CatalogFilter.Text.Quoted

/-!
# Writing expressions

Every expression has one written form.  Parentheses stand exactly where an operand binds less tightly
than its place asks for.  Names are quoted part by part where they need it; literals other than plain
numbers and NULL are written as quoted strings.
-/

namespace CatalogFilter

open Text

/-! ## §1 Names and literals -/

namespace Sql

def isPlainPart : List Char → Bool
  | [] => false
  | c :: cs => (isAlphabetic c || c == '_') && cs.all fun c => isAlphanumeric c || c == '_' || c == '$'

def namePart (cs : List Char) : List Char := if isPlainPart cs then cs else quoted '"' cs

/-- A name whose parts are separated by points, each part quoted if it needs quotes. -/
def name (cs : List Char) : List Char := ['.'].intercalate ((cs.splitOn '.').map namePart)

def field (table field : List Char) : List Char := namePart table ++ '.' :: namePart field

def string (cs : List Char) : List Char := quoted '\'' cs

/-- A literal: NULL, a plain number as it is, and anything else as a quoted string. -/
def literal (kind : LiteralKind) (value : List Char) : List Char :=
  match kind with
  | .null => "NULL".toList
  | .number => if isNumber value then value else string value
  | _ => string value

end Sql

/-! ## §2 Expressions -/

namespace Expr

/-- The text of an operand in a place that asks for an expression binding at least as tightly as
`least`. -/
def inPlace (least : Nat) (e : Expr) (text : List Char) : List Char :=
  if e.precedence < least then '(' :: (text ++ [')']) else text

mutual

/-- The written form of an expression.  An operator with a number of operands that it does not take is
written like a function over them, so that nothing is hidden. -/
def render : Expr → List Char
  | .name text => Sql.name text.toList
  | .literal kind value => Sql.literal kind value.toList
  | .node .or operands => " OR ".toList.intercalate (renderAll 1 operands)
  | .node .and operands => " AND ".toList.intercalate (renderAll 2 operands)
  | .node .not [operand] => "NOT ".toList ++ inPlace 4 operand (render operand)
  | .node .between [value, .node .and [low, high]] =>
    inPlace 5 value (render value) ++ " BETWEEN ".toList ++ inPlace 5 low (render low) ++
      " AND ".toList ++ inPlace 5 high (render high)
  | .node .escape [pattern, escape] =>
    inPlace 4 pattern (render pattern) ++ " ESCAPE ".toList ++ inPlace 5 escape (render escape)
  | .node op [left, right] =>
    inPlace 5 left (render left) ++ ' ' :: op.text.toList ++ ' ' :: inPlace 5 right (render right)
  | .node op operands =>
    op.text.toList ++ '(' :: ", ".toList.intercalate (renderAll 0 operands) ++ [')']

/-- The written forms of operands in places that all ask for the same. -/
def renderAll (least : Nat) : List Expr → List (List Char)
  | [] => []
  | e :: es => inPlace least e (render e) :: renderAll least es

end

def sql (e : Expr) : String := String.ofList e.render

theorem renderAll_eq_map (least : Nat) (es : List Expr) :
    renderAll least es = es.map fun e => inPlace least e e.render := by
  induction es with
  | nil => rfl
  | cons e es ih => simp [renderAll, ih]

end Expr
end CatalogFilter
