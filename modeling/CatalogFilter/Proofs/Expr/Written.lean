import CatalogFilter.Expr.Printer
import CatalogFilter.Proofs.Expr.Grammar

/-!
# The written form of each operator

Every written form is made of words with single blanks between them: `joinedBy` puts a keyword between two
texts, and the forms of all operators with two operands are instances of it.

**Main definition**: `Expr.placed`, an expression as it is written in a place that asks for an expression
that binds at least so tightly.
-/

namespace CatalogFilter

/-! ## §1 Words between texts -/

/-- Two texts with a word between them. -/
def joinedBy (word left right : List Char) : List Char := left ++ ' ' :: (word ++ ' ' :: right)

namespace Connective

/-- How tightly the links of a chain have to bind. -/
def least : Connective → Nat
  | and => 2
  | or => 1

/-- The word between two links. -/
def word (c : Connective) : List Char := c.keyword.text.toList

/-- What is written between two links. -/
def separator (c : Connective) : List Char := ' ' :: (c.word ++ [' '])

end Connective

theorem intercalate_separator (c : Connective) (left right : List Char) (more : List (List Char)) :
    c.separator.intercalate (left :: right :: more) =
      joinedBy c.word left (c.separator.intercalate (right :: more)) := by
  simp [List.intercalate, joinedBy, Connective.separator]

/-! ## §2 Places -/

namespace Expr

/-- An expression as it is written in a place that asks for one that binds at least so tightly. -/
def placed (least : Nat) (e : Expr) : List Char := inPlace least e e.render

theorem placed_of_le {least : Nat} {e : Expr} (h : least ≤ e.precedence) :
    e.placed least = e.render := by
  simp [placed, inPlace, Nat.not_lt.2 h]

theorem placed_of_lt {least : Nat} {e : Expr} (h : e.precedence < least) :
    e.placed least = '(' :: (e.render ++ [')']) := by
  simp [placed, inPlace, h]

/-- What is written alike and binds alike is written alike in every place. -/
theorem placed_congr {e e' : Expr} (hp : e.precedence = e'.precedence) (hr : e.render = e'.render)
    (least : Nat) : e.placed least = e'.placed least := by
  simp [placed, inPlace, hp, hr]

theorem precedence_chain (c : Connective) (es : List Expr) :
    (node c.operator es).precedence = c.least := by
  cases c <;> rfl

theorem one_le_precedence (e : Expr) : 1 ≤ e.precedence := by
  cases e with
  | node op es =>
    -- an `OR` binds least
    have hop : 1 ≤ op.precedence := by cases op <;> decide
    exact hop
  | name text => exact Nat.le_add_left 1 4
  | literal kind value => exact Nat.le_add_left 1 4

/-! ## §3 Operators -/

theorem render_chain (c : Connective) (es : List Expr) :
    render (.node c.operator es) = c.separator.intercalate (es.map (placed c.least)) := by
  -- the two chains are written by two cases of the printer
  cases c with
  | and =>
    rw [Connective.operator, render, renderAll_eq_map]
    rfl
  | or =>
    rw [Connective.operator, render, renderAll_eq_map]
    rfl

theorem render_joined (c : Connective) (left right : Expr) :
    render (.binary c.operator left right) =
      joinedBy c.word (left.placed c.least) (right.placed c.least) := by
  rw [binary, render_chain, List.map_cons, List.map_singleton, intercalate_separator,
    List.intercalate_singleton]

/-- A chain needs no parentheses where a link of the same chain may stand. -/
theorem placed_joined (c : Connective) (left right : Expr) :
    placed c.least (.binary c.operator left right) = render (.binary c.operator left right) :=
  placed_of_le (Nat.le_of_eq (precedence_chain c _).symm)

theorem render_not (e : Expr) :
    render (.node .not [e]) = Keyword.not.text.toList ++ ' ' :: e.placed 4 := by
  simp [render, placed, Keyword.text]

theorem render_compared {op : Operator} (h : op.comparisonKeywords ≠ []) (left right : Expr) :
    render (.binary op left right) = joinedBy op.text.toList (left.placed 5) (right.placed 5) := by
  -- every operator with a keyword of comparison is written in the same way
  cases op <;> simp [Operator.comparisonKeywords] at h <;> simp [binary, render, placed, joinedBy]

theorem render_between (value low high : Expr) :
    render (.binary .between value (.binary .and low high)) =
      joinedBy Keyword.between.text.toList (value.placed 5)
        (joinedBy Keyword.and.text.toList (low.placed 5) (high.placed 5)) := by
  simp [binary, render, placed, joinedBy, Keyword.text]

theorem render_escape (pattern escape : Expr) :
    render (.binary .escape pattern escape) =
      joinedBy Keyword.escape.text.toList (pattern.placed 4) (escape.placed 5) := by
  simp [binary, render, placed, joinedBy, Keyword.text]

end Expr
end CatalogFilter
