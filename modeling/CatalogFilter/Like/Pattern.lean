import CatalogFilter.Expr.Printer

/-!
# Patterns of LIKE

A pattern is a list of parts: characters that stand for themselves, and wildcards that stand for any run
of characters.  A pattern has two written forms.

* In a **criterion**, `%` is a wildcard and `\%` a percent sign; any other backslash is just a backslash.
  A backslash right before a wildcard can therefore not be written.
* In a **LIKE text**, `%` is a wildcard.  When a pattern has a percent sign of its own, its backslashes
  and percent signs are escaped by a backslash and the text is followed by an `ESCAPE` clause.
-/

namespace CatalogFilter

/-! ## §1 Patterns -/

/-- One part of a pattern. -/
inductive PatternPart where
  | char (c : Char)
  | wildcard
  deriving DecidableEq, Repr, Inhabited

/-- A pattern is its parts in order. -/
abbrev Pattern := List PatternPart

namespace Pattern

/-- The pattern of texts that contain a match of another pattern. -/
def anywhere (p : Pattern) : Pattern := .wildcard :: (p ++ [.wildcard])

def hasWildcard (p : Pattern) : Bool := p.contains .wildcard

/-- What a pattern asks a text to contain, if that is all that it asks: the parts between two wildcards
at its ends, when there are any and none of them is a wildcard. -/
def contained? : Pattern → Option Pattern
  | .wildcard :: ps =>
    let inner := ps.dropLast
    if ps.getLast? = some .wildcard ∧ inner ≠ [] ∧ hasWildcard inner = false then some inner else none
  | _ => none

/-! ## §2 Criterion texts -/

def ofCriterion : List Char → Pattern
  | [] => []
  | '\\' :: '%' :: cs => .char '%' :: ofCriterion cs
  | '%' :: cs => .wildcard :: ofCriterion cs
  | c :: cs => .char c :: ofCriterion cs

def toCriterion? : Pattern → Option (List Char)
  | [] => some []
  | .wildcard :: ps => (toCriterion? ps).map ('%' :: ·)
  | .char '%' :: ps => (toCriterion? ps).map ('\\' :: '%' :: ·)
  | .char '\\' :: .wildcard :: _ => none
  | .char c :: ps => (toCriterion? ps).map (c :: ·)

/-! ## §3 LIKE texts -/

/-- The pattern of a LIKE text without an escape character. -/
def ofPlainLike : List Char → Pattern
  | [] => []
  | '%' :: cs => .wildcard :: ofPlainLike cs
  | c :: cs => .char c :: ofPlainLike cs

/-- The pattern of a LIKE text whose escape character is the backslash.  Only a backslash and a percent
sign may be escaped. -/
def ofEscapedLike? : List Char → Option Pattern
  | [] => some []
  | '\\' :: '\\' :: cs => (ofEscapedLike? cs).map (.char '\\' :: ·)
  | '\\' :: '%' :: cs => (ofEscapedLike? cs).map (.char '%' :: ·)
  | '\\' :: _ => none
  | '%' :: cs => (ofEscapedLike? cs).map (.wildcard :: ·)
  | c :: cs => (ofEscapedLike? cs).map (.char c :: ·)

/-- The pattern of a LIKE text with the text of its `ESCAPE` clause, if it has one.  No other escape
character than the backslash is understood. -/
def ofLike? (text : List Char) (escape : Option (List Char)) : Option Pattern :=
  match escape with
  | none => some (ofPlainLike text)
  | some ['\\'] => ofEscapedLike? text
  | some _ => none

/-- Has the pattern a percent sign of its own, so that its LIKE text needs an escape character? -/
def needsEscape (p : Pattern) : Bool := p.contains (.char '%')

def partText (escaped : Bool) : PatternPart → List Char
  | .wildcard => ['%']
  | .char c => if escaped && (c == '\\' || c == '%') then ['\\', c] else [c]

def likeText (p : Pattern) : List Char := p.flatMap (partText p.needsEscape)

/-- The text of the `ESCAPE` clause that the LIKE text of a pattern needs, if it needs one. -/
def likeEscape (p : Pattern) : Option (List Char) := if p.needsEscape then some ['\\'] else none

def likeSql (field : List Char) (p : Pattern) : List Char :=
  let comparison := field ++ " LIKE ".toList ++ Sql.string p.likeText
  match p.likeEscape with
  | none => comparison
  | some escape => comparison ++ " ESCAPE ".toList ++ Sql.string escape

end Pattern
end CatalogFilter
