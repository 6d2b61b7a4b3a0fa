import CatalogFilter.Catalog.Column
import CatalogFilter.Like.Pattern
import CatalogFilter.Text.Blank
import CatalogFilter.Text.Split

/-!
# Criteria

A criterion is the text that filters one column.  It is a small language of its own:

| text          | predicate                        |
|---------------|----------------------------------|
| `10~20`       | in the range from 10 to 20       |
| `/^Ar.*/`     | matches a regular expression     |
| `>1990`       | compares with a value            |
| `=NULL`       | has no value                     |
| `Pac%`        | matches a pattern                |
| `pac`         | contains a text                  |

**Main definitions**: `Predicate.classify?` reads a criterion, `Predicate.criterion` writes one, and
`Predicate.render` writes the comparison of a field that a criterion stands for.
-/

namespace CatalogFilter

open Text

/-! ## §1 Comparisons -/

/-- The comparisons of criteria. -/
inductive Comparison where
  | eq | ne | lt | le | gt | ge
  deriving DecidableEq, Repr, Inhabited

namespace Comparison

/-- The comparisons in the order in which their symbols are looked for: those of two characters
come first. -/
def all : List Comparison := [ne, ge, le, eq, gt, lt]

def symbol : Comparison → String
  | eq => "="
  | ne => "<>"
  | lt => "<"
  | le => "<="
  | gt => ">"
  | ge => ">="

def ofSymbol? (s : String) : Option Comparison := all.find? fun c => c.symbol == s

/-- The comparison that keeps the meaning when its operands change sides. -/
def flipped : Comparison → Comparison
  | lt => gt
  | le => ge
  | gt => lt
  | ge => le
  | eq => eq
  | ne => ne

@[simp] theorem flipped_flipped (c : Comparison) : c.flipped.flipped = c := by cases c <;> rfl

def after? (symbol text : List Char) : Option (List Char) :=
  if symbol.isPrefixOf text then some (text.drop symbol.length) else none

/-- The comparison whose symbol stands at the front of a text, and what follows the symbol. -/
def leading? (text : List Char) : Option (Comparison × List Char) :=
  -- the first that fits, so that no symbol is read as the beginning of a longer one
  all.findSome? fun c => (after? c.symbol.toList text).map fun rest => (c, rest)

end Comparison

/-! ## §2 Predicates -/

/-- What a criterion asks of a value. -/
inductive Predicate where
  | between (low high : String)
  | regexp (pattern : String)
  | compare (comparison : Comparison) (value : String)
  | isNull
  | isNotNull
  | like (pattern : String)
  | contains (text : String)
  deriving DecidableEq, Repr, Inhabited

namespace Predicate

/-- The range that a text is: two numeric texts around a `~`. -/
def range? (text : List Char) : Option Predicate :=
  match splitFirst '~' text with
  | some (low, high) =>
    if isNumeric (trim low) && isNumeric (trim high) then
      some (.between (String.ofList (trim low)) (String.ofList (trim high)))
    else none
  | none => none

/-- The regular expression that a text is: anything between two slashes. -/
def regexp? (text : List Char) : Option Predicate :=
  match text with
  | '/' :: c :: cs =>
    if (c :: cs).getLast? = some '/' then some (.regexp (String.ofList (c :: cs).dropLast)) else none
  | _ => none

/-- The predicate of a comparison with a value.  Equal to `NULL` means to have no value. -/
def ofComparison (comparison : Comparison) (value : List Char) : Predicate :=
  if upperCase value = "NULL".toList then
    match comparison with
    | .eq => .isNull
    | .ne => .isNotNull
    | _ => .compare comparison (String.ofList value)
  else .compare comparison (String.ofList value)

/-- The comparison that a text is: a symbol and a value. -/
def comparison? (text : List Char) : Option Predicate :=
  (Comparison.leading? text).map fun (comparison, value) => ofComparison comparison (trim value)

/-- The pattern that a text is, or the text to be contained if it has no wildcard. -/
def ofPatternText (text : List Char) : Predicate :=
  if (Pattern.ofCriterion text).hasWildcard then .like (String.ofList text)
  else .contains (String.ofList text)

def ofTrimmed (text : List Char) : Predicate :=
  -- the order decides: a text that has two forms is what comes first
  (range? text <|> regexp? text <|> comparison? text).getD (ofPatternText text)

/-- The predicate that a criterion is.  A blank text is no criterion. -/
def classify? (criterion : List Char) : Option Predicate :=
  match trim criterion with
  | [] => none
  | c :: cs => some (ofTrimmed (c :: cs))

def ofCriterion? (criterion : String) : Option Predicate := classify? criterion.toList

/-! ## §3 Written forms -/

def criterion : Predicate → String
  | .between low high => low ++ "~" ++ high
  | .regexp pattern => "/" ++ pattern ++ "/"
  | .compare comparison value => comparison.symbol ++ value
  | .isNull => "=NULL"
  | .isNotNull => "<>NULL"
  | .like pattern => pattern
  | .contains text => text

/-- A value to compare with: a number as it is, anything else as a quoted string. -/
def operand (value : List Char) : List Char :=
  if isNumeric value then value else Sql.string value

/-- The comparison of a field, given in its written form, that a predicate stands for. -/
def render (field : List Char) : Predicate → List Char
  | .between low high => field ++ " BETWEEN ".toList ++ low.toList ++ " AND ".toList ++ high.toList
  | .regexp pattern => field ++ " REGEXP ".toList ++ Sql.string pattern.toList
  | .compare comparison value =>
    field ++ ' ' :: comparison.symbol.toList ++ ' ' :: operand value.toList
  | .isNull => field ++ " IS NULL".toList
  | .isNotNull => field ++ " IS NOT NULL".toList
  | .like pattern => Pattern.likeSql field (Pattern.ofCriterion pattern.toList)
  | .contains text => Pattern.likeSql field (Pattern.anywhere (Pattern.ofCriterion text.toList))

/-- The predicate of a pattern that a field is compared with.  A pattern that has wildcards at its two
ends, something between them and no other wildcard asks for a contained text; a pattern without
wildcards has no predicate. -/
def ofPattern? (p : Pattern) : Option Predicate :=
  match p.contained? with
  -- the wildcards are those that the term of a contained text has anyway
  | some inner => inner.toCriterion?.map fun text => .contains (String.ofList text)
  | none =>
    if p.hasWildcard then p.toCriterion?.map fun text => .like (String.ofList text) else none

/-- The predicate of a LIKE text with the text of its `ESCAPE` clause, if it has one. -/
def ofLike? (text : List Char) (escape : Option (List Char)) : Option Predicate :=
  (Pattern.ofLike? text escape).bind ofPattern?

end Predicate

def FieldRef.render (ref : FieldRef) : List Char := Sql.field ref.table.toList ref.field.toList

def FieldRef.sql (ref : FieldRef) : String := String.ofList ref.render

def Predicate.sql (p : Predicate) (ref : FieldRef) : String := String.ofList (p.render ref.render)

end CatalogFilter
