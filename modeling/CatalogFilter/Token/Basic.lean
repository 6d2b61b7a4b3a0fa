import CatalogFilter.Text.Case

/-!
# Tokens

A filter text is read as a row of tokens: parentheses, identifiers, operators written as keywords or
symbols, and literals of five kinds.  A token carries its kind and its text; it carries no position,
because only the order of tokens has a meaning.
-/

namespace CatalogFilter

open Text

/-! ## §1 Keywords -/

/-- The words and symbols with a meaning of their own. -/
inductive Keyword where
  | and | or | not
  | equal | doubleEqual | notEqual | bangEqual
  | lessThan | lessOrEqual | greaterThan | greaterOrEqual
  | like | regexp | between | escape | is | null
  deriving DecidableEq, Repr, Inhabited

namespace Keyword

def all : List Keyword :=
  [and, or, not, equal, doubleEqual, notEqual, bangEqual, lessThan, lessOrEqual, greaterThan,
    greaterOrEqual, like, regexp, between, escape, is, null]

def text : Keyword → String
  | and => "AND"
  | or => "OR"
  | not => "NOT"
  | equal => "="
  | doubleEqual => "=="
  | notEqual => "<>"
  | bangEqual => "!="
  | lessThan => "<"
  | lessOrEqual => "<="
  | greaterThan => ">"
  | greaterOrEqual => ">="
  | like => "LIKE"
  | regexp => "REGEXP"
  | between => "BETWEEN"
  | escape => "ESCAPE"
  | is => "IS"
  | null => "NULL"

def name : Keyword → String
  | and => "And"
  | or => "Or"
  | not => "Not"
  | equal => "Equal"
  | doubleEqual => "DoubleEqual"
  | notEqual => "NotEqual"
  | bangEqual => "BangEqual"
  | lessThan => "LessThan"
  | lessOrEqual => "LessOrEqual"
  | greaterThan => "GreaterThan"
  | greaterOrEqual => "GreaterOrEqual"
  | like => "Like"
  | regexp => "Regexp"
  | between => "Between"
  | escape => "Escape"
  | is => "Is"
  | null => "Null"

/-- The keyword a text is, in whatever case its letters are written. -/
def ofChars? (cs : List Char) : Option Keyword :=
  all.find? fun k => k.text.toList == upperCase cs

def ofString? (s : String) : Option Keyword := ofChars? s.toList

theorem mem_all (k : Keyword) : k ∈ all := by cases k <;> decide

/-- A text is a keyword exactly when it is that keyword's written form up to case. -/
theorem ofChars?_eq_some_iff {cs : List Char} {k : Keyword} :
    ofChars? cs = some k ↔ upperCase cs = k.text.toList := by
  constructor
  · intro h
    have := List.find?_some h
    simpa using (beq_iff_eq.1 this).symm
  · intro h
    unfold ofChars?
    rw [h]
    cases k <;> decide

end Keyword

/-! ## §2 Tokens -/

/-- What a literal was written as.  A bare literal is a run of characters that is neither a keyword
nor a number nor a name. -/
inductive LiteralKind where
  | string | regex | number | null | bare
  deriving DecidableEq, Repr, Inhabited

/-- The kinds of token. -/
inductive TokenKind where
  | identifier
  | literal (kind : LiteralKind)
  | operator (keyword : Keyword)
  | openParen
  | closeParen
  deriving DecidableEq, Repr, Inhabited

/-- A kind of token together with the text that stands for it. -/
structure Token where
  kind : TokenKind
  text : String
  deriving DecidableEq, Repr, Inhabited

namespace Token

def identifier (name : List Char) : Token := ⟨.identifier, String.ofList name⟩

def literal (kind : LiteralKind) (value : List Char) : Token := ⟨.literal kind, String.ofList value⟩

/-- The operator token of a keyword in its written form. -/
def operator (keyword : Keyword) : Token := ⟨.operator keyword, keyword.text⟩

def openParen : Token := ⟨.openParen, "("⟩

def closeParen : Token := ⟨.closeParen, ")"⟩

def keyword? (t : Token) : Option Keyword :=
  match t.kind with
  | .operator k => some k
  | _ => none

/-- The text by which messages name a token: string and regular expression literals stand between
their delimiters, every other token for itself. -/
def shown (t : Token) : String :=
  match t.kind with
  | .literal .string => "'" ++ t.text ++ "'"
  | .literal .regex => "/" ++ t.text ++ "/"
  | _ => t.text

end Token

def LiteralKind.name : LiteralKind → String
  | .string => "String"
  | .regex => "Regex"
  | .number => "Number"
  | .null => "Null"
  | .bare => "Bare"

def TokenKind.name : TokenKind → String
  | .identifier => "Identifier"
  | .literal kind => "Literal(" ++ kind.name ++ ")"
  | .operator keyword => "Operator(" ++ keyword.name ++ ")"
  | .openParen => "OpenParen"
  | .closeParen => "CloseParen"

end CatalogFilter
