import CatalogFilter.Expr.Basic
import CatalogFilter.Token.Lexer

/-!
# Reading expressions

A recursive descent over the tokens, from the loosest operator to the tightest:

* a disjunction is conjunctions joined by `OR`, a conjunction is negations joined by `AND`; both become
  binary nodes that lean to the left,
* a negation is a comparison, or `NOT` before one,
* a comparison is an operand, or two operands around an operator, or a range test; a trailing `ESCAPE`
  belongs to the comparison,
* an operand is a name, a literal, or a disjunction in parentheses.

The reader works on a cursor: the tokens that are left, the number of tokens passed, and the number of
parentheses that are open.  At most 200 may be open at a time.  The nesting budget is the argument of the
recursion, so each level of the grammar is written over a reader for what stands in parentheses.
-/

namespace CatalogFilter

/-! ## §1 Cursors and faults -/

/-- A place in a row of tokens. -/
structure Cursor where
  /-- The tokens that are left. -/
  rest : List Token
  /-- How many tokens have been passed. -/
  position : Nat
  /-- How many parentheses are open. -/
  depth : Nat
  deriving DecidableEq, Repr, Inhabited

/-- What stands where something else was expected: a token with its number, or the end. -/
abbrev Found := Option (Token × Nat)

def Found.shown : Found → String
  | some (token, number) => "'" ++ token.shown ++ "' (token " ++ toString number ++ ")"
  | none => "end of input"

/-- Why a row of tokens is no expression. -/
inductive ParseError where
  /-- An expression is complete, and a token follows it. -/
  | trailing (found : Found)
  /-- A parenthesis is not closed where its content ends. -/
  | expectedClose (found : Found)
  /-- The first bound of a range test is not followed by `AND`. -/
  | expectedAnd (found : Found)
  /-- No operand stands where there has to be one. -/
  | expectedOperand (found : Found)
  /-- Too many parentheses are open. -/
  | tooDeep
  deriving DecidableEq, Repr

/-- The most parentheses that may be open at a time. -/
def maxDepth : Nat := 200

def ParseError.message : ParseError → String
  | .trailing found => "Unexpected " ++ found.shown
  | .expectedClose found => "Expected ')', got " ++ found.shown
  | .expectedAnd found => "Expected AND in BETWEEN, got " ++ found.shown
  | .expectedOperand none => "Expected operand, but reached end of input"
  | .expectedOperand found => "Expected operand, got " ++ found.shown
  | .tooDeep => "Expression too deeply nested (max depth: " ++ toString maxDepth ++ ")"

namespace Cursor

def start (tokens : List Token) : Cursor := ⟨tokens, 0, 0⟩

def advance (c : Cursor) : Cursor := ⟨c.rest.tail, c.position + 1, c.depth⟩

def keyword? (c : Cursor) : Option Keyword := c.rest.head?.bind Token.keyword?

def found (c : Cursor) : Found := c.rest.head?.map fun token => (token, c.position + 1)

def deeper (c : Cursor) : Cursor := { c with depth := c.depth + 1 }

def shallower (c : Cursor) : Cursor := { c with depth := c.depth - 1 }

end Cursor

/-! ## §2 The levels of the grammar -/

namespace Parser

/-- An expression or a fault, and where the reader stopped. -/
abbrev Outcome := Except ParseError Expr × Cursor

/-- Reads an expression at a cursor. -/
abbrev Reader := Cursor → Outcome

/-- Goes on after an expression; a fault ends the reading. -/
def andThen (outcome : Outcome) (next : Expr → Reader) : Outcome :=
  match outcome with
  | (.ok e, c) => next e c
  | (.error fault, c) => (.error fault, c)

/-- Nothing stands in the parentheses that may be opened. -/
def fail (fault : ParseError) : Reader := fun c => (.error fault, c)

/-- What stands in a pair of parentheses, which leaves no node of its own. -/
def group (inside : Reader) : Reader := fun c =>
  -- the depth is raised before it is checked, and a fault leaves it raised
  if maxDepth < c.deeper.depth then (.error .tooDeep, c.deeper)
  else
    andThen (inside c.deeper.advance) fun e c =>
      match c.rest with
      | ⟨.closeParen, _⟩ :: _ => (.ok e, c.advance.shallower)
      | _ => (.error (.expectedClose c.found), c)

/-- An operand: a name, a literal, or an expression in parentheses. -/
def operand (inside : Reader) : Reader := fun c =>
  match c.rest with
  | ⟨.identifier, text⟩ :: _ => (.ok (.name text), c.advance)
  | ⟨.literal kind, text⟩ :: _ => (.ok (.literal kind text), c.advance)
  | ⟨.openParen, _⟩ :: _ => group inside c
  | _ => (.error (.expectedOperand c.found), c)

/-- The operator that a keyword puts between two operands. -/
def comparison? : Keyword → Option Operator
  | .equal => some .equal
  | .doubleEqual => some .doubleEqual
  | .notEqual => some .notEqual
  | .bangEqual => some .bangEqual
  | .lessThan => some .lessThan
  | .lessOrEqual => some .lessOrEqual
  | .greaterThan => some .greaterThan
  | .greaterOrEqual => some .greaterOrEqual
  | .like => some .like
  | .regexp => some .regexp
  | .is => some .is
  | _ => none

/-- A comparison that has been read, with the `ESCAPE` that may follow it. -/
def escaped (inside : Reader) (comparison : Expr) : Reader := fun c =>
  if c.keyword? = some .escape then
    andThen (operand inside c.advance) fun escape c => (.ok (.binary .escape comparison escape), c)
  else (.ok comparison, c)

/-- The bounds of a range test on a value that has been read, after `BETWEEN`. -/
def range (inside : Reader) (value : Expr) : Reader := fun c =>
  andThen (operand inside c) fun low c =>
    if c.keyword? = some .and then
      andThen (operand inside c.advance) fun high c =>
        escaped inside (.binary .between value (.binary .and low high)) c
    else (.error (.expectedAnd c.found), c)

/-- The second operand of a comparison whose operator stands at the cursor.  `IS` and `NOT` make one
operator. -/
def secondOperand (inside : Reader) (left : Expr) (op : Operator) : Reader := fun c =>
  if op = .is ∧ c.keyword? = some .not then
    andThen (operand inside c.advance) fun right c => escaped inside (.binary .isNot left right) c
  else
    andThen (operand inside c) fun right c => escaped inside (.binary op left right) c

def comparison (inside : Reader) : Reader := fun c =>
  andThen (operand inside c) fun left c =>
    match c.keyword? with
    -- an operand alone, or a keyword that belongs to a looser level
    | none => (.ok left, c)
    | some .between => range inside left c.advance
    | some keyword =>
      match comparison? keyword with
      | some op => secondOperand inside left op c.advance
      | none => (.ok left, c)

def negation (inside : Reader) : Reader := fun c =>
  if c.keyword? = some .not then
    andThen (comparison inside c.advance) fun e c => (.ok (.node .not [e]), c)
  else comparison inside c

/-- Goes on with a chain of one operator, whose left part has been read, for at most the given number
of links. -/
def chain (link : Reader) (keyword : Keyword) (op : Operator) : Nat → Expr → Reader
  | 0, left, c => (.ok left, c)
  | links + 1, left, c =>
    if c.keyword? = some keyword then
      andThen (link c.advance) fun right c => chain link keyword op links (.binary op left right) c
    else (.ok left, c)

/-- Negations joined by `AND`.  Each further link takes a token, so there are no more links than
tokens. -/
def conjunction (inside : Reader) : Reader := fun c =>
  andThen (negation inside c) fun left c => chain (negation inside) .and .and c.rest.length left c

def disjunction (inside : Reader) : Reader := fun c =>
  andThen (conjunction inside c) fun left c => chain (conjunction inside) .or .or c.rest.length left c

/-- An expression in which so many more parentheses may be open at a time. -/
def expression : Nat → Reader
  | 0 => disjunction (fail .tooDeep)
  | budget + 1 => disjunction (expression budget)

def whole : Reader := fun c =>
  -- a cursor may come with parentheses that an earlier call has left open
  andThen (expression (maxDepth - c.depth) c) fun e c =>
    if c.rest.isEmpty then (.ok e, c) else (.error (.trailing c.found), c)

end Parser

/-! ## §3 Filter texts -/

/-- Why a text is no filter. -/
inductive FilterError where
  | unclosed (what : Unclosed)
  | empty
  | parse (fault : ParseError)
  deriving DecidableEq, Repr

def FilterError.message : FilterError → String
  | .unclosed what => "Lex error: " ++ what.message
  | .empty => "Empty expression"
  | .parse fault => "Parse error: " ++ fault.message

namespace Expr

/-- Reads an expression from a row of tokens at a cursor that may have been moved by earlier reading.
`tokens` is the whole row: an empty one is a fault of its own. -/
def parseAt (tokens : List Token) (c : Cursor) : Except FilterError Expr × Cursor :=
  if tokens.isEmpty then (.error .empty, c)
  else
    match Parser.whole c with
    | (.ok e, c) => (.ok e, c)
    | (.error fault, c) => (.error (.parse fault), c)

def ofTokens (tokens : List Token) : Except FilterError Expr :=
  (parseAt tokens (.start tokens)).1

def parse (cs : List Char) : Except FilterError Expr :=
  match Lexer.tokenize cs with
  | .error unclosed => .error (.unclosed unclosed)
  | .ok tokens => ofTokens tokens

def ofString (s : String) : Except FilterError Expr := parse s.toList

def ofString? (s : String) : Option Expr := (ofString s).toOption

end Expr
end CatalogFilter
