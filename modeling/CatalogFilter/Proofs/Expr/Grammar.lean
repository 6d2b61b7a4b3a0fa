import CatalogFilter.Expr.Parser
import CatalogFilter.Proofs.Expr.Nesting

/-!
# The grammar of filter expressions

The language that is read, written down without a reader:

* a disjunction is one or more conjunctions joined by `OR`, a conjunction one or more negations joined by
  `AND`; the trees of both lean to the left,
* a negation is a comparison, or `NOT` and a comparison,
* a comparison is an operand alone, or a test, or a test with an `ESCAPE` operand after it,
* a test is two operands around a comparison operator, or `value BETWEEN low AND high`,
* an operand is a name, a literal, or a disjunction in parentheses, which leave no node.

**Main definition**: `Derives level tokens e`, the tokens are derived at a level of the grammar with the
tree `e`.
-/

namespace CatalogFilter

/-! ## §1 Operators and their keywords -/

/-- The two operators that make chains. -/
inductive Connective where
  | and | or
  deriving DecidableEq, Repr

namespace Connective

/-- The operator of a chain. -/
def operator : Connective → Operator
  | and => .and
  | or => .or

/-- The keyword that joins the links of a chain. -/
def keyword : Connective → Keyword
  | and => .and
  | or => .or

end Connective

/-- The keywords that an operator of comparisons is written with, between its two operands. -/
def Operator.comparisonKeywords : Operator → List Keyword
  | .equal => [.equal]
  | .doubleEqual => [.doubleEqual]
  | .notEqual => [.notEqual]
  | .bangEqual => [.bangEqual]
  | .lessThan => [.lessThan]
  | .lessOrEqual => [.lessOrEqual]
  | .greaterThan => [.greaterThan]
  | .greaterOrEqual => [.greaterOrEqual]
  | .like => [.like]
  | .regexp => [.regexp]
  | .is => [.is]
  | .isNot => [.is, .not]
  | _ => []

/-- Do tokens write an operator of comparisons? -/
def Operator.WrittenBy (op : Operator) (ts : List Token) : Prop :=
  op.comparisonKeywords ≠ [] ∧ ts.map Token.kind = op.comparisonKeywords.map .operator

/-- The reader knows the operators by the same keywords, `IS NOT` apart, which begins as `IS` does. -/
theorem Parser.comparison?_eq_some_iff {k : Keyword} {op : Operator} :
    Parser.comparison? k = some op ↔ op.comparisonKeywords = [k] := by
  constructor
  · intro h
    cases k <;> simp [comparison?] at h <;> subst h <;> rfl
  · intro h
    cases op <;> simp [Operator.comparisonKeywords] at h <;> subst h <;> rfl

/-- An operator is written by one keyword, unless it is `IS NOT`. -/
theorem Operator.WrittenBy.eq_one_or_two {op : Operator} {ts : List Token} (h : op.WrittenBy ts) :
    (∃ (t : Token) (k : Keyword), ts = [t] ∧ t.kind = .operator k ∧ Parser.comparison? k = some op) ∨
    (∃ is not : Token, op = .isNot ∧ ts = [is, not] ∧ is.kind = .operator .is ∧
      not.kind = .operator .not) := by
  obtain ⟨hne, hkinds⟩ := h
  -- `IS NOT` is the only operator of two keywords
  by_cases hop : op = .isNot
  · subst hop
    obtain ⟨is, us, rfl, his, hus⟩ := List.map_eq_cons_iff.1 hkinds
    obtain ⟨not, rfl, hnot⟩ := List.map_eq_singleton_iff.1 hus
    exact .inr ⟨is, not, rfl, rfl, his, hnot⟩
  · obtain ⟨k, hk⟩ : ∃ k, op.comparisonKeywords = [k] := by
      cases op <;> simp_all [Operator.comparisonKeywords]
    rw [hk] at hkinds
    obtain ⟨t, rfl, ht⟩ := List.map_eq_singleton_iff.1 hkinds
    exact .inl ⟨t, k, rfl, ht, Parser.comparison?_eq_some_iff.2 hk⟩

/-! ## §2 Derivations -/

/-- The levels of the grammar. -/
inductive Level where
  | operand
  | test
  | comparison
  | negation
  | chain (c : Connective)
  deriving DecidableEq, Repr

/-- What a chain links: an `AND` links negations, an `OR` links conjunctions. -/
def Connective.link : Connective → Level
  | and => .negation
  | or => .chain .and

/-- Tokens that are derived at a level of the grammar, with their tree. -/
inductive Derives : Level → List Token → Expr → Prop where
  /-- A name. -/
  | name {t : Token} (ht : t.kind = .identifier) :
      Derives .operand [t] (.name t.text)
  /-- A literal of any kind. -/
  | literal {t : Token} {kind : LiteralKind} (ht : t.kind = .literal kind) :
      Derives .operand [t] (.literal kind t.text)
  /-- A disjunction in parentheses, which leave no node. -/
  | group {opening closing : Token} {ts : List Token} {e : Expr}
      (ho : opening.kind = .openParen) (hc : closing.kind = .closeParen)
      (h : Derives (.chain .or) ts e) :
      Derives .operand (opening :: (ts ++ [closing])) e
  /-- Two operands around an operator of one or two words. -/
  | compared {op : Operator} {ls ops rs : List Token} {left right : Expr}
      (hl : Derives .operand ls left) (ho : op.WrittenBy ops) (hr : Derives .operand rs right) :
      Derives .test (ls ++ (ops ++ rs)) (.binary op left right)
  /-- A value and its two bounds, which are an AND of their own. -/
  | between {between and : Token} {vs ls hs : List Token} {value low high : Expr}
      (hv : Derives .operand vs value) (hb : between.kind = .operator .between)
      (hl : Derives .operand ls low) (ha : and.kind = .operator .and)
      (hh : Derives .operand hs high) :
      Derives .test (vs ++ between :: (ls ++ and :: hs))
        (.binary .between value (.binary .and low high))
  /-- An operand alone. -/
  | operand {ts : List Token} {e : Expr} (h : Derives .operand ts e) :
      Derives .comparison ts e
  /-- A test alone. -/
  | test {ts : List Token} {e : Expr} (h : Derives .test ts e) :
      Derives .comparison ts e
  /-- A test with an escape operand after it. -/
  | escaped {escape : Token} {ts xs : List Token} {e x : Expr}
      (h : Derives .test ts e) (hk : escape.kind = .operator .escape) (hx : Derives .operand xs x) :
      Derives .comparison (ts ++ escape :: xs) (.binary .escape e x)
  /-- A comparison without `NOT`. -/
  | plain {ts : List Token} {e : Expr} (h : Derives .comparison ts e) :
      Derives .negation ts e
  /-- A comparison after one `NOT`. -/
  | negated {not : Token} {ts : List Token} {e : Expr}
      (hn : not.kind = .operator .not) (h : Derives .comparison ts e) :
      Derives .negation (not :: ts) (.node .not [e])
  /-- A chain of one link. -/
  | first {c : Connective} {ts : List Token} {e : Expr} (h : Derives c.link ts e) :
      Derives (.chain c) ts e
  /-- A chain with a further link behind it. -/
  | joined {c : Connective} {joint : Token} {ls rs : List Token} {left right : Expr}
      (hl : Derives (.chain c) ls left) (hj : joint.kind = .operator c.keyword)
      (hr : Derives c.link rs right) :
      Derives (.chain c) (ls ++ joint :: rs) (.binary c.operator left right)

/-! ## §3 What derived tokens look like -/

theorem Operator.WrittenBy.bracket {op : Operator} {ts : List Token} (h : op.WrittenBy ts) :
    ∀ t ∈ ts, t.bracket = .neither := by
  intro t ht
  have hk : t.kind ∈ op.comparisonKeywords.map TokenKind.operator := by
    rw [← h.2]
    exact List.mem_map_of_mem ht
  obtain ⟨k, _, hk⟩ := List.mem_map.1 hk
  exact Token.bracket_of_operator hk.symm

namespace Derives

variable {level : Level} {ts : List Token} {e : Expr}

/-- Every parenthesis of an expression is closed in it. -/
theorem balanced (h : Derives level ts e) : Balanced Token.bracket (nesting ts) ts := by
  -- how many are open at a time follows, so it is enough that all are closed
  suffices h : ∃ k, Balanced Token.bracket k ts by
    obtain ⟨k, hk⟩ := h
    rwa [hk.nesting_eq]
  induction h with
  | name ht => exact ⟨0, Balanced.single (by simp [Token.bracket, ht])⟩
  | literal ht => exact ⟨0, Balanced.single (by simp [Token.bracket, ht])⟩
  -- only a group adds a level; all other tokens are no parentheses
  | group ho hc _ ih =>
    obtain ⟨k, hk⟩ := ih
    exact ⟨k + 1, hk.enclose (by simp [Token.bracket, ho]) (by simp [Token.bracket, hc])⟩
  | compared _ ho _ ihl ihr =>
    obtain ⟨k, hk⟩ := ihl
    obtain ⟨l, hl⟩ := ihr
    exact ⟨_, hk.append ((Balanced.of_forall ho.bracket).append hl)⟩
  | between _ hb _ ha _ ihv ihl ihh =>
    obtain ⟨k, hk⟩ := ihv
    obtain ⟨l, hl⟩ := ihl
    obtain ⟨m, hm⟩ := ihh
    have hbounds := hl.append (hm.cons (Token.bracket_of_operator ha))
    exact ⟨_, hk.append (hbounds.cons (Token.bracket_of_operator hb))⟩
  | operand _ ih => exact ih
  | test _ ih => exact ih
  | escaped _ hk _ ihe ihx =>
    obtain ⟨k, hk'⟩ := ihe
    obtain ⟨l, hl⟩ := ihx
    exact ⟨_, hk'.append (hl.cons (Token.bracket_of_operator hk))⟩
  | plain _ ih => exact ih
  | negated hn _ ih =>
    obtain ⟨k, hk⟩ := ih
    exact ⟨k, hk.cons (Token.bracket_of_operator hn)⟩
  | first _ ih => exact ih
  | joined _ hj _ ihl ihr =>
    obtain ⟨k, hk⟩ := ihl
    obtain ⟨l, hl⟩ := ihr
    exact ⟨_, hk.append (hl.cons (Token.bracket_of_operator hj))⟩

end Derives

end CatalogFilter
