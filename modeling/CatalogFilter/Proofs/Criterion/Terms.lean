import CatalogFilter.Criterion.FilterSet
import CatalogFilter.Proofs.Expr.Reading

/-!
# Terms of criteria

Each criterion stands for one comparison of a field.  Here the comparison is given as an expression, and it
is shown that its written form is read as this expression, whatever characters the criterion and the names
of the table and the field have.

**Main definition**: `Predicate.expr`.  **Main statement**: `Predicate.reads_render`.
-/

namespace CatalogFilter

open Text

/-! ## §1 The expression of a predicate -/

/-- The operator of expressions that a comparison is. -/
def Comparison.operator : Comparison → Operator
  | eq => .equal
  | ne => .notEqual
  | lt => .lessThan
  | le => .lessOrEqual
  | gt => .greaterThan
  | ge => .greaterOrEqual

theorem Comparison.keywords_operator (c : Comparison) : c.operator.comparisonKeywords ≠ [] := by
  cases c <;> simp [operator, Operator.comparisonKeywords]

theorem Comparison.text_operator (c : Comparison) : c.operator.text = c.symbol := by
  cases c <;> rfl

/-- A value to compare with: a number if it is numeric, a string otherwise. -/
def valueExpr (value : String) : Expr :=
  .literal (if isNumeric value.toList then .number else .string) value

/-- The comparison of a field with a pattern, which stands in an `ESCAPE` exactly if the pattern has a
percent sign of its own. -/
def Pattern.expr (field : Expr) (p : Pattern) : Expr :=
  let comparison := Expr.binary .like field (.literal .string (String.ofList p.likeText))
  if p.needsEscape then .binary .escape comparison (.literal .string "\\") else comparison

/-- The comparison of a field that a predicate stands for. -/
def Predicate.expr (field : Expr) : Predicate → Expr
  | .between low high =>
    .binary .between field (.binary .and (.literal .number low) (.literal .number high))
  | .regexp pattern => .binary .regexp field (.literal .string pattern)
  | .compare comparison value => .binary comparison.operator field (valueExpr value)
  | .isNull => .binary .is field (.literal .null "NULL")
  | .isNotNull => .binary .isNot field (.literal .null "NULL")
  | .like pattern => (Pattern.ofCriterion pattern.toList).expr field
  | .contains text => (Pattern.ofCriterion text.toList).anywhere.expr field

/-- The name of a field in an expression. -/
def FieldRef.expr (ref : FieldRef) : Expr := .name ref.dotted

/-! ## §2 What criteria are read as -/

namespace Predicate

/-- What holds of every predicate that a criterion is: the bounds of a range are numbers, a pattern has a
wildcard, and a text to be contained has none and is not empty. -/
def WellFormed : Predicate → Prop
  | .between low high => isNumeric low.toList = true ∧ isNumeric high.toList = true
  | .like pattern => (Pattern.ofCriterion pattern.toList).hasWildcard = true
  | .contains text => text.toList ≠ [] ∧ (Pattern.ofCriterion text.toList).hasWildcard = false
  | _ => True

/-- A range has two numbers. -/
theorem exists_of_range? {text : List Char} {p : Predicate} (h : range? text = some p) :
    ∃ low high, isNumeric low = true ∧ isNumeric high = true ∧
      p = .between (String.ofList low) (String.ofList high) := by
  unfold range? at h
  split at h
  next low high _ =>
    split at h
    next hnumeric =>
      simp only [Bool.and_eq_true] at hnumeric
      exact ⟨trim low, trim high, hnumeric.1, hnumeric.2, by simpa using h.symm⟩
    next => simp at h
  next => simp at h

/-- A regular expression stands between slashes. -/
theorem exists_of_regexp? {text : List Char} {p : Predicate} (h : regexp? text = some p) :
    ∃ pattern, text = '/' :: (pattern ++ ['/']) ∧ p = .regexp (String.ofList pattern) := by
  unfold regexp? at h
  split at h
  next c cs =>
    split at h
    next hlast =>
      -- the text is cut at its last slash, which may not be its first
      obtain ⟨pattern, hpattern⟩ := List.getLast?_eq_some_iff.1 hlast
      refine ⟨pattern, by rw [hpattern], ?_⟩
      rw [hpattern, List.dropLast_concat] at h
      simpa using h.symm
    next => simp at h
  next => simp at h

theorem wellFormed_of_range? {text : List Char} {p : Predicate} (h : range? text = some p) :
    p.WellFormed := by
  obtain ⟨low, high, hl, hh, rfl⟩ := exists_of_range? h
  simp [WellFormed, hl, hh]

theorem wellFormed_of_regexp? {text : List Char} {p : Predicate} (h : regexp? text = some p) :
    p.WellFormed := by
  obtain ⟨pattern, _, rfl⟩ := exists_of_regexp? h
  trivial

theorem wellFormed_of_comparison? {text : List Char} {p : Predicate} (h : comparison? text = some p) :
    p.WellFormed := by
  -- a comparison with NULL is a predicate of its own, and asks nothing of its value either
  have hof : ∀ comparison value, (ofComparison comparison value).WellFormed := by
    intro comparison value
    unfold ofComparison
    split
    · cases comparison <;> trivial
    · trivial
  obtain ⟨⟨comparison, value⟩, _, rfl⟩ := Option.map_eq_some_iff.1 h
  exact hof comparison (trim value)

theorem wellFormed_ofPatternText {text : List Char} (h : text ≠ []) :
    (ofPatternText text).WellFormed := by
  unfold ofPatternText
  split
  next hw => simpa [WellFormed] using hw
  next hw => exact ⟨by simpa using h, by simpa using hw⟩

theorem wellFormed_ofTrimmed {text : List Char} (h : text ≠ []) : (ofTrimmed text).WellFormed := by
  unfold ofTrimmed
  -- in the order in which the forms are tried
  cases hrange : range? text with
  | some p => exact wellFormed_of_range? hrange
  | none =>
    cases hregexp : regexp? text with
    | some p => exact wellFormed_of_regexp? hregexp
    | none =>
      cases hcomparison : comparison? text with
      | some p => exact wellFormed_of_comparison? hcomparison
      | none => exact wellFormed_ofPatternText h

theorem wellFormed_of_ofCriterion? {criterion : String} {p : Predicate}
    (h : ofCriterion? criterion = some p) : p.WellFormed := by
  unfold ofCriterion? classify? at h
  split at h
  next => simp at h
  next c cs _ =>
    obtain rfl : ofTrimmed (c :: cs) = p := by simpa using h
    exact wellFormed_ofTrimmed (List.cons_ne_nil c cs)

/-- Only a blank text is no criterion. -/
theorem ofCriterion?_eq_none_iff {criterion : String} :
    ofCriterion? criterion = none ↔ trim criterion.toList = [] := by
  unfold ofCriterion? classify?
  split <;> simp_all

end Predicate

/-! ## §3 Written terms are read as their expressions -/

theorem FieldRef.reads_render (ref : FieldRef) : Reads .operand 0 ref.render ref.expr := by
  have hname : String.ofList (ref.table.toList ++ '.' :: ref.field.toList) = ref.dotted := by
    rw [← String.toList_inj]
    simp [FieldRef.dotted, String.toList_append]
  have hread := Reads.field ref.table.toList ref.field.toList
  rwa [hname] at hread

theorem reads_string (s : String) : Reads .operand 0 (Sql.string s.toList) (.literal .string s) := by
  have hread := Reads.string s.toList
  rwa [String.ofList_toList] at hread

theorem reads_number {s : String} (h : isNumeric s.toList = true) :
    Reads .operand 0 s.toList (.literal .number s) := by
  simp only [isNumeric, Bool.and_eq_true] at h
  have hread := Reads.number h.1
  rwa [String.ofList_toList] at hread

theorem reads_operand (value : String) :
    Reads .operand 0 (Predicate.operand value.toList) (valueExpr value) := by
  -- the same test decides how a value is written and as which literal it is expected
  by_cases h : isNumeric value.toList = true
  · simpa [Predicate.operand, valueExpr, h] using reads_number h
  · simpa [Predicate.operand, valueExpr, h] using reads_string value

theorem Pattern.reads_likeSql {field : List Char} {name : Expr} (hf : Reads .operand 0 field name)
    (p : Pattern) : Reads .comparison 0 (p.likeSql field) (p.expr name) := by
  have htext : Reads .operand 0 (Sql.string p.likeText)
      (.literal .string (String.ofList p.likeText)) := Reads.string _
  have hlike := hf.compared .like (by decide) htext
  have hform : joinedBy Operator.like.text.toList field (Sql.string p.likeText) =
      field ++ " LIKE ".toList ++ Sql.string p.likeText := by
    simp [joinedBy, Operator.text]
  rw [hform] at hlike
  -- the `ESCAPE` is written exactly if the pattern needs it
  by_cases h : p.needsEscape = true
  · have hescape := hlike.escaped (reads_string "\\")
    simpa [likeSql, likeEscape, expr, h, joinedBy, Keyword.text] using hescape
  · simpa [likeSql, likeEscape, expr, h] using hlike.lift fun _ hd => hd.test

/-- **Every term is read as the comparison of its predicate**, with the name of its field. -/
theorem Predicate.reads_render {p : Predicate} (h : p.WellFormed) (ref : FieldRef) :
    Reads .comparison 0 (p.render ref.render) (p.expr ref.expr) := by
  have hf := ref.reads_render
  -- all but ranges and patterns are a field, an operator and an operand
  have hcompared : ∀ (op : Operator) {text : List Char} {x : Expr}, op.comparisonKeywords ≠ [] →
      Reads .operand 0 text x →
      Reads .comparison 0 (joinedBy op.text.toList ref.render text) (.binary op ref.expr x) := by
    intro op text x ho hx
    exact (hf.compared op ho hx).lift fun _ hd => hd.test
  cases p with
  | between low high =>
    have hbetween := (hf.between (reads_number h.1) (reads_number h.2)).lift fun _ hd => hd.test
    simpa [render, expr, joinedBy, Keyword.text] using hbetween
  | regexp pattern =>
    have hregexp := hcompared .regexp (by decide) (reads_string pattern)
    simpa [render, expr, joinedBy, Operator.text] using hregexp
  | compare comparison value =>
    have hcompare := hcompared comparison.operator comparison.keywords_operator (reads_operand value)
    simpa [render, expr, joinedBy, comparison.text_operator] using hcompare
  | isNull =>
    have hnull := hcompared .is (by decide) Reads.null
    simpa [render, expr, joinedBy, Operator.text] using hnull
  | isNotNull =>
    have hnull := hcompared .isNot (by decide) Reads.null
    simpa [render, expr, joinedBy, Operator.text] using hnull
  | like pattern => exact Pattern.reads_likeSql hf _
  | contains text => exact Pattern.reads_likeSql hf _

/-- A comparison that stands alone is a filter. -/
theorem Reads.ofString {text : List Char} {e : Expr} (h : Reads .comparison 0 text e) :
    Expr.ofString (String.ofList text) = .ok e := by
  have hread : Reads (.chain .or) 0 text e := h.raise (by simp) (by decide)
  rw [Expr.ofString, String.toList_ofList]
  exact hread.parse (Nat.zero_le maxDepth)

/-- The text of a term is read as its comparison. -/
theorem Predicate.ofString_sql {p : Predicate} (h : p.WellFormed) (ref : FieldRef) :
    Expr.ofString (p.sql ref) = .ok (p.expr ref.expr) :=
  (reads_render h ref).ofString

/-! ## §4 Terms do not flatten -/

theorem Pattern.flattenChains_expr (ref : FieldRef) (p : Pattern) :
    (p.expr ref.expr).flattenChains = p.expr ref.expr := by
  unfold expr
  split <;> rfl

/-- A term has no chain in it; the bounds of a range are an AND of two literals. -/
theorem Predicate.flattenChains_expr (p : Predicate) (ref : FieldRef) :
    (p.expr ref.expr).flattenChains = p.expr ref.expr := by
  cases p with
  | compare comparison value => cases comparison <;> rfl
  | between | regexp | isNull | isNotNull => rfl
  | like pattern => exact Pattern.flattenChains_expr ref _
  | contains text => exact Pattern.flattenChains_expr ref _

theorem Pattern.chainOf_expr (c : Connective) (field : Expr) (p : Pattern) :
    Expr.chainOf c.operator (p.expr field) = [p.expr field] := by
  unfold expr
  cases c <;> split <;> rfl

theorem Predicate.chainOf_expr (c : Connective) (p : Predicate) (field : Expr) :
    Expr.chainOf c.operator (p.expr field) = [p.expr field] := by
  cases p with
  -- no operator of a comparison is a connective
  | compare comparison value => cases c <;> cases comparison <;> rfl
  | between | regexp | isNull | isNotNull => cases c <;> rfl
  | like pattern => exact Pattern.chainOf_expr c field _
  | contains text => exact Pattern.chainOf_expr c field _

end CatalogFilter
