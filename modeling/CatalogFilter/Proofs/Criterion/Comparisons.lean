import CatalogFilter.Proofs.Criterion.Meaning

/-!
# Comparisons of columns

A comparison of a column with a literal has a criterion if the criterion is read as the same predicate.  A
predicate has the text of the literal but not its kind, and the term of a criterion has a number wherever the
text is numeric and a string wherever it is not.  So the term of such a criterion has the column, the operator
and the text of the comparison that it came from; it has the literal exactly if the literal is of the kind
that its text is taken for.

**Main definitions**: `FieldTest` and `Constant.Settled`.  **Main statement**: `Catalog.criterion?_compares`.
-/

namespace CatalogFilter

open Text

/-! ## §1 Constants -/

/-- A literal, without the way in which a text is written. -/
inductive Constant where
  | number (value : String)
  | text (value : String)
  | null
  deriving DecidableEq, Repr

namespace Constant

/-- Strings, regular expressions and bare words are texts. -/
def ofLiteral : LiteralKind → String → Constant
  | .null, _ => .null
  | .number, value => .number value
  | .string, value | .regex, value | .bare, value => .text value

def value? : Constant → Option String
  | number value | text value => some value
  | null => none

/-- Is a constant of the kind that its text is taken for? -/
def Settled : Constant → Prop
  | number value => isNumeric value.toList = true
  | text value => isNumeric value.toList = false
  | null => True

/-- The constant that the text of a constant is taken for. -/
def settle : Constant → Constant
  | number value | text value => if isNumeric value.toList then number value else text value
  | null => null

/-- A text is taken for a number or a string, whatever kind the literal has. -/
theorem settle_ofLiteral {kind : LiteralKind} (h : kind ≠ .null) (value : String) :
    (ofLiteral kind value).settle =
      ofLiteral (if isNumeric value.toList then .number else .string) value := by
  cases hn : isNumeric value.toList <;> cases kind <;> simp [ofLiteral, settle, hn] at h ⊢

theorem settle_eq_self_iff (c : Constant) : c.settle = c ↔ c.Settled := by
  cases c <;> simp [settle, Settled]

theorem value?_settle (c : Constant) : c.settle.value? = c.value? := by
  cases c with
  | null => rfl
  | number value | text value =>
    rw [settle]
    split <;> rfl

theorem map_settle_eq_self_iff (cs : List Constant) : cs.map settle = cs ↔ ∀ c ∈ cs, c.Settled := by
  have hmap : cs.map settle = cs.map id ↔ ∀ c ∈ cs, c.settle = id c := List.map_inj_left
  rw [List.map_id] at hmap
  simpa [settle_eq_self_iff] using hmap

theorem map_value?_settle (cs : List Constant) : (cs.map settle).map value? = cs.map value? := by
  simp [value?_settle]

end Constant

/-! ## §2 What a comparison says -/

/-- A test of a named field against constants. -/
structure FieldTest where
  /-- The name of the field, as it is written. -/
  name : String
  operator : Operator
  /-- One constant, or the two bounds of a range. -/
  constants : List Constant
  deriving DecidableEq, Repr

/-- The operator by which a comparison with a literal is written: to be equal to NULL is to be it. -/
def Comparison.operatorWith (c : Comparison) (kind : LiteralKind) : Operator :=
  match kind, c with
  | .null, .eq => .is
  | .null, .ne => .isNot
  | _, c => c.operator

theorem Comparison.operatorWith_of_ne_null {kind : LiteralKind} (h : kind ≠ .null) (c : Comparison) :
    c.operatorWith kind = c.operator := by
  cases kind with
  | null => exact absurd rfl h
  | number | string | regex | bare => cases c <;> rfl

/-- The operator that stands before a literal, with one spelling for each. -/
def Operator.spelled? (kind : LiteralKind) : Operator → Option Operator
  | .is => some .is
  | .isNot => some .isNot
  | op => (Expr.comparisonOf? op).map fun c => c.operatorWith kind

namespace Expr

/-- Is an expression a comparison of two operands, or a range test? -/
def Compares : Expr → Prop
  | .node op _ => (comparisonOf? op).isSome ∨ op = .between
  | _ => False

/-- A comparison with a name on its right has its operands exchanged. -/
def nameLeft : Expr → Expr
  | .node op [.literal kind value, .name field] =>
    match comparisonOf? op with
    | some c => .node c.flipped.operator [.name field, .literal kind value]
    | none => .node op [.literal kind value, .name field]
  | e => e

/-- The test that an expression is which has a name on its left. -/
def fieldTest? : Expr → Option FieldTest
  | .node .between [.name field, .node .and [.literal kind low, .literal kind' high]] =>
    some ⟨field, .between, [.ofLiteral kind low, .ofLiteral kind' high]⟩
  | .node op [.name field, .literal kind value] =>
    (op.spelled? kind).map fun op => ⟨field, op, [.ofLiteral kind value]⟩
  | _ => none

theorem comparisonOf?_operator (c : Comparison) : comparisonOf? c.operator = some c := by
  cases c <;> rfl

theorem fieldTest?_compared {op : Operator} {c : Comparison} (h : comparisonOf? op = some c)
    (field : String) (kind : LiteralKind) (value : String) :
    fieldTest? (.node op [.name field, .literal kind value]) =
      some ⟨field, c.operatorWith kind, [.ofLiteral kind value]⟩ := by
  -- operator by operator: two spellings of a comparison come to one
  have hspelled : op.spelled? kind = some (c.operatorWith kind) := by
    cases op <;> simp [comparisonOf?] at h <;> subst h <;> rfl
  simp [fieldTest?, hspelled]

end Expr

/-! ## §3 Terms of the criteria of comparisons -/

/-- The term of a comparison has its operator, and its literal as the text of it is taken. -/
theorem Predicate.fieldTest?_expr_compared {c : Comparison} {kind : LiteralKind} {value : String}
    {p : Predicate} (h : Expr.comparePredicate? c kind value = some p) (ref : FieldRef) :
    (p.expr ref.expr).fieldTest? =
      some ⟨ref.dotted, c.operatorWith kind, [(Constant.ofLiteral kind value).settle]⟩ := by
  by_cases hkind : kind = .null
  · subst hkind
    cases c <;> simp [Expr.comparePredicate?] at h <;> subst h <;> rfl
  · -- the value is written as a number or as a string
    obtain rfl : Predicate.compare c value = p := by
      cases kind <;> simp [Expr.comparePredicate?] at h hkind <;> exact h
    have hwritten : (if isNumeric value.toList then LiteralKind.number else .string) ≠ .null := by
      split <;> simp
    have htest := Expr.fieldTest?_compared (Expr.comparisonOf?_operator c) ref.dotted
      (if isNumeric value.toList then .number else .string) value
    rw [c.operatorWith_of_ne_null hwritten] at htest
    rw [c.operatorWith_of_ne_null hkind, Constant.settle_ofLiteral hkind]
    exact htest

namespace Expr

/-- The term of the predicate of a comparison has its operator and constants. -/
theorem exists_fieldTest?_of_predicate? {term : Expr} {name : String} {p : Predicate}
    (hterm : term.Compares) (h : term.predicate? = some (name, p)) (hwell : p.WellFormed) :
    ∃ test, term.nameLeft.fieldTest? = some test ∧ test.name = name ∧
      ∀ ref : FieldRef, (p.expr ref.expr).fieldTest? =
        some ⟨ref.dotted, test.operator, test.constants.map Constant.settle⟩ := by
  unfold predicate? at h
  split at h
  case h_4 field low high =>
    -- the bounds of a range are numbers
    obtain ⟨low', hlow, hrest⟩ := Option.bind_eq_some_iff.1 h
    obtain ⟨high', hhigh, hsome⟩ := Option.bind_eq_some_iff.1 hrest
    obtain ⟨rfl, rfl⟩ : field = name ∧ Predicate.between low' high' = p := by simpa using hsome
    obtain ⟨kind, rfl⟩ := exists_literal_of_value? hlow
    obtain ⟨kind', rfl⟩ := exists_literal_of_value? hhigh
    refine ⟨_, rfl, rfl, fun ref => ?_⟩
    have hsettle : ∀ {kind value}, value? (.literal kind value) = some value →
        isNumeric value.toList = true → (Constant.ofLiteral kind value).settle = .number value := by
      intro kind value hvalue hn
      have hkind : kind ≠ .null := by
        rintro rfl
        simp [value?] at hvalue
      rw [Constant.settle_ofLiteral hkind, if_pos hn]
      rfl
    rw [List.map_cons, List.map_singleton, hsettle hlow hwell.1, hsettle hhigh hwell.2]
    rfl
  case h_7 op field kind value _ _ _ _ =>
    -- a comparison, with the name on its left or on its right
    obtain ⟨c, hc, hrest⟩ := Option.bind_eq_some_iff.1 h
    obtain ⟨p', hp, hsome⟩ := Option.bind_eq_some_iff.1 hrest
    obtain ⟨rfl, rfl⟩ : field = name ∧ p' = p := by simpa using hsome
    exact ⟨_, fieldTest?_compared hc field kind value, rfl, Predicate.fieldTest?_expr_compared hp⟩
  case h_8 op kind value field =>
    obtain ⟨c, hc, hrest⟩ := Option.bind_eq_some_iff.1 h
    obtain ⟨p', hp, hsome⟩ := Option.bind_eq_some_iff.1 hrest
    obtain ⟨rfl, rfl⟩ : field = name ∧ p' = p := by simpa using hsome
    have hleft : nameLeft (.node op [.literal kind value, .name field]) =
        .node c.flipped.operator [.name field, .literal kind value] := by
      simp [nameLeft, hc]
    rw [hleft]
    exact ⟨_, fieldTest?_compared (comparisonOf?_operator c.flipped) field kind value, rfl,
      Predicate.fieldTest?_expr_compared hp⟩
  case h_9 => simp at h
  -- all other forms are no comparisons
  case h_1 | h_2 | h_3 | h_5 | h_6 => simp [Compares, comparisonOf?] at hterm

end Expr

/-- **The criterion of a comparison says what the comparison says**, up to the kinds of its literals.  Its
term is read as a test of the same column, with the same operator and the same texts, and with the same
constants exactly if each of them is of the kind that its text is taken for. -/
theorem Catalog.criterion?_compares {catalog : Catalog} {term : Expr} {id criterion : String}
    (hnames : catalog.NameSafe) (hterm : term.Compares)
    (h : catalog.criterion? term = some (id, criterion)) :
    ∃ column ∈ catalog.columns, ∃ ref p test, column.id = id ∧ column.filterField = some ref ∧
      Predicate.ofCriterion? criterion = some p ∧
      term.nameLeft.fieldTest? = some test ∧ catalog.resolve? test.name = some column ∧
      ∃ again test', Expr.ofString (p.sql ref) = .ok again ∧ again.fieldTest? = some test' ∧
        catalog.resolve? test'.name = some column ∧ test'.operator = test.operator ∧
        test'.constants.map Constant.value? = test.constants.map Constant.value? ∧
        (test'.constants = test.constants ↔ ∀ c ∈ test.constants, c.Settled) := by
  obtain ⟨name, p, column, hp, hcolumn, hread, rfl, rfl⟩ := criterion?_eq_some_iff.1 h
  have hfilterable : column ∈ catalog.filterable := mem_filterable_of_resolve? hcolumn
  obtain ⟨hmem, hfield⟩ := List.mem_filter.1 hfilterable
  obtain ⟨ref, href⟩ := Option.isSome_iff_exists.1 hfield
  -- the guard: the criterion is read as the predicate, so that this is well formed
  have hwell : p.WellFormed := Predicate.wellFormed_of_ofCriterion? hread
  obtain ⟨test, htest, rfl, hagain⟩ := Expr.exists_fieldTest?_of_predicate? hterm hp hwell
  refine ⟨column, hmem, ref, p, test, rfl, href, hread, htest, hcolumn, p.expr ref.expr, _,
    Predicate.ofString_sql hwell ref, hagain ref, ?_, rfl, ?_, ?_⟩
  · exact resolve?_dotted hmem href (hnames column hfilterable ref href)
  · exact Constant.map_value?_settle test.constants
  · exact Constant.map_settle_eq_self_iff test.constants

/-- A word that is no number stays a text. -/
theorem Catalog.criterion?_compares_text :
    let column : Column := ⟨"name", "Name", some ⟨"Games", "name"⟩, .text, true, true⟩
    let catalog : Catalog := .ofCompatible [column] (List.pairwise_singleton _ _)
    let term : Expr := .node .lessThan [.literal .bare "Pac", .name "Games.name"]
    catalog.NameSafe ∧ term.Compares ∧ catalog.criterion? term = some ("name", ">Pac") ∧
      ∃ column ∈ catalog.columns, ∃ ref p test, column.id = "name" ∧ column.filterField = some ref ∧
        Predicate.ofCriterion? ">Pac" = some p ∧
        term.nameLeft.fieldTest? = some test ∧ catalog.resolve? test.name = some column ∧
        ∃ again test', Expr.ofString (p.sql ref) = .ok again ∧ again.fieldTest? = some test' ∧
          catalog.resolve? test'.name = some column ∧ test'.operator = test.operator ∧
          test'.constants.map Constant.value? = test.constants.map Constant.value? ∧
          (test'.constants = test.constants ↔ ∀ c ∈ test.constants, c.Settled) := by
  intro column catalog term
  have hsafe : FieldRef.NameSafe ⟨"Games", "name"⟩ := by decide
  have hnames : catalog.NameSafe := nameSafe_singleton rfl hsafe
  have hterm : term.Compares := .inl rfl
  have hcriterion : catalog.criterion? term = some ("name", ">Pac") := by decide +kernel
  exact ⟨hnames, hterm, hcriterion, criterion?_compares hnames hterm hcriterion⟩

/-- Digits in quotes come back as a number. -/
theorem Catalog.criterion?_compares_digits :
    let column : Column := ⟨"name", "Name", some ⟨"Games", "name"⟩, .text, true, true⟩
    let catalog : Catalog := .ofCompatible [column] (List.pairwise_singleton _ _)
    let term : Expr := .node .equal [.name "Games.name", .literal .string "007"]
    let p : Predicate := .compare .eq "007"
    catalog.NameSafe ∧ term.Compares ∧ catalog.criterion? term = some ("name", "=007") ∧
      Predicate.ofCriterion? "=007" = some p ∧
      term.nameLeft.fieldTest? = some ⟨"Games.name", .equal, [.text "007"]⟩ ∧
      ∃ again, Expr.ofString (p.sql ⟨"Games", "name"⟩) = .ok again ∧
        again.fieldTest? = some ⟨"Games.name", .equal, [.number "007"]⟩ := by
  intro column catalog term p
  have hsafe : FieldRef.NameSafe ⟨"Games", "name"⟩ := by decide
  have hcriterion : catalog.criterion? term = some ("name", "=007") := by decide +kernel
  have hread : Predicate.ofCriterion? "=007" = some p := by decide
  have hagain : Expr.ofString (p.sql ⟨"Games", "name"⟩) = .ok (p.expr (FieldRef.expr ⟨"Games", "name"⟩)) :=
    Predicate.ofString_sql (Predicate.wellFormed_of_ofCriterion? hread) ⟨"Games", "name"⟩
  have hnumber : (p.expr (FieldRef.expr ⟨"Games", "name"⟩)).fieldTest? =
      some ⟨"Games.name", .equal, [.number "007"]⟩ := by decide +kernel
  exact ⟨nameSafe_singleton rfl hsafe, .inl rfl, hcriterion, hread, rfl, _, hagain, hnumber⟩

end CatalogFilter
