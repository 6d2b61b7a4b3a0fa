import CatalogFilter.Proofs.Criterion.RoundTrip
import CatalogFilter.Proofs.Token.Margins

/-!
# Derived criteria are stable

The criteria of a filter text leave out what they cannot say.  What they do say is settled: the filter that
they stand for has the same criteria again, whatever text they came from.  The reason is that every criterion
of a term is canonical, because the translation keeps a criterion only if it is read as the term's predicate,
and because a pattern that asks for a contained text is never kept as a pattern.

**Main definition**: `FilterSet.reread`.  **Main statements**: `FilterSet.ofText_sql_eq` and
`FilterSet.ofText_sql_of_ofText`.
-/

namespace CatalogFilter

open Text

/-! ## §1 The criterion of a term is canonical -/

/-- A pattern that is kept as a pattern does not ask for a contained text. -/
theorem Predicate.not_enclosed_of_ofPattern? {p : Pattern} {pattern : String}
    (h : ofPattern? p = some (.like pattern)) : ¬ Pattern.Enclosed pattern.toList := by
  intro henclosed
  obtain ⟨inner, hpattern, _⟩ := id henclosed
  rw [hpattern] at henclosed
  have hinner := Pattern.contained?_of_enclosed henclosed
  unfold ofPattern? at h
  split at h
  next => simp at h
  next hnone =>
    split at h
    next =>
      obtain ⟨text, htext, heq⟩ := Option.map_eq_some_iff.1 h
      obtain rfl : String.ofList text = pattern := by simpa using heq
      -- the text has the pattern that it was written from
      rw [String.toList_ofList] at hpattern
      rw [← hpattern, Pattern.ofCriterion_of_toCriterion? htext, hnone] at hinner
      simp at hinner
    next => simp at h

namespace Expr

theorem not_enclosed_of_likePredicate? {field name pattern : String} {e : Expr} {escape : Option String}
    (h : likePredicate? field e escape = some (name, .like pattern)) :
    ¬ Pattern.Enclosed pattern.toList := by
  simp only [likePredicate?, Option.bind_eq_bind, Option.bind_eq_some_iff, Option.pure_def,
    Option.some.injEq, Prod.mk.injEq] at h
  obtain ⟨text, _, predicate, hlike, rfl, rfl⟩ := h
  obtain ⟨p, _, hp⟩ := Option.bind_eq_some_iff.1 hlike
  exact Predicate.not_enclosed_of_ofPattern? hp

theorem comparePredicate?_ne_like {comparison : Comparison} {kind : LiteralKind}
    {value pattern : String} : comparePredicate? comparison kind value ≠ some (.like pattern) := by
  cases kind <;> cases comparison <;> simp [comparePredicate?]

/-- Of all terms, only those with LIKE ask for a pattern. -/
theorem not_enclosed_of_predicate? {term : Expr} {name pattern : String}
    (h : term.predicate? = some (name, .like pattern)) : ¬ Pattern.Enclosed pattern.toList := by
  -- a comparison of a name with a literal, on either side
  have hcompare : ∀ (side : Comparison → Comparison) {op : Operator} {field value : String}
      {kind : LiteralKind},
      (do
        let comparison ← comparisonOf? op
        let predicate ← comparePredicate? (side comparison) kind value
        pure (field, predicate)) ≠ some (name, .like pattern) := by
    intro side op field value kind hsome
    simp only [Option.bind_eq_bind, Option.bind_eq_some_iff, Option.pure_def, Option.some.injEq,
      Prod.mk.injEq] at hsome
    obtain ⟨comparison, _, predicate, hp, _, rfl⟩ := hsome
    exact comparePredicate?_ne_like hp
  unfold predicate? at h
  split at h
  next => exact not_enclosed_of_likePredicate? h
  next => exact not_enclosed_of_likePredicate? h
  next => simp [Option.map_eq_some_iff] at h
  next => simp [Option.bind_eq_some_iff] at h
  next => simp at h
  next => simp at h
  next => exact absurd h (hcompare id)
  next => exact absurd h (hcompare Comparison.flipped)
  next => simp at h

end Expr

/-- Of all predicates, only patterns may be written as a text between two wildcards. -/
theorem Predicate.not_enclosed_criterion {p : Predicate} (h : p.WellFormed)
    (hnot : ∀ pattern, p = .like pattern → ¬ Pattern.Enclosed pattern.toList) :
    ¬ Pattern.Enclosed p.criterion.toList := by
  intro henclosed
  obtain ⟨inner, htext, _⟩ := id henclosed
  cases p with
  | between low high =>
    -- the text begins as its lower bound does, and no number begins with a percent sign
    have hjoined : low.toList ++ '~' :: high.toList = '%' :: (inner ++ ['%']) := by
      simpa [criterion] using htext
    have hlow : isNumeric low.toList = true := h.1
    cases hcs : low.toList with
    | nil => simp [hcs, isNumeric, isNumber, dropSign, leadingDigits] at hlow
    | cons c cs =>
      obtain rfl : c = '%' := by simpa [hcs] using congrArg List.head? hjoined
      simp [hcs, isNumeric, isNumber, dropSign, leadingDigits] at hlow
  | regexp pattern => simp [criterion] at htext
  | compare comparison value => cases comparison <;> simp [criterion, Comparison.symbol] at htext
  | isNull => simp [criterion] at htext
  | isNotNull => simp [criterion] at htext
  | like pattern => exact hnot pattern rfl henclosed
  | contains text =>
    have hno : (Pattern.ofCriterion text.toList).hasWildcard = false := h.2
    have hpercent : text.toList = '%' :: (inner ++ ['%']) := htext
    simp [hpercent, Pattern.ofCriterion, Pattern.hasWildcard] at hno

/-- **What a term gives is canonical**, and for a column that can be filtered. -/
theorem Catalog.canonical_of_criterion? {catalog : Catalog} {term : Expr} {id criterion : String}
    (h : catalog.criterion? term = some (id, criterion)) :
    id ∈ catalog.filterableIds ∧ Canonical criterion := by
  obtain ⟨name, p, column, hp, hcolumn, hclass, rfl, rfl⟩ := criterion?_eq_some_iff.1 h
  have hmem : column ∈ catalog.filterable := mem_filterable_of_resolve? hcolumn
  have hnot : ¬ Pattern.Enclosed p.criterion.toList := by
    apply Predicate.not_enclosed_criterion (Predicate.wellFormed_of_ofCriterion? hclass)
    rintro pattern rfl
    exact Expr.not_enclosed_of_predicate? hp
  exact ⟨List.mem_map_of_mem hmem, ⟨p, hclass, rfl⟩, hnot⟩

/-- So every row of terms can come back. -/
theorem CriteriaRow.returns_ofTerms (catalog : Catalog) (terms : List Expr) :
    (ofTerms catalog terms).Returns catalog := by
  intro id criterion hget
  rw [get?_ofTerms] at hget
  obtain ⟨term, _, hterm⟩ := List.mem_filterMap.1 (SortedMap.mem_of_lookup hget)
  exact Catalog.canonical_of_criterion? hterm

namespace FilterSet

variable {set : FilterSet} {catalog : Catalog}

/-! ## §2 What the text of a set is read as -/

/-- The set that the text of a set is read as: what each row asks, read term by term. -/
def reread (set : FilterSet) (catalog : Catalog) : FilterSet :=
  let rows := (set.alternatives catalog).map fun asked =>
    CriteriaRow.ofTerms catalog (CriteriaRow.termExprs asked)
  ⟨rows.filter fun row => !row.isEmpty⟩

/-- **The text of any set is read without a fault**, as the set that its rows are read as one by one. -/
theorem ofText_sql_eq (catalog : Catalog) (set : FilterSet) :
    ofText catalog (set.sql catalog) = .ok (set.reread catalog) := by
  by_cases hne : set.alternatives catalog = []
  · -- nothing is asked, and the empty text is no expression
    have hnone : set.reread catalog = empty := by
      simp [reread, hne, empty]
    have hempty : Expr.ofString "" = .error .empty := Expr.ofString_eq_empty_iff.2 rfl
    rw [ofText, sql_of_alternatives_eq_nil hne, hempty, hnone]
  · obtain ⟨e, hparse, hflat⟩ := ofString_sql hne
    have hset : ofExpr catalog e = set.reread catalog := congrArg FilterSet.mk (ofExpr_rows hflat hne)
    rw [ofText, hparse]
    exact congrArg Except.ok hset

/-- A set of rows that are not empty, each of which can come back. -/
def Returns (set : FilterSet) (catalog : Catalog) : Prop :=
  ∀ row ∈ set.rows, row.isEmpty = false ∧ row.Returns catalog

/-- Where the names of the catalog can be told apart, such a set does come back. -/
theorem reread_of_returns (hnames : catalog.NameSafe) (h : set.Returns catalog) :
    set.reread catalog = set := by
  have halternatives := alternatives_eq_map fun row hrow =>
    CriteriaRow.asked_ne_nil (h row hrow).2 (h row hrow).1
  have hrows : (set.rows.map fun row =>
      CriteriaRow.ofTerms catalog (CriteriaRow.termExprs (row.asked catalog))) = set.rows :=
    (List.map_congr_left fun row hrow => CriteriaRow.ofTerms_asked hnames (h row hrow).2).trans
      (List.map_id _)
  have hkept : (set.rows.filter fun row => !row.isEmpty) = set.rows :=
    List.filter_eq_self.2 fun row hrow => by simp [(h row hrow).1]
  simp only [reread, halternatives, List.map_map, Function.comp_def, hrows, hkept]

/-! ## §3 Derived criteria -/

theorem returns_ofExpr (catalog : Catalog) (e : Expr) : (ofExpr catalog e).Returns catalog := by
  intro row hrow
  obtain ⟨hmem, hne⟩ := List.mem_filter.1 hrow
  obtain ⟨alternative, _, rfl⟩ := List.mem_map.1 hmem
  exact ⟨by simpa using hne, CriteriaRow.returns_ofTerms catalog _⟩

theorem returns_of_ofText {text : String} (h : ofText catalog text = .ok set) :
    set.Returns catalog := by
  unfold ofText at h
  split at h
  next e _ =>
    obtain rfl : ofExpr catalog e = set := by simpa using h
    exact returns_ofExpr catalog e
  next =>
    obtain rfl : empty = set := by simpa using h
    intro row hrow
    simp [empty] at hrow
  next => simp at h

/-- **Derived criteria are stable.**  In a catalog whose names can be told apart, the criteria of any filter
text stand for a filter that has the same criteria. -/
theorem ofText_sql_of_ofText (catalog : Catalog) (text : String) (set : FilterSet)
    (hnames : catalog.NameSafe) (h : ofText catalog text = .ok set) :
    ofText catalog (set.sql catalog) = .ok set := by
  rw [ofText_sql_eq, reread_of_returns hnames (returns_of_ofText h)]

/-- A term that is turned around, one without a criterion, and a pattern with a percent sign of its own. -/
theorem ofText_sql_of_ofText_mixed :
    let column : Column := ⟨"t", "Title", some ⟨"g", "n"⟩, .text, true, true⟩
    let catalog : Catalog := .ofCompatible [column] (List.pairwise_singleton _ _)
    let text := "'x' < [g].[n] AND 1 = 1 OR [n] LIKE '5\\%%' ESCAPE '\\'"
    let set : FilterSet := ⟨[SortedMap.ofList [("t", ">x")], SortedMap.ofList [("t", "5\\%%")]]⟩
    catalog.NameSafe ∧ ofText catalog text = .ok set ∧ ofText catalog (set.sql catalog) = .ok set := by
  intro column catalog text set
  have hnames : catalog.NameSafe := by
    intro other hother ref href
    obtain rfl : other = column := List.mem_singleton.1 (List.mem_filter.1 hother).1
    obtain rfl : (⟨"g", "n"⟩ : FieldRef) = ref := by simpa [column, Column.filterField] using href
    exact ⟨by decide, by simp [TrimmedEnds, isBlank], by simp [TrimmedEnds, isBlank]⟩
  have hread : (ofText catalog text).toOption = some set := by decide +kernel
  have hset : ofText catalog text = .ok set := by
    cases hof : ofText catalog text with
    | error fault => simp [hof, Except.toOption] at hread
    | ok found => simpa [hof, Except.toOption] using hread
  exact ⟨hnames, hset, ofText_sql_of_ofText catalog text set hnames hset⟩

end FilterSet
end CatalogFilter
