import Mathlib.Data.List.Forall2
import Mathlib.Data.List.Nodup
import CatalogFilter.Proofs.Criterion.RoundTrip
import CatalogFilter.Proofs.Expr.Meaning

/-!
# What the criteria of an expression mean

A row of criteria asks that all of them hold, and a set that one of its rows does.  If nothing of an
expression is left out, the set of its criteria means what the expression means.  And of any expression at
all, every row comes from one branch of its outermost OR: it has the criteria of the terms of that branch, for
each column that of the first term, and no others.

**Main definitions**: `Catalog.SetForm` and `CriteriaRow.ComesFrom`.  **Main statement**:
`FilterSet.ofExpr_meaning`.
-/

namespace CatalogFilter

/-! ## §1 Terms -/

namespace Expr

theorem exists_literal_of_value? {e : Expr} {value : String} (h : e.value? = some value) :
    ∃ kind, e = .literal kind value := by
  unfold value? at h
  split at h
  next => cases h
  next kind _ _ =>
    cases h
    exact ⟨kind, rfl⟩
  next => cases h

theorem exists_literal_of_likePredicate? {field : String} {e : Expr} {escape : Option String}
    {p : String × Predicate} (h : likePredicate? field e escape = some p) :
    ∃ kind value, e = .literal kind value := by
  obtain ⟨value, hvalue, _⟩ := Option.bind_eq_some_iff.1 h
  obtain ⟨kind, rfl⟩ := exists_literal_of_value? hvalue
  exact ⟨kind, value, rfl⟩

/-- An operator of comparisons joins no chain. -/
theorem ne_connective_of_comparisonOf? {op : Operator} {comparison : Comparison}
    (h : comparisonOf? op = some comparison) (c : Connective) : op ≠ c.operator := by
  rintro rfl
  cases c <;> cases h

/-- What asks for a predicate has no chain in it to be merged, and is no chain. -/
theorem flat_of_predicate? {e : Expr} {p : String × Predicate} (h : e.predicate? = some p) :
    e.flattenChains = e ∧ ∀ (c : Connective) (es : List Expr), e ≠ .node c.operator es := by
  -- one case for each form of a term that asks for a predicate
  unfold predicate? at h
  split at h
  case h_1 | h_2 =>
    obtain ⟨kind, value, rfl⟩ := exists_literal_of_likePredicate? h
    exact ⟨rfl, by rintro (_ | _) es hnode <;> cases hnode⟩
  case h_3 =>
    obtain ⟨text, htext, _⟩ := Option.map_eq_some_iff.1 h
    obtain ⟨kind, rfl⟩ := exists_literal_of_value? htext
    exact ⟨rfl, by rintro (_ | _) es hnode <;> cases hnode⟩
  case h_4 =>
    -- the bounds of a range are an AND, but of two literals
    obtain ⟨low, hlow, hrest⟩ := Option.bind_eq_some_iff.1 h
    obtain ⟨high, hhigh, _⟩ := Option.bind_eq_some_iff.1 hrest
    obtain ⟨kind, rfl⟩ := exists_literal_of_value? hlow
    obtain ⟨kind', rfl⟩ := exists_literal_of_value? hhigh
    exact ⟨rfl, by rintro (_ | _) es hnode <;> cases hnode⟩
  case h_5 | h_6 => exact ⟨rfl, by rintro (_ | _) es hnode <;> cases hnode⟩
  case h_7 | h_8 =>
    obtain ⟨comparison, hcomparison, _⟩ := Option.bind_eq_some_iff.1 h
    have hop := ne_connective_of_comparisonOf? hcomparison
    refine ⟨by simp [flattenChains_node hop], fun c es hnode => hop c ?_⟩
    injection hnode
  case h_9 => cases h

end Expr

namespace Catalog

variable {catalog : Catalog}

/-- Does a term have a criterion? -/
def HasCriterion (catalog : Catalog) (term : Expr) : Prop := (catalog.criterion? term).isSome

instance (catalog : Catalog) (term : Expr) : Decidable (catalog.HasCriterion term) :=
  inferInstanceAs (Decidable (_ = true))

theorem hasCriterion_iff {term : Expr} :
    catalog.HasCriterion term ↔ ∃ id criterion, catalog.criterion? term = some (id, criterion) := by
  simp [HasCriterion, Option.isSome_iff_exists]

/-- What a term means if the criteria have the given truth: the truth of its criterion. -/
def termHolds (catalog : Catalog) (truth : String → String → Bool) (term : Expr) : Bool :=
  (catalog.criterion? term).any fun (id, criterion) => truth id criterion

theorem exists_predicate?_of_criterion? {term : Expr} {entry : String × String}
    (h : catalog.criterion? term = some entry) : ∃ p, term.predicate? = some p := by
  obtain ⟨p, hp, _⟩ := Option.bind_eq_some_iff.1 h
  exact ⟨p, hp⟩

theorem flatTerms (catalog : Catalog) : Expr.FlatTerms catalog.HasCriterion := by
  constructor
  · intro term h
    obtain ⟨id, criterion, hc⟩ := hasCriterion_iff.1 h
    obtain ⟨p, hp⟩ := exists_predicate?_of_criterion? hc
    exact (Expr.flat_of_predicate? hp).1
  · intro c es h
    obtain ⟨id, criterion, hc⟩ := hasCriterion_iff.1 h
    obtain ⟨p, hp⟩ := exists_predicate?_of_criterion? hc
    exact (Expr.flat_of_predicate? hp).2 c es rfl

end Catalog

/-! ## §2 Rows -/

namespace CriteriaRow

/-- A row that comes from a branch: it has a criterion, each of its criteria is that of the first term for its
column, and no term with a criterion is without a column. -/
structure ComesFrom (catalog : Catalog) (branch : Expr) (row : CriteriaRow) : Prop where
  /-- It asks for something. -/
  nonempty : row.entries ≠ []
  /-- Each criterion is that of the first term for its column. -/
  first : ∀ id criterion, (id, criterion) ∈ row.entries →
    ∃ before term after, branch.chainOf .and = before ++ term :: after ∧
      catalog.criterion? term = some (id, criterion) ∧
      ∀ earlier ∈ before, ∀ other, catalog.criterion? earlier ≠ some (id, other)
  /-- No term that has a criterion is without one in the row. -/
  complete : ∀ term ∈ branch.chainOf .and, ∀ id criterion, catalog.criterion? term = some (id, criterion) →
    row.contains id = true

variable {catalog : Catalog} {terms : List Expr}

theorem exists_first_of_mem_ofTerms {id criterion : String}
    (h : (id, criterion) ∈ (ofTerms catalog terms).entries) :
    ∃ before term after, terms = before ++ term :: after ∧
      catalog.criterion? term = some (id, criterion) ∧
      ∀ earlier ∈ before, ∀ other, catalog.criterion? earlier ≠ some (id, other) := by
  rw [SortedMap.mem_entries_iff, get?_ofTerms] at h
  exact SortedMap.exists_of_lookup_filterMap h

theorem exists_entry_of_term {term : Expr} {id criterion : String} (hmem : term ∈ terms)
    (h : catalog.criterion? term = some (id, criterion)) :
    ∃ other, (id, other) ∈ (ofTerms catalog terms).entries := by
  have hentry : (id, criterion) ∈ terms.filterMap catalog.criterion? := List.mem_filterMap.2 ⟨term, hmem, h⟩
  obtain ⟨other, hother⟩ := SortedMap.exists_lookup_of_mem hentry
  exact ⟨other, SortedMap.mem_entries_iff.2 (by rw [get?_ofTerms, hother])⟩

/-- A row of terms is empty exactly if none of them has a criterion. -/
theorem entries_ofTerms_eq_nil_iff :
    (ofTerms catalog terms).entries = [] ↔ ∀ term ∈ terms, ¬ catalog.HasCriterion term := by
  constructor
  · intro hnil term hmem hterm
    obtain ⟨id, criterion, hc⟩ := Catalog.hasCriterion_iff.1 hterm
    obtain ⟨other, hentry⟩ := exists_entry_of_term hmem hc
    simp [hnil] at hentry
  · intro hnone
    -- an entry would come from a term with a criterion
    apply List.eq_nil_iff_forall_not_mem.2
    rintro ⟨id, criterion⟩ hentry
    obtain ⟨before, term, after, rfl, hc, _⟩ := exists_first_of_mem_ofTerms hentry
    exact hnone term (by simp) (Catalog.hasCriterion_iff.2 ⟨id, criterion, hc⟩)

theorem comesFrom_ofTerms {branch : Expr} (h : ∃ term ∈ branch.chainOf .and, catalog.HasCriterion term) :
    ComesFrom catalog branch (ofTerms catalog (branch.chainOf .and)) where
  nonempty := by
    intro hnil
    obtain ⟨term, hmem, hterm⟩ := h
    exact entries_ofTerms_eq_nil_iff.1 hnil term hmem hterm
  first _ _ hentry := exists_first_of_mem_ofTerms hentry
  complete := by
    intro term hmem id criterion hc
    obtain ⟨other, hentry⟩ := exists_entry_of_term hmem hc
    simp [SortedMap.contains, SortedMap.mem_entries_iff.1 hentry]

end CriteriaRow

/-! ## §3 Expressions in the form of a set -/

namespace Catalog

variable {catalog : Catalog} {truth : String → String → Bool}

/-- Does a branch give a row? -/
def Yields (catalog : Catalog) (branch : Expr) : Prop :=
  ∃ term ∈ branch.chainOf .and, catalog.HasCriterion term

instance (catalog : Catalog) (branch : Expr) : Decidable (catalog.Yields branch) :=
  inferInstanceAs (Decidable (∃ term ∈ branch.chainOf .and, catalog.HasCriterion term))

/-- A term, or an AND of terms for different columns. -/
inductive RowForm (catalog : Catalog) : Expr → Prop
  /-- A term alone. -/
  | term {e : Expr} (h : catalog.HasCriterion e) : RowForm catalog e
  /-- An AND of terms, no two of them for one column. -/
  | chain {terms : List Expr} (h : ∀ term ∈ terms, catalog.HasCriterion term)
      (distinct : ((terms.filterMap catalog.criterion?).map Prod.fst).Nodup) :
      RowForm catalog (.node .and terms)

/-- A row, or an OR of rows. -/
inductive SetForm (catalog : Catalog) : Expr → Prop
  /-- A row alone. -/
  | row {e : Expr} (h : RowForm catalog e) : SetForm catalog e
  /-- An OR of rows. -/
  | chain {rows : List Expr} (h : ∀ row ∈ rows, RowForm catalog row) : SetForm catalog (.node .or rows)

theorem chainOf_of_hasCriterion {e : Expr} (h : catalog.HasCriterion e) (c : Connective) :
    e.chainOf c.operator = [e] := by
  unfold Expr.chainOf
  split
  next op es =>
    split
    next hop =>
      subst hop
      exact absurd h (catalog.flatTerms.notChain c es)
    next => rfl
  next => rfl

/-- The terms of a row. -/
theorem RowForm.terms {branch : Expr} (h : RowForm catalog branch) :
    (∀ term ∈ branch.chainOf .and, catalog.HasCriterion term) ∧
      (((branch.chainOf .and).filterMap catalog.criterion?).map Prod.fst).Nodup := by
  cases h with
  | term h =>
    have hchain : branch.chainOf .and = [branch] := chainOf_of_hasCriterion h .and
    obtain ⟨id, criterion, hc⟩ := hasCriterion_iff.1 h
    simp [hchain, h, hc]
  | chain h distinct => simpa using ⟨h, distinct⟩

/-- A row that is built from terms has one. -/
theorem RowForm.yields {branch : Expr} (h : RowForm catalog branch)
    (hbuilt : branch.BuiltFrom catalog.HasCriterion) : catalog.Yields branch := by
  obtain ⟨term, hmem⟩ := List.exists_mem_of_ne_nil _ (hbuilt.chainOf catalog.flatTerms .and).1
  exact ⟨term, hmem, h.terms.1 term hmem⟩

/-- The rows of a set. -/
theorem SetForm.rows {e : Expr} (h : SetForm catalog e) :
    ∀ branch ∈ e.chainOf .or, RowForm catalog branch := by
  cases h with
  | row h =>
    cases h with
    | term h =>
      have hchain : e.chainOf .or = [e] := chainOf_of_hasCriterion h .or
      simpa [hchain] using .term h
    | chain h distinct => simpa [Expr.chainOf] using .chain h distinct
  | chain h => simpa using h

theorem holds_term {term : Expr} {id criterion : String}
    (h : catalog.criterion? term = some (id, criterion)) :
    term.holds (catalog.termHolds truth) = truth id criterion := by
  have hnot : ∀ (c : Connective) (es : List Expr), term ≠ .node c.operator es := by
    rintro c es rfl
    exact catalog.flatTerms.notChain c es (hasCriterion_iff.2 ⟨id, criterion, h⟩)
  rw [Expr.holds_of_not_chain hnot]
  simp [termHolds, h]

/-- **A branch in the form of a row means what its row asks.** -/
theorem RowForm.holds_iff {branch : Expr} (h : RowForm catalog branch) :
    branch.holds (catalog.termHolds truth) = true ↔
      ∀ entry ∈ (CriteriaRow.ofTerms catalog (branch.chainOf .and)).entries,
        truth entry.1 entry.2 = true := by
  obtain ⟨hterms, hdistinct⟩ := h.terms
  rw [← Expr.forall_chainOf_and_iff]
  constructor
  · rintro hall ⟨id, criterion⟩ hentry
    obtain ⟨before, term, after, hsplit, hc, _⟩ := CriteriaRow.exists_first_of_mem_ofTerms hentry
    have hterm : term.holds (catalog.termHolds truth) = truth id criterion := holds_term hc
    rw [← hterm]
    exact hall term (by simp [hsplit])
  · intro hall term hmem
    obtain ⟨id, criterion, hc⟩ := hasCriterion_iff.1 (hterms term hmem)
    obtain ⟨other, hentry⟩ := CriteriaRow.exists_entry_of_term hmem hc
    -- no other term has the column of this one
    obtain ⟨before, first, after, hsplit, hfirst, _⟩ := CriteriaRow.exists_first_of_mem_ofTerms hentry
    have hone : (id, criterion) ∈ (branch.chainOf .and).filterMap catalog.criterion? :=
      List.mem_filterMap.2 ⟨term, hmem, hc⟩
    have htwo : (id, other) ∈ (branch.chainOf .and).filterMap catalog.criterion? :=
      List.mem_filterMap.2 ⟨first, by simp [hsplit], hfirst⟩
    obtain rfl : criterion = other :=
      congrArg Prod.snd (List.inj_on_of_nodup_map hdistinct hone htwo rfl)
    rw [holds_term hc]
    exact hall (id, criterion) hentry

end Catalog

/-! ## §4 Sets -/

namespace FilterSet

variable {catalog : Catalog}

/-- The rows of an expression are those of the branches that give one. -/
theorem rows_ofExpr (catalog : Catalog) (e : Expr) :
    (ofExpr catalog e).rows = ((e.flattenChains.chainOf .or).filter fun branch => catalog.Yields branch).map
      fun branch => CriteriaRow.ofTerms catalog (branch.chainOf .and) := by
  -- a row is dropped as empty exactly where its branch has no criterion
  have hkept : ∀ branch : Expr,
      (!(CriteriaRow.ofTerms catalog (branch.chainOf .and)).isEmpty) = decide (catalog.Yields branch) := by
    intro branch
    rw [Bool.eq_iff_iff, decide_eq_true_eq]
    simp [SortedMap.isEmpty, CriteriaRow.entries_ofTerms_eq_nil_iff, Catalog.Yields]
  simp only [ofExpr, List.filter_map, Function.comp_def, hkept]

/-- An expression in the form of a set means what the set of its criteria asks. -/
theorem holds_iff_rows {e : Expr} {truth : String → String → Bool} (hbuilt : e.BuiltFrom catalog.HasCriterion)
    (hform : catalog.SetForm e.flattenChains) :
    e.holds (catalog.termHolds truth) = true ↔
      ∃ row ∈ (ofExpr catalog e).rows, ∀ entry ∈ row.entries, truth entry.1 entry.2 = true := by
  have hflat := hbuilt.flattenChains catalog.flatTerms
  -- branch against row: first those of the outermost OR, then the terms of each
  rw [rows_ofExpr, ← hbuilt.holds_flattenChains catalog.flatTerms, ← Expr.exists_chainOf_or_iff]
  simp only [List.mem_map, List.mem_filter, decide_eq_true_eq]
  constructor
  · rintro ⟨branch, hbranch, hholds⟩
    have hrow := hform.rows branch hbranch
    have hyields := hrow.yields ((hflat.chainOf catalog.flatTerms .or).2 branch hbranch)
    exact ⟨_, ⟨branch, ⟨hbranch, hyields⟩, rfl⟩, hrow.holds_iff.1 hholds⟩
  · rintro ⟨_, ⟨branch, ⟨hbranch, _⟩, rfl⟩, hall⟩
    exact ⟨branch, hbranch, (hform.rows branch hbranch).holds_iff.2 hall⟩

/-- The rows of any expression come, one by one and in order, from the branches that give one. -/
theorem rows_comeFrom (catalog : Catalog) (e : Expr) :
    List.Forall₂ (CriteriaRow.ComesFrom catalog)
      ((e.flattenChains.chainOf .or).filter fun branch => catalog.Yields branch) (ofExpr catalog e).rows := by
  rw [rows_ofExpr]
  -- the rows are the branches, each taken to its row, so that they pair up with them
  apply List.forall₂_map_right_iff.2
  apply List.forall₂_same.2
  intro branch hbranch
  exact CriteriaRow.comesFrom_ofTerms (of_decide_eq_true (List.mem_filter.1 hbranch).2)

/-- **What the criteria of an expression mean.**  If the expression is built from terms that have criteria,
and its chains of AND and of OR merge into the form of a set, then it holds exactly if some row of its
criteria holds, whatever the truth of each criterion is.  And the rows of any expression come, one by one and
in order, from those branches of its outermost OR that have a term with a criterion. -/
theorem ofExpr_meaning (catalog : Catalog) (e : Expr) :
    (e.BuiltFrom catalog.HasCriterion → catalog.SetForm e.flattenChains →
      ∀ truth : String → String → Bool, e.holds (catalog.termHolds truth) = true ↔
        ∃ row ∈ (ofExpr catalog e).rows, ∀ entry ∈ row.entries, truth entry.1 entry.2 = true) ∧
    List.Forall₂ (CriteriaRow.ComesFrom catalog)
      ((e.flattenChains.chainOf .or).filter fun branch => catalog.Yields branch) (ofExpr catalog e).rows := by
  refine ⟨?_, rows_comeFrom catalog e⟩
  intro hbuilt hform truth
  exact holds_iff_rows hbuilt hform

/-- An OR in an OR and an AND in an AND, with one column in two rows. -/
theorem ofExpr_meaning_nested :
    let column (id : String) : Column := ⟨id, id, some ⟨"g", id⟩, .text, true, true⟩
    let catalog : Catalog := .ofCompatible [column "a", column "b"] (by decide +kernel)
    let asks (name text : String) : Expr := .node .equal [.name name, .literal .string text]
    let e : Expr := .node .or [.node .or [asks "a" "x"],
      .node .and [.node .and [asks "a" "y"], asks "b" "z"]]
    e.BuiltFrom catalog.HasCriterion ∧ catalog.SetForm e.flattenChains ∧
    ∀ truth : String → String → Bool, e.holds (catalog.termHolds truth) = true ↔
      ∃ row ∈ (ofExpr catalog e).rows, ∀ entry ∈ row.entries, truth entry.1 entry.2 = true := by
  intro column catalog asks e
  have hterm : ∀ term ∈ [asks "a" "x", asks "a" "y", asks "b" "z"], catalog.HasCriterion term := by
    decide +kernel
  have hbuilt : e.BuiltFrom catalog.HasCriterion := by
    have hx : (asks "a" "x").BuiltFrom catalog.HasCriterion := .term (hterm _ (by simp))
    have hy : (asks "a" "y").BuiltFrom catalog.HasCriterion := .term (hterm _ (by simp))
    have hz : (asks "b" "z").BuiltFrom catalog.HasCriterion := .term (hterm _ (by simp))
    have hinner : (Expr.node .and [asks "a" "y"]).BuiltFrom catalog.HasCriterion :=
      .chain .and (by simp) (by simpa using hy)
    have hfirst : (Expr.node .or [asks "a" "x"]).BuiltFrom catalog.HasCriterion :=
      .chain .or (by simp) (by simpa using hx)
    have hsecond : (Expr.node .and [.node .and [asks "a" "y"], asks "b" "z"]).BuiltFrom
        catalog.HasCriterion := .chain .and (by simp) (by simpa using ⟨hinner, hz⟩)
    exact .chain .or (by simp) (by simpa using ⟨hfirst, hsecond⟩)
  have hflat : e.flattenChains = .node .or [asks "a" "x", .node .and [asks "a" "y", asks "b" "z"]] := rfl
  have hform : catalog.SetForm e.flattenChains := by
    have hx : catalog.RowForm (asks "a" "x") := .term (hterm _ (by simp))
    have hyz : catalog.RowForm (.node .and [asks "a" "y", asks "b" "z"]) :=
      .chain (fun term hmem => hterm term (List.mem_cons_of_mem _ hmem)) (by decide +kernel)
    rw [hflat]
    exact .chain (by simpa using ⟨hx, hyz⟩)
  exact ⟨hbuilt, hform, (ofExpr_meaning catalog e).1 hbuilt hform⟩

end FilterSet
end CatalogFilter
