import CatalogFilter.Proofs.Criterion.Terms

/-!
# The structure of a filter set's text

A filter set is written as alternatives in parentheses, each of them terms joined by AND.  Reading the text
gives exactly this structure back: no character of a criterion, and none of a name, is ever read as part of
the structure.

**Main definition**: `FilterSet.expr`.  **Main statement**: `FilterSet.render_structure`.
-/

namespace CatalogFilter

open Text

/-! ## §1 What a set asks -/

namespace CriteriaRow

/-- What a row asks of a column: the field of the column, and the predicate of the criterion. -/
def asked? (row : CriteriaRow) (column : Column) : Option (FieldRef × Predicate) := do
  let criterion ← row.get? column.id
  let predicate ← Predicate.ofCriterion? criterion
  let field ← column.filterField
  pure (field, predicate)

/-- All that a row asks, in the order of the catalog. -/
def asked (row : CriteriaRow) (catalog : Catalog) : List (FieldRef × Predicate) :=
  catalog.columns.filterMap row.asked?

theorem term?_eq_map (row : CriteriaRow) (column : Column) :
    row.term? column = (row.asked? column).map fun (ref, p) => p.render ref.render := by
  unfold term? asked?
  cases row.get? column.id with
  | none => rfl
  | some criterion =>
    cases hp : Predicate.ofCriterion? criterion with
    | none => simp [hp]
    | some p => cases column.filterField <;> simp [hp]

theorem terms_eq_map (row : CriteriaRow) (catalog : Catalog) :
    row.terms catalog = (row.asked catalog).map fun (ref, p) => p.render ref.render := by
  have hterm : row.term? = fun column => (row.asked? column).map fun (ref, p) =>
      p.render ref.render := funext (term?_eq_map row)
  rw [terms, asked, List.map_filterMap, hterm]

theorem asked?_eq_some_iff {row : CriteriaRow} {column : Column} {ref : FieldRef} {p : Predicate} :
    row.asked? column = some (ref, p) ↔ ∃ criterion, row.get? column.id = some criterion ∧
      Predicate.ofCriterion? criterion = some p ∧ column.filterField = some ref := by
  simp only [asked?, Option.bind_eq_bind, Option.bind_eq_some_iff, Option.pure_def,
    Option.some.injEq, Prod.mk.injEq]
  constructor
  · rintro ⟨criterion, hget, p', hp, ref', href, rfl, rfl⟩
    exact ⟨criterion, hget, hp, href⟩
  · rintro ⟨criterion, hget, hp, href⟩
    exact ⟨criterion, hget, p, hp, ref, href, rfl, rfl⟩

theorem wellFormed_of_mem_asked {row : CriteriaRow} {catalog : Catalog} {ref : FieldRef}
    {p : Predicate} (h : (ref, p) ∈ row.asked catalog) : p.WellFormed := by
  obtain ⟨column, _, hc⟩ := List.mem_filterMap.1 h
  obtain ⟨criterion, _, hp, _⟩ := asked?_eq_some_iff.1 hc
  exact Predicate.wellFormed_of_ofCriterion? hp

/-- A row asks nothing exactly if its criteria for the columns that can be filtered are blank. -/
theorem asked_eq_nil_iff {row : CriteriaRow} {catalog : Catalog} :
    row.asked catalog = [] ↔ ∀ column ∈ catalog.filterable, ∀ criterion,
      row.get? column.id = some criterion → trim criterion.toList = [] := by
  simp only [asked, List.filterMap_eq_nil_iff, Catalog.filterable, List.mem_filter]
  constructor
  · rintro h column ⟨hmem, hfield⟩ criterion hget
    obtain ⟨ref, href⟩ := Option.isSome_iff_exists.1 hfield
    apply Predicate.ofCriterion?_eq_none_iff.1
    -- a criterion that is a predicate would be asked
    cases hp : Predicate.ofCriterion? criterion with
    | none => rfl
    | some p =>
      have hasked := asked?_eq_some_iff.2 ⟨criterion, hget, hp, href⟩
      rw [h column hmem] at hasked
      simp at hasked
  · intro h column hmem
    cases hasked : row.asked? column with
    | none => rfl
    | some asked =>
      obtain ⟨ref, p⟩ := asked
      obtain ⟨criterion, hget, hp, href⟩ := asked?_eq_some_iff.1 hasked
      have hblank := h column ⟨hmem, by simp [href]⟩ criterion hget
      rw [Predicate.ofCriterion?_eq_none_iff.2 hblank] at hp
      simp at hp

end CriteriaRow

namespace FilterSet

/-- What the rows of a set ask, without the rows that ask nothing. -/
def alternatives (set : FilterSet) (catalog : Catalog) : List (List (FieldRef × Predicate)) :=
  (set.rows.map fun row => row.asked catalog).filter fun asked => !asked.isEmpty

/-- The terms of an alternative, joined by AND. -/
def alternativeExpr (asked : List (FieldRef × Predicate)) : Expr :=
  Expr.joined .and (asked.map fun (ref, p) => p.expr ref.expr)

/-- The expression that a set stands for: its alternatives, joined by OR. -/
def expr (set : FilterSet) (catalog : Catalog) : Expr :=
  Expr.joined .or ((set.alternatives catalog).map alternativeExpr)

/-- The text of an alternative. -/
def alternativeText (asked : List (FieldRef × Predicate)) : List Char :=
  group (asked.map fun (ref, p) => p.render ref.render)

theorem render_eq (set : FilterSet) (catalog : Catalog) :
    set.render catalog = Connective.or.separator.intercalate
      ((set.alternatives catalog).map alternativeText) := by
  have hgroups : ((set.rows.map fun row => row.terms catalog).filter fun terms => !terms.isEmpty) =
      (set.alternatives catalog).map fun asked => asked.map fun (ref, p) => p.render ref.render := by
    simp only [alternatives, CriteriaRow.terms_eq_map, List.filter_map, List.map_map]
    congr 1
    simp [Function.comp_def]
  rw [render]
  simp only [hgroups, List.map_map]
  rfl

theorem mem_alternatives {set : FilterSet} {catalog : Catalog}
    {asked : List (FieldRef × Predicate)} (h : asked ∈ set.alternatives catalog) :
    asked ≠ [] ∧ ∀ ref p, (ref, p) ∈ asked → p.WellFormed := by
  obtain ⟨hmem, hne⟩ := List.mem_filter.1 h
  obtain ⟨row, _, rfl⟩ := List.mem_map.1 hmem
  exact ⟨by simpa using hne, fun ref p hp => CriteriaRow.wellFormed_of_mem_asked hp⟩

/-- Nothing is written exactly if nothing is asked. -/
theorem render_eq_nil_iff {set : FilterSet} {catalog : Catalog} :
    set.render catalog = [] ↔ set.alternatives catalog = [] := by
  rw [render_eq]
  -- an alternative begins with its parenthesis
  cases set.alternatives catalog with
  | nil => simp
  | cons asked alternatives =>
    cases alternatives with
    | nil => simp [alternativeText, group]
    | cons next alternatives =>
      simp [List.intercalate, alternativeText, group]

theorem alternatives_eq_nil_iff {set : FilterSet} {catalog : Catalog} :
    set.alternatives catalog = [] ↔ ∀ row ∈ set.rows, row.asked catalog = [] := by
  simp [alternatives, List.filter_eq_nil_iff]

/-! ## §2 Reading the text of a set -/

/-- An alternative that is read under OR is one operand of it. -/
theorem chainOf_alternativeExpr {asked : List (FieldRef × Predicate)} (h : asked ≠ []) :
    Expr.chainOf .or (alternativeExpr asked) = [alternativeExpr asked] := by
  -- one term stands alone, several are an AND; neither is an OR
  cases asked with
  | nil => exact absurd rfl h
  | cons a asked =>
    cases asked with
    | nil => exact Predicate.chainOf_expr .or a.2 a.1.expr
    | cons b asked => rfl

/-- A group is read as its terms joined by AND. -/
theorem reads_alternativeText {asked : List (FieldRef × Predicate)} (hne : asked ≠ [])
    (h : ∀ ref p, (ref, p) ∈ asked → p.WellFormed) :
    ∃ x, Reads .operand 1 (alternativeText asked) x ∧ x.flattenChains = alternativeExpr asked := by
  -- no term is a chain, so the AND of them has exactly them as operands
  have hterms : ∃ x, Reads (.chain .and) 0 (Connective.and.separator.intercalate
      (asked.map fun (ref, p) => p.render ref.render)) x ∧ x.flattenChains = alternativeExpr asked := by
    apply Reads.chain_joined (c := .and) hne
    rintro ⟨ref, p⟩ hmem
    refine ⟨Predicate.chainOf_expr .and p ref.expr, p.expr ref.expr, ?_, p.flattenChains_expr ref⟩
    exact (Predicate.reads_render (h ref p hmem) ref).raise (by simp) (by decide)
  obtain ⟨x, hx, hflat⟩ := hterms
  refine ⟨x, ?_, hflat⟩
  -- the parentheses hold a whole filter, of which an AND is one
  have hor : Reads (.chain .or) 0 _ x := hx.raise (by simp) (by decide)
  exact hor.group

/-- The text of a set is read as its alternatives joined by OR. -/
theorem reads_render {set : FilterSet} {catalog : Catalog} (hne : set.alternatives catalog ≠ []) :
    ∃ e, Reads (.chain .or) 1 (set.render catalog) e ∧ e.flattenChains = set.expr catalog := by
  -- no alternative is an OR, so the OR of them has exactly them as operands
  rw [render_eq]
  apply Reads.chain_joined (c := .or) hne
  intro asked hmem
  obtain ⟨hasked, hwell⟩ := mem_alternatives hmem
  obtain ⟨x, hx, hflat⟩ := reads_alternativeText hasked hwell
  exact ⟨chainOf_alternativeExpr hasked, x, hx.raise (by simp) (by decide), hflat⟩

theorem sql_of_alternatives_eq_nil {set : FilterSet} {catalog : Catalog}
    (h : set.alternatives catalog = []) : set.sql catalog = "" := by
  rw [sql, render_eq_nil_iff.2 h]

theorem ofString_sql {set : FilterSet} {catalog : Catalog} (hne : set.alternatives catalog ≠ []) :
    ∃ e, Expr.ofString (set.sql catalog) = .ok e ∧ e.flattenChains = set.expr catalog := by
  obtain ⟨e, he, hflat⟩ := reads_render hne
  refine ⟨e, ?_, hflat⟩
  rw [Expr.ofString, sql, String.toList_ofList]
  exact he.parse (by decide)

/-- **No criterion changes the structure of a filter.**  The text of a set is empty exactly if every
criterion for a column that can be filtered is blank.  Otherwise it is read without a fault, and flattens to
the alternatives of the set joined by OR, each of them its terms joined by AND, whatever characters the
criteria and the names have. -/
theorem render_structure (catalog : Catalog) (set : FilterSet) :
    (set.sql catalog = "" ↔ ∀ row ∈ set.rows, ∀ column ∈ catalog.filterable, ∀ criterion,
      row.get? column.id = some criterion → trim criterion.toList = []) ∧
    (set.sql catalog ≠ "" → ∃ e, Expr.ofString (set.sql catalog) = .ok e ∧
      e.flattenChains = set.expr catalog) := by
  have hempty : set.sql catalog = "" ↔ set.alternatives catalog = [] := by
    rw [← render_eq_nil_iff, sql, ← String.toList_inj]
    simp
  constructor
  · -- empty exactly if no row asks anything
    rw [hempty, alternatives_eq_nil_iff]
    simp only [CriteriaRow.asked_eq_nil_iff]
  · intro hne
    obtain ⟨e, he, hflat⟩ := reads_render fun h => hne (hempty.2 h)
    refine ⟨e, ?_, hflat⟩
    rw [Expr.ofString, sql, String.toList_ofList]
    exact he.parse (by decide)

end FilterSet
end CatalogFilter
