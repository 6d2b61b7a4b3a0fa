import CatalogFilter.Proofs.Criterion.Inverse
import CatalogFilter.Proofs.Criterion.RoundTrip

/-!
# Terms of patterns

A criterion that is a pattern or a text to be contained stands for a term with LIKE.  On the way back, a
pattern between two wildcards is shortened to what stands between them, and the term is kept only if that
text alone is read as a text to be contained.  With a blank at an end, or in the form of a range, of a regular
expression or of a comparison, it is read as something else, and the term is lost.  All other terms of
patterns are kept, by a criterion that is written as the same term again.

**Main definitions**: `StandsAlone` and `Predicate.KeepsTerm`.
**Main statement**: `Catalog.criterion?_sql_of_isPattern`.
-/

namespace CatalogFilter

open Text

/-! ## §1 Texts that stand alone -/

/-- A text without blanks at its ends that has none of the forms looked for before a text to be
contained. -/
structure StandsAlone (text : List Char) : Prop where
  /-- It neither begins nor ends with a blank. -/
  trimmed : TrimmedEnds text
  noRange : Predicate.range? text = none
  noRegexp : Predicate.regexp? text = none
  noComparison : Predicate.comparison? text = none

namespace Predicate

/-- Does a predicate compare with a pattern? -/
def IsPattern : Predicate → Prop
  | .like _ | .contains _ => True
  | _ => False

theorem not_isPattern_ofComparison (c : Comparison) (value : List Char) :
    ¬ (ofComparison c value).IsPattern := by
  rcases ofComparison_cases c value with h | h | h <;> simp [h, IsPattern]

/-- A pattern and a text to be contained are their own criteria. -/
theorem criterion_ofTrimmed {text : List Char} (h : (ofTrimmed text).IsPattern) :
    (ofTrimmed text).criterion = String.ofList text := by
  rcases ofTrimmed_cases text with ⟨low, high, _, _, hp⟩ | ⟨c, rest, hp⟩ | ⟨htext, _⟩
  · simp [hp, IsPattern] at h
  · rw [hp] at h
    exact absurd h (not_isPattern_ofComparison c (trim rest))
  · exact htext

theorem ofCriterion?_criterion_of_isPattern {text : String} {p : Predicate}
    (h : ofCriterion? text = some p) (hp : p.IsPattern) : ofCriterion? p.criterion = some p := by
  obtain ⟨hne, rfl⟩ := exists_ofTrimmed h
  rw [criterion_ofTrimmed hp, ofCriterion?_trim hne]

theorem ofTrimmed_of_standsAlone {text : List Char} (h : StandsAlone text) :
    ofTrimmed text = ofPatternText text := by
  simp [ofTrimmed, h.noRange, h.noRegexp, h.noComparison]

/-- The forms that are looked for first are not those of patterns. -/
theorem standsAlone_of_isPattern {text : List Char} (htrim : TrimmedEnds text)
    (h : (ofTrimmed text).IsPattern) : StandsAlone text := by
  -- any of these forms would be the predicate, and is none of a pattern
  have hrange : range? text = none := by
    cases hr : range? text with
    | none => rfl
    | some p =>
      have hp : ofTrimmed text = p := by simp [ofTrimmed, hr]
      obtain ⟨low, high, _, _, rfl⟩ := exists_of_range? hr
      simp [hp, IsPattern] at h
  have hregexp : regexp? text = none := by
    cases hr : regexp? text with
    | none => rfl
    | some p =>
      have hp : ofTrimmed text = p := by simp [ofTrimmed, hrange, hr]
      obtain ⟨pattern, _, rfl⟩ := exists_of_regexp? hr
      simp [hp, IsPattern] at h
  have hcomparison : comparison? text = none := by
    cases hr : comparison? text with
    | none => rfl
    | some p =>
      have hp : ofTrimmed text = p := by simp [ofTrimmed, hrange, hregexp, hr]
      obtain ⟨⟨c, value⟩, _, rfl⟩ := Option.map_eq_some_iff.1 hr
      rw [hp] at h
      exact absurd h (not_isPattern_ofComparison c (trim value))
  exact ⟨htrim, hrange, hregexp, hcomparison⟩

/-- A text without wildcards is read as the text to be contained exactly if it stands alone. -/
theorem ofCriterion?_eq_contains_iff {text : List Char} (hne : text ≠ [])
    (hno : (Pattern.ofCriterion text).hasWildcard = false) :
    ofCriterion? (String.ofList text) = some (.contains (String.ofList text)) ↔ StandsAlone text := by
  constructor
  · intro h
    obtain ⟨_, hread⟩ := exists_ofTrimmed h
    rw [String.toList_ofList] at hread
    have hpattern : (ofTrimmed (trim text)).IsPattern := by simp [hread, IsPattern]
    -- the criterion is the text, so nothing was trimmed off
    have htrim : trim text = text := by
      have hcriterion := criterion_ofTrimmed hpattern
      rw [hread, ← String.toList_inj] at hcriterion
      simpa [criterion] using hcriterion.symm
    rw [htrim] at hpattern
    exact standsAlone_of_isPattern (htrim ▸ trimmedEnds_trim text) hpattern
  · intro h
    rw [ofCriterion?_of_trimmedEnds (by simpa using h.trimmed) (by simpa using hne),
      String.toList_ofList, ofTrimmed_of_standsAlone h]
    simp [ofPatternText, hno]

/-! ## §2 Terms that are kept -/

/-- Is a term kept?  What stands between two wildcards has to stand alone. -/
def KeepsTerm : Predicate → Prop
  | .like pattern =>
    Pattern.Enclosed pattern.toList →
      ∀ inner, pattern.toList = '%' :: (inner ++ ['%']) → StandsAlone inner
  | _ => True

end Predicate

/-- A pattern between two wildcards asks for the text between them, and is the same term. -/
theorem Predicate.predicate?_expr_enclosed {pattern : String} {inner : List Char} (ref : FieldRef)
    (hform : pattern.toList = '%' :: (inner ++ ['%'])) (h : Pattern.Enclosed pattern.toList) :
    (expr ref.expr (.like pattern)).predicate? = some (ref.dotted, .contains (String.ofList inner)) ∧
      sql (.contains (String.ofList inner)) ref = sql (.like pattern) ref := by
  -- the pattern is shortened to what stands between its wildcards
  have hcontained : (Pattern.ofCriterion pattern.toList).contained? =
      some (Pattern.ofCriterion inner) := by
    rw [hform] at h ⊢
    exact Pattern.contained?_of_enclosed h
  obtain ⟨hanywhere, _, _⟩ := Pattern.contained?_eq_some_iff.1 hcontained
  constructor
  · rw [expr, Pattern.predicate?_expr, ofPattern?, hcontained]
    simp [Pattern.toCriterion?_ofCriterion]
  · simp [sql, render, hanywhere]

/-- The text between two wildcards is read as itself exactly if the term is kept. -/
theorem Predicate.ofCriterion?_inner_iff {pattern : String} {inner : List Char}
    (hform : pattern.toList = '%' :: (inner ++ ['%'])) (h : Pattern.Enclosed pattern.toList) :
    ofCriterion? (String.ofList inner) = some (.contains (String.ofList inner)) ↔
      KeepsTerm (.like pattern) := by
  have hcontained := Pattern.contained?_of_enclosed (hform ▸ h)
  obtain ⟨_, hne, hno⟩ := Pattern.contained?_eq_some_iff.1 hcontained
  have hsome : inner ≠ [] := by
    rintro rfl
    exact hne rfl
  rw [ofCriterion?_eq_contains_iff hsome hno]
  constructor
  · intro halone _ inner' hform'
    obtain rfl : inner = inner' := by simpa [hform] using hform'
    exact halone
  · intro hkeeps
    exact hkeeps h inner hform

/-- **Terms of patterns come back**, each with a criterion that is written as the same term, unless they ask
for a text between wildcards that does not stand alone; then they have no criterion. -/
theorem Catalog.criterion?_sql_of_isPattern {catalog : Catalog} {column : Column} {ref : FieldRef}
    {text : String} {p : Predicate} (hnames : catalog.NameSafe) (hmem : column ∈ catalog.columns)
    (href : column.filterField = some ref) (hp : Predicate.ofCriterion? text = some p)
    (hpattern : p.IsPattern) :
    ∃ term, Expr.ofString (p.sql ref) = .ok term ∧
      (p.KeepsTerm → ∃ criterion q, catalog.criterion? term = some (column.id, criterion) ∧
        Predicate.ofCriterion? criterion = some q ∧ q.sql ref = p.sql ref) ∧
      (¬ p.KeepsTerm → catalog.criterion? term = none) := by
  have hsafe : ref.NameSafe := hnames column (List.mem_filter.2 ⟨hmem, by simp [href]⟩) ref href
  have hwell : p.WellFormed := Predicate.wellFormed_of_ofCriterion? hp
  refine ⟨p.expr ref.expr, Predicate.ofString_sql hwell ref, ?_⟩
  -- whether the pattern is shortened on the way back
  by_cases henclosed : ∃ pattern, p = .like pattern ∧ Pattern.Enclosed pattern.toList
  · -- the term asks for what stands between the wildcards
    obtain ⟨pattern, rfl, henclosed⟩ := henclosed
    obtain ⟨inner, hform, _⟩ := id henclosed
    obtain ⟨hterm, hsql⟩ := Predicate.predicate?_expr_enclosed ref hform henclosed
    have hkept := criterion?_of_predicate? hmem href hsafe hterm
    have hiff := Predicate.ofCriterion?_inner_iff hform henclosed
    constructor
    · intro hkeeps
      refine ⟨String.ofList inner, .contains (String.ofList inner), ?_, hiff.2 hkeeps, hsql⟩
      rw [hkept]
      exact if_pos (hiff.2 hkeeps)
    · intro hlost
      rw [hkept]
      exact if_neg fun hread => hlost (hiff.1 hread)
  · -- the term asks for its own predicate
    have hnot : ∀ pattern, p = .like pattern → ¬ Pattern.Enclosed pattern.toList :=
      fun pattern hlike henc => henclosed ⟨pattern, hlike, henc⟩
    have hread := Predicate.ofCriterion?_criterion_of_isPattern hp hpattern
    have hkept := criterion?_of_predicate? hmem href hsafe (Predicate.predicate?_expr hwell hnot ref)
    have hkeeps : p.KeepsTerm := by
      cases p with
      | like pattern => exact fun henc => absurd henc (hnot pattern rfl)
      | between | regexp | compare | isNull | isNotNull | contains => trivial
    constructor
    · intro _
      refine ⟨p.criterion, p, ?_, hread, rfl⟩
      rw [hkept]
      exact if_pos hread
    · intro hlost
      exact absurd hkeeps hlost

/-- A pattern whose text between the wildcards stands alone. -/
theorem Catalog.criterion?_sql_of_isPattern_kept :
    let column : Column := ⟨"name", "Name", some ⟨"Games", "name"⟩, .text, true, true⟩
    let catalog : Catalog := .ofCompatible [column] (List.pairwise_singleton _ _)
    let p : Predicate := .like "%Pac%"
    catalog.NameSafe ∧ Predicate.ofCriterion? "%Pac%" = some p ∧
      ∃ term, Expr.ofString (p.sql ⟨"Games", "name"⟩) = .ok term ∧
        (p.KeepsTerm → ∃ criterion q, catalog.criterion? term = some (column.id, criterion) ∧
          Predicate.ofCriterion? criterion = some q ∧
            q.sql ⟨"Games", "name"⟩ = p.sql ⟨"Games", "name"⟩) ∧
        (¬ p.KeepsTerm → catalog.criterion? term = none) := by
  intro column catalog p
  have hsafe : FieldRef.NameSafe ⟨"Games", "name"⟩ := by decide
  have hnames : catalog.NameSafe := nameSafe_singleton rfl hsafe
  have hp : Predicate.ofCriterion? "%Pac%" = some p := by decide
  exact ⟨hnames, hp, criterion?_sql_of_isPattern hnames (List.mem_singleton_self column) rfl hp trivial⟩

/-- What stands between these wildcards would be read as a comparison. -/
theorem Catalog.criterion?_sql_of_isPattern_lost :
    let column : Column := ⟨"name", "Name", some ⟨"Games", "name"⟩, .text, true, true⟩
    let catalog : Catalog := .ofCompatible [column] (List.pairwise_singleton _ _)
    catalog.NameSafe ∧ Predicate.ofCriterion? "%=5%" = some (.like "%=5%") ∧
      ∃ term, Expr.ofString (Predicate.sql (.like "%=5%") ⟨"Games", "name"⟩) = .ok term ∧
        catalog.criterion? term = none := by
  intro column catalog
  have hsafe : FieldRef.NameSafe ⟨"Games", "name"⟩ := by decide
  have hread : Predicate.ofCriterion? "%=5%" = some (.like "%=5%") := by decide
  have hwell : Predicate.WellFormed (.like "%=5%") := Predicate.wellFormed_of_ofCriterion? hread
  refine ⟨nameSafe_singleton rfl hsafe, hread, _, Predicate.ofString_sql hwell ⟨"Games", "name"⟩, ?_⟩
  decide +kernel

end CatalogFilter
