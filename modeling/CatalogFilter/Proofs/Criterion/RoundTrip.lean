import CatalogFilter.Criterion.OfExpr
import CatalogFilter.Proofs.Catalog.Resolution
import CatalogFilter.Proofs.Criterion.Structure
import CatalogFilter.Proofs.Like.Patterns
import CatalogFilter.Proofs.Order.LookUp

/-!
# Criteria come back from the filter they stand for

A filter set that is written as a filter and read again is the same set: the same rows in the same order,
with the same criteria for the same columns.  The criteria have to be canonical, because a predicate has only
one criterion to come back as; and the names of the catalog have to be told apart in a filter.

**Main definition**: `Canonical`.  **Main statement**: `FilterSet.ofText_sql`.
-/

namespace CatalogFilter

open Text

/-! ## §1 The predicate of a term -/

theorem Pattern.predicate?_expr (p : Pattern) (ref : FieldRef) :
    (p.expr ref.expr).predicate? = (Predicate.ofPattern? p).map fun q => (ref.dotted, q) := by
  -- the LIKE text and its escape character spell the pattern, whichever they are
  have hread : ∀ escape : Option String, escape.map String.toList = p.likeEscape →
      Expr.likePredicate? ref.dotted (.literal .string (String.ofList p.likeText)) escape =
        (Predicate.ofPattern? p).map fun q => (ref.dotted, q) := by
    intro escape hescape
    simp only [Expr.likePredicate?, Expr.value?, hescape, String.toList_ofList, Predicate.ofLike?,
      Option.bind_eq_bind, Option.bind_some, ofLike?_likeText]
    cases Predicate.ofPattern? p <;> rfl
  -- with an `ESCAPE` and without
  cases h : p.needsEscape with
  | true =>
    have hexpr : p.expr ref.expr = .node .escape
        [.node .like [.name ref.dotted, .literal .string (String.ofList p.likeText)],
          .literal .string "\\"] := by
      simp [expr, h, Expr.binary, FieldRef.expr]
    rw [hexpr]
    exact hread (some "\\") (by simp [likeEscape, h])
  | false =>
    have hexpr : p.expr ref.expr =
        .node .like [.name ref.dotted, .literal .string (String.ofList p.likeText)] := by
      simp [expr, h, Expr.binary, FieldRef.expr]
    rw [hexpr]
    exact hread none (by simp [likeEscape, h])

/-- A pattern with a wildcard comes back as itself, unless it is read as a text to be contained. -/
theorem Predicate.ofPattern?_like {text : List Char}
    (hw : (Pattern.ofCriterion text).hasWildcard = true) (hnot : ¬ Pattern.Enclosed text) :
    ofPattern? (Pattern.ofCriterion text) = some (.like (String.ofList text)) := by
  have hcontained : (Pattern.ofCriterion text).contained? = none := by
    cases hc : (Pattern.ofCriterion text).contained? with
    | none => rfl
    | some p => exact absurd (Pattern.enclosed_of_contained? hc) hnot
  simp [ofPattern?, hcontained, hw, Pattern.toCriterion?_ofCriterion]

/-- A text to be contained comes back as itself. -/
theorem Predicate.ofPattern?_contains {text : List Char} (hne : text ≠ [])
    (hw : (Pattern.ofCriterion text).hasWildcard = false) :
    ofPattern? (Pattern.ofCriterion text).anywhere = some (.contains (String.ofList text)) := by
  have hcontained : (Pattern.ofCriterion text).anywhere.contained? = some (Pattern.ofCriterion text) :=
    Pattern.contained?_eq_some_iff.2 ⟨rfl, Pattern.ofCriterion_ne_nil hne, hw⟩
  simp [ofPattern?, hcontained, Pattern.toCriterion?_ofCriterion]

/-- **A term asks for its predicate**, unless the predicate is a pattern that is better known as a text to
be contained. -/
theorem Predicate.predicate?_expr {p : Predicate} (h : p.WellFormed)
    (hnot : ∀ pattern, p = .like pattern → ¬ Pattern.Enclosed pattern.toList) (ref : FieldRef) :
    (p.expr ref.expr).predicate? = some (ref.dotted, p) := by
  -- only patterns are not read back at once
  cases p with
  | between | regexp | isNull | isNotNull => rfl
  | compare comparison value =>
    cases hn : isNumeric value.toList <;> cases comparison <;>
      simp [expr, valueExpr, hn, Comparison.operator, Expr.binary, FieldRef.expr, Expr.predicate?,
        Expr.comparisonOf?, Expr.comparePredicate?]
  | like pattern =>
    have hlike := ofPattern?_like h (hnot pattern rfl)
    rw [String.ofList_toList] at hlike
    simp [expr, Pattern.predicate?_expr, hlike]
  | contains text =>
    have hcontains := ofPattern?_contains h.1 h.2
    rw [String.ofList_toList] at hcontains
    simp [expr, Pattern.predicate?_expr, hcontains]

/-! ## §2 Canonical criteria -/

/-- A criterion that is the criterion of its predicate, and is not written as a pattern where it asks for a
contained text. -/
structure Canonical (criterion : String) : Prop where
  /-- It is the one criterion that its predicate has. -/
  classified : ∃ p, Predicate.ofCriterion? criterion = some p ∧ p.criterion = criterion
  /-- It does not ask for a contained text in the form of a pattern. -/
  notEnclosed : ¬ Pattern.Enclosed criterion.toList

/-- A term has a criterion if its name means a column and the predicate's criterion is read as the predicate. -/
theorem Catalog.criterion?_eq_some_iff {catalog : Catalog} {term : Expr} {id criterion : String} :
    catalog.criterion? term = some (id, criterion) ↔
      ∃ name p column, term.predicate? = some (name, p) ∧ catalog.resolve? name = some column ∧
        Predicate.ofCriterion? p.criterion = some p ∧ column.id = id ∧ p.criterion = criterion := by
  simp only [criterion?, Option.bind_eq_bind, Option.bind_eq_some_iff]
  constructor
  · rintro ⟨⟨name, p⟩, hp, column, hcolumn, hkept⟩
    split at hkept
    next hread =>
      obtain ⟨hid, hcriterion⟩ : column.id = id ∧ p.criterion = criterion := by simpa using hkept
      exact ⟨name, p, column, hp, hcolumn, hread, hid, hcriterion⟩
    next => simp at hkept
  · rintro ⟨name, p, column, hp, hcolumn, hread, rfl, rfl⟩
    exact ⟨(name, p), hp, column, hcolumn, if_pos hread⟩

/-- A term of one column asks for its predicate, and is kept if the predicate's criterion is read as it. -/
theorem Catalog.criterion?_of_predicate? {catalog : Catalog} {column : Column} {ref : FieldRef}
    {term : Expr} {p : Predicate} (hmem : column ∈ catalog.columns)
    (href : column.filterField = some ref) (hsafe : ref.NameSafe)
    (hterm : term.predicate? = some (ref.dotted, p)) :
    catalog.criterion? term =
      if Predicate.ofCriterion? p.criterion = some p then some (column.id, p.criterion) else none := by
  simp [criterion?, hterm, resolve?_dotted hmem href hsafe]

/-- A term has the column and the criterion that it was written for. -/
theorem Catalog.criterion?_expr {catalog : Catalog} {column : Column} {ref : FieldRef}
    {criterion : String} {p : Predicate} (hmem : column ∈ catalog.columns)
    (href : column.filterField = some ref) (hsafe : ref.NameSafe) (hcanonical : Canonical criterion)
    (hp : Predicate.ofCriterion? criterion = some p) :
    catalog.criterion? (p.expr ref.expr) = some (column.id, criterion) := by
  have hcriterion : p.criterion = criterion := by
    obtain ⟨q, hq, hc⟩ := hcanonical.classified
    obtain rfl : p = q := by simpa [hp] using hq
    exact hc
  have hnot : ∀ pattern, p = .like pattern → ¬ Pattern.Enclosed pattern.toList := by
    rintro pattern rfl
    obtain rfl : pattern = criterion := hcriterion
    exact hcanonical.notEnclosed
  have hpredicate := Predicate.predicate?_expr (Predicate.wellFormed_of_ofCriterion? hp) hnot ref
  rw [criterion?_of_predicate? hmem href hsafe hpredicate, hcriterion]
  exact if_pos hp

/-! ## §3 Rows -/

namespace CriteriaRow

/-- The terms of a row, as expressions. -/
def termExprs (asked : List (FieldRef × Predicate)) : List Expr :=
  asked.map fun (ref, p) => p.expr ref.expr

/-- A row all of whose criteria can come back: each is canonical, and for a column that can be filtered. -/
def Returns (row : CriteriaRow) (catalog : Catalog) : Prop :=
  ∀ id criterion, row.get? id = some criterion →
    id ∈ catalog.filterableIds ∧ Canonical criterion

variable {row : CriteriaRow} {catalog : Catalog}

/-- What a criterion of the row asks. -/
theorem exists_asked_of_get? {id criterion : String} (h : row.Returns catalog)
    (hget : row.get? id = some criterion) :
    ∃ column ∈ catalog.columns, ∃ ref p, column.id = id ∧ row.asked? column = some (ref, p) := by
  obtain ⟨hid, hcanonical⟩ := h id criterion hget
  obtain ⟨column, hcolumn, rfl⟩ := List.mem_map.1 hid
  obtain ⟨hmem, hfield⟩ := List.mem_filter.1 hcolumn
  obtain ⟨ref, href⟩ := Option.isSome_iff_exists.1 hfield
  obtain ⟨p, hp, _⟩ := hcanonical.classified
  exact ⟨column, hmem, ref, p, rfl, asked?_eq_some_iff.2 ⟨criterion, hget, hp, href⟩⟩

theorem asked_ne_nil (h : row.Returns catalog) (hne : row.isEmpty = false) :
    row.asked catalog ≠ [] := by
  obtain ⟨⟨id, criterion⟩, entries, he⟩ : ∃ e entries, row.entries = e :: entries := by
    apply List.exists_cons_of_ne_nil
    intro hnil
    simp [SortedMap.isEmpty, hnil] at hne
  -- the first entry of the row is found in it
  have hget : row.get? id = some criterion := by simp [SortedMap.get?, he, SortedMap.lookup]
  obtain ⟨column, hmem, ref, p, _, hasked⟩ := exists_asked_of_get? h hget
  exact List.ne_nil_of_mem (List.mem_filterMap.2 ⟨column, hmem, hasked⟩)

/-- The terms of a row have its criteria and no others. -/
theorem mem_criteria_iff (hnames : catalog.NameSafe) (h : row.Returns catalog) {id criterion : String} :
    (id, criterion) ∈ (termExprs (row.asked catalog)).filterMap catalog.criterion? ↔
      row.get? id = some criterion := by
  -- each term gives the criterion of its own column
  have hterm : ∀ column ∈ catalog.columns, ∀ ref p, row.asked? column = some (ref, p) →
      ∃ c, row.get? column.id = some c ∧
        catalog.criterion? (p.expr ref.expr) = some (column.id, c) := by
    intro column hmem ref p hasked
    obtain ⟨c, hget, hp, href⟩ := asked?_eq_some_iff.1 hasked
    have hsafe := hnames column (List.mem_filter.2 ⟨hmem, by simp [href]⟩) ref href
    exact ⟨c, hget, Catalog.criterion?_expr hmem href hsafe (h column.id c hget).2 hp⟩
  simp only [termExprs, List.mem_filterMap, List.mem_map]
  constructor
  · rintro ⟨_, ⟨⟨ref, p⟩, hmem, rfl⟩, hcriterion⟩
    obtain ⟨column, hcolumn, hasked⟩ := List.mem_filterMap.1 hmem
    obtain ⟨c, hget, hc⟩ := hterm column hcolumn ref p hasked
    obtain ⟨rfl, rfl⟩ : column.id = id ∧ c = criterion := by simpa [hc] using hcriterion
    exact hget
  · intro hget
    obtain ⟨column, hmem, ref, p, rfl, hasked⟩ := exists_asked_of_get? h hget
    obtain ⟨c, hget', hc⟩ := hterm column hmem ref p hasked
    obtain rfl : c = criterion := by simpa [hget] using hget'.symm
    exact ⟨_, ⟨(ref, p), List.mem_filterMap.2 ⟨column, hmem, hasked⟩, rfl⟩, hc⟩

/-- A row with a further criterion, unless it has one for the column. -/
def keepFirst (row : CriteriaRow) (entry : String × String) : CriteriaRow :=
  if row.contains entry.1 then row else row.insert entry.1 entry.2

theorem get?_keepFirst (row : CriteriaRow) (entry : String × String) (id : String) :
    (keepFirst row entry).get? id =
      (row.get? id).or (if entry.1 = id then some entry.2 else none) := by
  unfold keepFirst
  -- a column that has a criterion keeps it, another one gets the new one
  cases hget : row.get? entry.1 with
  | some criterion =>
    by_cases hid : entry.1 = id
    · subst hid
      simp [SortedMap.contains, hget]
    · simp [SortedMap.contains, hget, hid]
  | none =>
    by_cases hid : entry.1 = id
    · subst hid
      simp [SortedMap.contains, SortedMap.get?_insert, hget]
    · simp [SortedMap.contains, SortedMap.get?_insert, hget, hid]

theorem get?_foldl_keepFirst (entries : List (String × String)) (row : CriteriaRow) (id : String) :
    (entries.foldl keepFirst row).get? id = (row.get? id).or (SortedMap.lookup id entries) := by
  -- on the entries, for any row that they are added to
  induction entries generalizing row with
  | nil => simp [SortedMap.lookup]
  | cons entry entries ih =>
    rw [List.foldl_cons, ih, get?_keepFirst, Option.or_assoc]
    by_cases hid : entry.1 = id
    · simp [SortedMap.lookup, hid]
    · simp [SortedMap.lookup, hid]

/-- In the row of terms, the first criterion of a column is found. -/
theorem get?_ofTerms (catalog : Catalog) (terms : List Expr) (id : String) :
    (ofTerms catalog terms).get? id = SortedMap.lookup id (terms.filterMap catalog.criterion?) :=
  get?_foldl_keepFirst _ SortedMap.empty id

/-- **A row comes back from its terms.** -/
theorem ofTerms_asked (hnames : catalog.NameSafe) (h : row.Returns catalog) :
    ofTerms catalog (termExprs (row.asked catalog)) = row := by
  -- rows are compared by what is found in them, as the catalog has its own order
  apply SortedMap.ext_get?
  intro id
  rw [get?_ofTerms]
  cases hget : row.get? id with
  | some criterion =>
    -- the terms have this criterion for the column, and no other
    apply SortedMap.lookup_eq_some ((mem_criteria_iff hnames h).2 hget)
    intro c hc
    have hother := (mem_criteria_iff hnames h).1 hc
    simpa [hget] using hother.symm
  | none =>
    apply SortedMap.lookup_eq_none
    intro e he hid
    have hother := (mem_criteria_iff hnames h).1 he
    rw [hid, hget] at hother
    simp at hother

end CriteriaRow

/-! ## §4 Sets -/

theorem Expr.chainOf_joined {op : Operator} {es : List Expr} (hne : es ≠ [])
    (h : ∀ e ∈ es, chainOf op e = [e]) : chainOf op (joined op es) = es := by
  cases es with
  | nil => exact absurd rfl hne
  | cons e es =>
    cases es with
    | nil => exact h e (by simp)
    | cons e' es => exact chainOf_self op _

namespace FilterSet

variable {set : FilterSet} {catalog : Catalog}

theorem chainOf_and_alternativeExpr {asked : List (FieldRef × Predicate)} (h : asked ≠ []) :
    Expr.chainOf .and (alternativeExpr asked) = CriteriaRow.termExprs asked := by
  -- no term is an AND itself
  apply Expr.chainOf_joined (by simpa using h)
  intro e he
  obtain ⟨⟨ref, p⟩, _, rfl⟩ := List.mem_map.1 he
  exact Predicate.chainOf_expr .and p ref.expr

theorem chainOf_or_expr (h : set.alternatives catalog ≠ []) :
    Expr.chainOf .or (set.expr catalog) = (set.alternatives catalog).map alternativeExpr := by
  apply Expr.chainOf_joined (by simpa using h)
  intro e he
  obtain ⟨asked, hmem, rfl⟩ := List.mem_map.1 he
  exact chainOf_alternativeExpr (mem_alternatives hmem).1

/-- The rows that come back are those that ask something, each from its own terms. -/
theorem ofExpr_rows {e : Expr} (he : e.flattenChains = set.expr catalog)
    (hne : set.alternatives catalog ≠ []) :
    (ofExpr catalog e).rows = ((set.alternatives catalog).map fun asked =>
      CriteriaRow.ofTerms catalog (CriteriaRow.termExprs asked)).filter fun row => !row.isEmpty := by
  simp only [ofExpr, he, chainOf_or_expr hne, List.map_map]
  congr 1
  apply List.map_congr_left
  intro asked hmem
  simp only [Function.comp_apply, chainOf_and_alternativeExpr (mem_alternatives hmem).1]

/-- Where all rows ask something, no row is left out. -/
theorem alternatives_eq_map (h : ∀ row ∈ set.rows, row.asked catalog ≠ []) :
    set.alternatives catalog = set.rows.map fun row => row.asked catalog := by
  apply List.filter_eq_self.2
  intro asked hmem
  obtain ⟨row, hrow, rfl⟩ := List.mem_map.1 hmem
  simpa using h row hrow

/-- **Criteria come back from the filter they stand for.**  In a catalog whose names can be told apart, a set
of rows that are not empty, with canonical criteria for columns that can be filtered, is the set of its own
text. -/
theorem ofText_sql (catalog : Catalog) (set : FilterSet) (hnames : catalog.NameSafe)
    (hrows : ∀ row ∈ set.rows, row.isEmpty = false ∧ row.Returns catalog) :
    ofText catalog (set.sql catalog) = .ok set := by
  have hasked : ∀ row ∈ set.rows, row.asked catalog ≠ [] := fun row hrow =>
    CriteriaRow.asked_ne_nil (hrows row hrow).2 (hrows row hrow).1
  have halternatives := alternatives_eq_map hasked
  -- without rows the text is empty, which is no expression
  by_cases hne : set.rows = []
  · obtain ⟨rows⟩ := set
    obtain rfl : rows = [] := hne
    have htext : sql ⟨[]⟩ catalog = "" := by simp [sql, render]
    have hempty : Expr.ofString "" = .error .empty := by
      simp [Expr.ofString, Expr.parse, Lexer.tokenize_nil, Expr.ofTokens, Expr.parseAt]
    rw [ofText, htext, hempty]
    rfl
  · have hsome : set.alternatives catalog ≠ [] := by simpa [halternatives] using hne
    obtain ⟨e, hread, hflat⟩ := reads_render hsome
    have hparse : Expr.ofString (set.sql catalog) = .ok e := by
      rw [Expr.ofString, sql, String.toList_ofList]
      exact hread.parse (by decide)
    have hback : (ofExpr catalog e).rows = set.rows := by
      have hrow : ∀ row ∈ set.rows,
          CriteriaRow.ofTerms catalog (CriteriaRow.termExprs (row.asked catalog)) = row :=
        fun row hrow => CriteriaRow.ofTerms_asked hnames (hrows row hrow).2
      have hmap : (set.rows.map fun row =>
          CriteriaRow.ofTerms catalog (CriteriaRow.termExprs (row.asked catalog))) = set.rows :=
        (List.map_congr_left hrow).trans (List.map_id _)
      rw [ofExpr_rows hflat hsome, halternatives, List.map_map]
      simp only [Function.comp_def, hmap]
      exact List.filter_eq_self.2 fun row hmem => by simp [(hrows row hmem).1]
    have hset : ofExpr catalog e = set := congrArg FilterSet.mk hback
    rw [ofText, hparse]
    exact congrArg Except.ok hset

/-- Two alternatives for one column: a text with a percent sign of its own and a quote, and no value. -/
theorem ofText_sql_two_rows :
    let column : Column := ⟨"title", "Title", some ⟨"games", "name"⟩, .text, true, true⟩
    let catalog : Catalog := .ofCompatible [column] (List.pairwise_singleton _ _)
    let set : FilterSet := ⟨[SortedMap.ofList [("title", "it's 5\\%")],
      SortedMap.ofList [("title", "=NULL")]]⟩
    catalog.NameSafe ∧ ofText catalog (set.sql catalog) = .ok set := by
  intro column catalog set
  have hnames : catalog.NameSafe := by
    intro other hother ref href
    obtain rfl : other = column := List.mem_singleton.1 (List.mem_filter.1 hother).1
    obtain rfl : (⟨"games", "name"⟩ : FieldRef) = ref := by simpa [column, Column.filterField] using href
    exact ⟨by decide, by simp [TrimmedEnds, isBlank], by simp [TrimmedEnds, isBlank]⟩
  have hrow : ∀ criterion, Canonical criterion →
      CriteriaRow.Returns (SortedMap.ofList [("title", criterion)]) catalog := by
    intro criterion hcanonical id c hget
    have hlookup : (if "title" = id then some criterion else none) = some c := hget
    by_cases hid : "title" = id
    · obtain rfl : criterion = c := by simpa [hid] using hlookup
      subst hid
      exact ⟨by decide, hcanonical⟩
    · simp [hid] at hlookup
  have hpercent : Canonical "it's 5\\%" := by
    refine ⟨⟨.contains "it's 5\\%", by decide, rfl⟩, ?_⟩
    rintro ⟨inner, htext, _⟩
    simp at htext
  have hnull : Canonical "=NULL" := by
    refine ⟨⟨.isNull, by decide, rfl⟩, ?_⟩
    rintro ⟨inner, htext, _⟩
    simp at htext
  have hrows : ∀ row ∈ set.rows, row.isEmpty = false ∧ row.Returns catalog := by
    intro row hmem
    rcases List.mem_cons.1 hmem with rfl | hmem
    · exact ⟨rfl, hrow _ hpercent⟩
    · obtain rfl := List.mem_singleton.1 hmem
      exact ⟨rfl, hrow _ hnull⟩
  exact ⟨hnames, ofText_sql catalog set hnames hrows⟩

end FilterSet
end CatalogFilter
