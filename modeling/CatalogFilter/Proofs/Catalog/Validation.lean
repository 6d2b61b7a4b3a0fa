import CatalogFilter.Proofs.Catalog.Resolution
import Mathlib.Data.List.Nodup
import Mathlib.Data.List.Pairwise

/-!
# Which columns make a catalog, and what names mean in it

A list of columns makes a catalog if the ids differ, and no two columns that can be filtered read the same
field, up to case.  Any other list has a fault, and it is named where it is met first: of one column its id
comes before its field.

In a catalog, however it was pruned, a name with a point means the one column that can be filtered by the field
of the table that it names, and a name without a point the one column that can be filtered by a field of that
name.  Which column this is does not depend on the order of the columns.

**Main definitions**: `Catalog.WellFormed`, `Catalog.Faults` and `Catalog.Means`.
**Main statement**: `Catalog.ofColumns_resolves`.
-/

namespace CatalogFilter

open Text

/-! ## §1 Columns that do not clash -/

theorem FieldRef.named_comm (f g : FieldRef) : f.named g.table g.field = g.named f.table f.field := by
  simp only [named, sameName_comm f.table, sameName_comm f.field]

namespace Column

theorem sharesField_eq_false_iff {a b : Column} :
    a.sharesField b = false ↔
      ∀ f, a.filterField = some f → ∀ g, b.filterField = some g → f.named g.table g.field = false := by
  unfold sharesField
  cases a.filterField <;> cases b.filterField <;> simp

theorem sharesField_eq_true_iff {a b : Column} :
    a.sharesField b = true ↔
      ∃ f g, a.filterField = some f ∧ b.filterField = some g ∧ f.named g.table g.field = true := by
  unfold sharesField
  cases a.filterField <;> cases b.filterField <;> simp

theorem Compatible.symm {a b : Column} (h : a.Compatible b) : b.Compatible a := by
  refine ⟨h.1.symm, sharesField_eq_false_iff.2 fun g hg f hf => ?_⟩
  rw [FieldRef.named_comm]
  exact sharesField_eq_false_iff.1 h.2 f hf g hg

/-- A column is at fault for its id, else for its field. -/
theorem fault?_eq_some_iff {earlier : Catalog} {c : Column} {fault : SchemaError} :
    c.fault? earlier.toIndexedColumns = some fault ↔
      ((∃ e ∈ earlier.columns, e.id = c.id) ∧ fault = .duplicateColumn c.id) ∨
      ((∀ e ∈ earlier.columns, e.id ≠ c.id) ∧ ∃ g, c.filterField = some g ∧
        (∃ e ∈ earlier.columns, ∃ f, e.filterField = some f ∧ f.named g.table g.field = true) ∧
        fault = .duplicateField g) := by
  have hid : earlier.index.contains c.id = true ↔ ∃ e ∈ earlier.columns, e.id = c.id :=
    earlier.agrees.contains_iff
  unfold fault?
  -- the index is asked first, and it has exactly the ids of the columns
  by_cases hsame : ∃ e ∈ earlier.columns, e.id = c.id
  · rw [if_pos (hid.2 hsame)]
    constructor
    · intro h
      exact .inl ⟨hsame, by simpa using h.symm⟩
    · rintro (⟨-, rfl⟩ | ⟨hnew, -⟩)
      · rfl
      · obtain ⟨e, he, hsame⟩ := hsame
        exact absurd hsame (hnew e he)
  · have hnew : ∀ e ∈ earlier.columns, e.id ≠ c.id := fun e he h => hsame ⟨e, he, h⟩
    rw [if_neg (mt hid.1 hsame)]
    simp only [hsame, false_and, false_or]
    -- a new id, so the column can be at fault for its field only
    constructor
    · intro h
      split at h
      next hshared =>
        obtain ⟨g, hg, rfl⟩ := Option.map_eq_some_iff.1 h
        obtain ⟨e, he, hshares⟩ := List.any_eq_true.1 hshared
        obtain ⟨f, g', hf, hg', hnamed⟩ := sharesField_eq_true_iff.1 hshares
        obtain rfl : g = g' := by simpa [hg] using hg'
        exact ⟨hnew, g, hg, ⟨e, he, f, hf, hnamed⟩, rfl⟩
      next => cases h
    · rintro ⟨-, g, hg, ⟨e, he, f, hf, hnamed⟩, rfl⟩
      have hshares : e.sharesField c = true := sharesField_eq_true_iff.2 ⟨f, g, hf, hg, hnamed⟩
      rw [if_pos (List.any_eq_true.2 ⟨e, he, hshares⟩), hg]
      rfl

/-- A column has no fault exactly if it clashes with none of the columns before it. -/
theorem fault?_eq_none_iff {earlier : Catalog} {c : Column} :
    c.fault? earlier.toIndexedColumns = none ↔ ∀ e ∈ earlier.columns, e.Compatible c := by
  constructor
  · exact compatible_of_fault?_eq_none earlier.agrees
  · intro h
    -- either fault would be a clash
    apply Option.eq_none_iff_forall_ne_some.2
    intro fault hfault
    rcases fault?_eq_some_iff.1 hfault with ⟨⟨e, he, hid⟩, -⟩ | ⟨-, g, hg, ⟨e, he, f, hf, hnamed⟩, -⟩
    · exact (h e he).1 hid
    · have hdiffer := sharesField_eq_false_iff.1 (h e he).2 f hf g hg
      simp [hnamed] at hdiffer

end Column

/-! ## §2 The first fault -/

namespace Catalog

variable {columns : List Column}

/-- Columns whose ids differ, and of which no two can be filtered by the same field, up to case. -/
structure WellFormed (columns : List Column) : Prop where
  /-- No id is used twice. -/
  ids : (columns.map Column.id).Nodup
  /-- No field is filtered by two columns. -/
  fields : (columns.filterMap Column.filterField).Pairwise fun f g => f.named g.table g.field = false

/-- The fault of a list of columns: the first column that clashes with an earlier one, for its id if this is
not new, else for its field. -/
inductive Faults (columns : List Column) : SchemaError → Prop
  /-- The id is not new. -/
  | id {before after : List Column} {column : Column} (split : columns = before ++ column :: after)
      (wellFormed : WellFormed before) (again : ∃ earlier ∈ before, earlier.id = column.id) :
      Faults columns (.duplicateColumn column.id)
  /-- The id is new, but the field is not. -/
  | field {before after : List Column} {column : Column} {ref : FieldRef}
      (split : columns = before ++ column :: after) (wellFormed : WellFormed before)
      (new : ∀ earlier ∈ before, earlier.id ≠ column.id) (reads : column.filterField = some ref)
      (again : ∃ earlier ∈ before, ∃ other, earlier.filterField = some other ∧
        other.named ref.table ref.field = true) : Faults columns (.duplicateField ref)

theorem wellFormed_iff_pairwise : WellFormed columns ↔ columns.Pairwise Column.Compatible := by
  have hpairs : columns.Pairwise Column.Compatible ↔
      (columns.map Column.id).Pairwise (· ≠ ·) ∧
        (columns.filterMap Column.filterField).Pairwise fun f g => f.named g.table g.field = false := by
    simp only [List.pairwise_map, List.pairwise_filterMap, ← List.pairwise_and_iff,
      ← Column.sharesField_eq_false_iff]
    rfl
  rw [hpairs]
  exact ⟨fun h => ⟨h.ids, h.fields⟩, fun h => ⟨h.1, h.2⟩⟩

/-- A column that a catalog holds clashes with none of the columns before it. -/
theorem fault?_eq_none_of_columns {catalog entered : Catalog} {column : Column} {rest : List Column}
    (h : entered.columns = catalog.columns ++ column :: rest) :
    column.fault? catalog.toIndexedColumns = none := by
  have hcompatible := entered.compatible
  rw [h] at hcompatible
  apply Column.fault?_eq_none_iff.2
  intro e he
  exact (List.pairwise_append.1 hcompatible).2.2 e he column List.mem_cons_self

/-- **Columns are entered exactly if they clash neither with those of the catalog nor among themselves**: a
catalog that holds them all is then what they make. -/
theorem enter_eq_ok_iff {catalog entered : Catalog} :
    catalog.enter columns = .ok entered ↔ entered.columns = catalog.columns ++ columns := by
  -- on the columns, for any catalog that they are entered behind
  induction columns generalizing catalog with
  | nil =>
    rw [enter, List.append_nil, Except.ok.injEq]
    exact ⟨fun h => by rw [h], fun h => (eq_of_columns h).symm⟩
  | cons column rest ih =>
    unfold enter
    split
    next fault hfault =>
      constructor
      · intro h
        cases h
      · intro h
        simp [fault?_eq_none_of_columns h] at hfault
    next hnone =>
      have hpush : (catalog.push column hnone).columns = catalog.columns ++ [column] := rfl
      rw [ih, hpush, List.append_assoc]
      rfl

/-- The fault is that of the first column that has one with those before it. -/
theorem enter_eq_error_iff {catalog : Catalog} {fault : SchemaError} :
    catalog.enter columns = .error fault ↔
      ∃ before column after, ∃ passed : Catalog, columns = before ++ column :: after ∧
        passed.columns = catalog.columns ++ before ∧
        column.fault? passed.toIndexedColumns = some fault := by
  -- the columns before the fault make a catalog, which is the one that is passed on
  induction columns generalizing catalog with
  | nil => simp [enter]
  | cons first rest ih =>
    unfold enter
    split
    next other hfirst =>
      constructor
      · intro h
        obtain rfl : other = fault := by simpa using h
        exact ⟨[], first, rest, catalog, rfl, by simp, hfirst⟩
      · rintro ⟨before, column, after, passed, hsplit, hpassed, hfault⟩
        cases before with
        | nil =>
          obtain rfl : passed = catalog := eq_of_columns (by simpa using hpassed)
          obtain ⟨rfl, -⟩ : first = column ∧ rest = after := by simpa using hsplit
          rw [hfirst] at hfault
          rw [Option.some.inj hfault]
        | cons head before =>
          -- the first column is among those that have been passed, so it is not at fault
          obtain ⟨rfl, -⟩ : first = head ∧ rest = before ++ column :: after := by simpa using hsplit
          simp [fault?_eq_none_of_columns hpassed] at hfirst
    next hnone =>
      have hpush : (catalog.push first hnone).columns = catalog.columns ++ [first] := rfl
      rw [ih]
      constructor
      · rintro ⟨before, column, after, passed, rfl, hpassed, hfault⟩
        exact ⟨first :: before, column, after, passed, rfl, by simpa [hpush] using hpassed, hfault⟩
      · rintro ⟨before, column, after, passed, hsplit, hpassed, hfault⟩
        cases before with
        | nil =>
          obtain rfl : passed = catalog := eq_of_columns (by simpa using hpassed)
          obtain ⟨rfl, -⟩ : first = column ∧ rest = after := by simpa using hsplit
          simp [hnone] at hfault
        | cons head before =>
          obtain ⟨rfl, rfl⟩ : first = head ∧ rest = before ++ column :: after := by simpa using hsplit
          exact ⟨before, column, after, passed, rfl, by simpa [hpush] using hpassed, hfault⟩

theorem ofColumns_eq_ok_iff {catalog : Catalog} :
    ofColumns columns = .ok catalog ↔ catalog.columns = columns :=
  enter_eq_ok_iff

/-- **The fault that is reported is the first one.** -/
theorem ofColumns_eq_error_iff {fault : SchemaError} :
    ofColumns columns = .error fault ↔ Faults columns fault := by
  rw [ofColumns, enter_eq_error_iff]
  constructor
  · rintro ⟨before, column, after, passed, hsplit, rfl, hfault⟩
    have hwell : WellFormed passed.columns := wellFormed_iff_pairwise.2 passed.compatible
    rcases Column.fault?_eq_some_iff.1 hfault with ⟨hagain, rfl⟩ | ⟨hnew, ref, hreads, hagain, rfl⟩
    · exact .id hsplit hwell hagain
    · exact .field hsplit hwell hnew hreads hagain
  · intro h
    cases h with
    | @id before after column split wellFormed again =>
      let passed := ofCompatible before (wellFormed_iff_pairwise.1 wellFormed)
      have hfault : column.fault? passed.toIndexedColumns = some (.duplicateColumn column.id) :=
        Column.fault?_eq_some_iff.2 (.inl ⟨again, rfl⟩)
      exact ⟨before, column, after, passed, split, rfl, hfault⟩
    | @field before after column ref split wellFormed new reads again =>
      let passed := ofCompatible before (wellFormed_iff_pairwise.1 wellFormed)
      have hfault : column.fault? passed.toIndexedColumns = some (.duplicateField ref) :=
        Column.fault?_eq_some_iff.2 (.inr ⟨new, ref, reads, again, rfl⟩)
      exact ⟨before, column, after, passed, split, rfl, hfault⟩

/-! ## §3 The column that a name means -/

/-- A column is the only one that can be filtered by a field for which a test holds. -/
def IsOnly (columns : List Column) (test : FieldRef → Bool) (column : Column) : Prop :=
  ∀ other, (other ∈ columns ∧ ∃ ref, other.filterField = some ref ∧ test ref = true) ↔ other = column

/-- The column that a name means, blanks at its ends aside: with a point, the one column that reads the field
after the last point of the table before it; without one, the one column that reads a field of that name. -/
inductive Means (columns : List Column) (name : String) (column : Column) : Prop
  /-- A field of a table, cut at the last point. -/
  | qualified {table field : List Char} (cut : trim name.toList = table ++ '.' :: field) (last : '.' ∉ field)
      (only : IsOnly columns (fun ref => ref.named (String.ofList table) (String.ofList field)) column)
  /-- A field alone, which only one column can be filtered by. -/
  | bare (plain : '.' ∉ trim name.toList)
      (only : IsOnly columns (fun ref => sameName ref.field (String.ofList (trim name.toList))) column)

variable {catalog : Catalog} {column : Column} {name : String}

theorem nodup_columns (catalog : Catalog) : catalog.columns.Nodup :=
  List.nodup_iff_pairwise_ne.2 (catalog.compatible.imp fun h heq => h.1 (by rw [heq]))

theorem mem_matching_iff {test : FieldRef → Bool} :
    column ∈ catalog.matching test ↔
      column ∈ catalog.columns ∧ ∃ ref, column.filterField = some ref ∧ test ref = true := by
  simp [matching_eq_filter, Option.any_eq_true]

/-- A test singles out the only column for which it holds. -/
theorem matching_eq_singleton_iff {test : FieldRef → Bool} :
    catalog.matching test = [column] ↔ IsOnly catalog.columns test column := by
  have hnodup : (catalog.matching test).Nodup := by
    rw [matching_eq_filter]
    exact catalog.nodup_columns.filter _
  -- without repetitions, a list is one column exactly if it has that member only
  rw [← List.perm_singleton, List.perm_ext_iff_of_nodup hnodup (List.nodup_singleton column)]
  simp only [IsOnly, mem_matching_iff, List.mem_singleton]

/-- No two columns can be filtered by the field of one name in the table of one name. -/
theorem matching_named_of_mem {table field : String}
    (h : column ∈ catalog.matching fun ref => ref.named table field) :
    (catalog.matching fun ref => ref.named table field) = [column] := by
  obtain ⟨hmem, ref, href, hnamed⟩ := mem_matching_iff.1 h
  simp only [FieldRef.named, Bool.and_eq_true, sameName_iff] at hnamed
  -- the name is that of the field which the column reads
  have htest : (fun other : FieldRef => other.named table field) =
      fun other => other.named ref.table ref.field := by
    funext other
    simp only [FieldRef.named, sameName, hnamed]
  rw [htest]
  exact matching_named hmem href

/-- A name with a point is that of a field in a table. -/
theorem resolve?_qualified_iff {table field : List Char}
    (h : splitLast '.' (trim name.toList) = some (table, field)) :
    catalog.resolve? name = some column ↔
      (catalog.matching fun ref => ref.named (String.ofList table) (String.ofList field)) = [column] := by
  simp only [resolve?, h]
  constructor
  · intro hhead
    exact matching_named_of_mem (List.mem_of_head? hhead)
  · intro hmatching
    rw [hmatching]
    rfl

/-- A name without a point is that of a field. -/
theorem resolve?_bare_iff (h : splitLast '.' (trim name.toList) = none) :
    catalog.resolve? name = some column ↔
      (catalog.matching fun ref => sameName ref.field (String.ofList (trim name.toList))) = [column] := by
  simp only [resolve?, h]
  constructor
  · intro hresolve
    split at hresolve
    next only hmatching =>
      obtain rfl : only = column := by simpa using hresolve
      exact hmatching
    next => cases hresolve
  · intro hmatching
    rw [hmatching]

/-- **A name means the only column that it fits.** -/
theorem resolve?_eq_some_iff :
    catalog.resolve? name = some column ↔ Means catalog.columns name column := by
  -- with a point or without one, as the name is looked up
  cases hsplit : splitLast '.' (trim name.toList) with
  | some parts =>
    obtain ⟨table, field⟩ := parts
    obtain ⟨hcut, hlast⟩ := splitLast_eq_some_iff.1 hsplit
    rw [resolve?_qualified_iff hsplit, matching_eq_singleton_iff]
    constructor
    · exact .qualified hcut hlast
    · rintro (⟨hcut', hlast', honly⟩ | ⟨hplain, -⟩)
      · have hsame := splitLast_eq_some_iff.2 ⟨hcut', hlast'⟩
        rw [hsplit] at hsame
        obtain ⟨rfl, rfl⟩ : table = _ ∧ field = _ := by simpa using hsame
        exact honly
      · exact absurd (by simp [hcut]) hplain
  | none =>
    have hplain := splitLast_eq_none_iff.1 hsplit
    rw [resolve?_bare_iff hsplit, matching_eq_singleton_iff]
    constructor
    · exact .bare hplain
    · rintro (⟨hcut, -, -⟩ | ⟨-, honly⟩)
      · exact absurd (by simp [hcut]) hplain
      · exact honly

/-- What a name means is a matter of which columns there are, and not of their order. -/
theorem resolve?_congr {other : Catalog} (h : ∀ column, column ∈ other.columns ↔ column ∈ catalog.columns)
    (name : String) : other.resolve? name = catalog.resolve? name := by
  have honly : ∀ test column, IsOnly other.columns test column ↔ IsOnly catalog.columns test column := by
    intro test column
    simp only [IsOnly, h]
  apply Option.ext
  intro column
  rw [resolve?_eq_some_iff, resolve?_eq_some_iff]
  constructor
  · rintro (⟨hcut, hlast, hfits⟩ | ⟨hplain, hfits⟩)
    · exact .qualified hcut hlast ((honly _ _).1 hfits)
    · exact .bare hplain ((honly _ _).1 hfits)
  · rintro (⟨hcut, hlast, hfits⟩ | ⟨hplain, hfits⟩)
    · exact .qualified hcut hlast ((honly _ _).2 hfits)
    · exact .bare hplain ((honly _ _).2 hfits)

/-! ## §4 Pruned catalogs -/

theorem mem_retain_iff {available : String → Bool} :
    column ∈ (catalog.retain available).columns ↔
      column ∈ catalog.columns ∧ column.source.all (fun ref => available ref.table) = true :=
  List.mem_filter

@[simp] theorem retain_true (catalog : Catalog) : catalog.retain (fun _ => true) = catalog := by
  apply eq_of_columns
  simp [columns_retain]

/-- Pruning twice is pruning once, to what is available both times. -/
theorem retain_retain (catalog : Catalog) (available other : String → Bool) :
    (catalog.retain available).retain other = catalog.retain fun table => available table && other table := by
  apply eq_of_columns
  simp only [columns_retain, List.filter_filter]
  congr 1
  funext column
  cases column.source <;> simp [Bool.and_comm]

/-- Pruning again and again is pruning once, to what is available each time. -/
theorem foldl_retain (catalog : Catalog) (prunings : List (String → Bool)) :
    prunings.foldl retain catalog =
      catalog.retain fun table => prunings.all fun available => available table := by
  induction prunings generalizing catalog with
  | nil => simp
  | cons available prunings ih => rw [List.foldl_cons, ih, retain_retain]; rfl

/-- A column stays if it stays each time. -/
theorem mem_foldl_retain_iff {prunings : List (String → Bool)} :
    column ∈ (prunings.foldl retain catalog).columns ↔
      column ∈ catalog.columns ∧
        ∀ available ∈ prunings, column.source.all (fun ref => available ref.table) = true := by
  rw [foldl_retain, mem_retain_iff]
  cases column.source <;> simp

/-- **Which columns make a catalog, and what names mean in it.**  A list of columns makes a catalog exactly if
it is well formed, and otherwise its first fault is reported.  However a catalog is pruned, a name means the
only column that it fits, and it would mean the same if the columns stood in another order. -/
theorem ofColumns_resolves (columns : List Column) :
    ((∃ catalog, ofColumns columns = .ok catalog ∧ catalog.columns = columns) ↔ WellFormed columns) ∧
    (∀ fault, ofColumns columns = .error fault ↔ Faults columns fault) ∧
    ∀ catalog, ofColumns columns = .ok catalog → ∀ prunings : List (String → Bool),
      (∀ name column, (prunings.foldl retain catalog).resolve? name = some column ↔
        Means (prunings.foldl retain catalog).columns name column) ∧
      ∀ others : List Column, others.Perm columns → ∃ other, ofColumns others = .ok other ∧
        ∀ name, (prunings.foldl retain other).resolve? name =
          (prunings.foldl retain catalog).resolve? name := by
  refine ⟨⟨?_, fun hwell => ?_⟩, fun fault => ?_, fun catalog hok prunings => ⟨fun _ _ =>
    resolve?_eq_some_iff, fun others hperm => ?_⟩⟩
  · rintro ⟨catalog, -, rfl⟩
    exact wellFormed_iff_pairwise.2 catalog.compatible
  · exact ⟨.ofCompatible columns (wellFormed_iff_pairwise.1 hwell), ofColumns_eq_ok_iff.2 rfl, rfl⟩
  · exact ofColumns_eq_error_iff
  · obtain rfl := ofColumns_eq_ok_iff.1 hok
    have hcompatible : others.Pairwise Column.Compatible :=
      catalog.compatible.perm hperm.symm Column.Compatible.symm
    refine ⟨.ofCompatible others hcompatible, ofColumns_eq_ok_iff.2 rfl, resolve?_congr fun column => ?_⟩
    simp only [mem_foldl_retain_iff, columns_ofCompatible, hperm.mem_iff]

/-- A name of two fields, one of which is pruned, with the columns the other way round. -/
theorem ofColumns_resolves_pruned :
    let maker : Column := ⟨"maker", "Maker", some ⟨"Makers", "name"⟩, .text, true, true⟩
    let game : Column := ⟨"name", "Name", some ⟨"Games", "name"⟩, .text, true, true⟩
    let prunings : List (String → Bool) := [fun table => table == "Games"]
    ∃ catalog, ofColumns [maker, game] = .ok catalog ∧ [game, maker].Perm [maker, game] ∧
      catalog.resolve? " NAME" = none ∧ (prunings.foldl retain catalog).resolve? " NAME" = some game ∧
      Means (prunings.foldl retain catalog).columns " NAME" game ∧
      ∃ other, ofColumns [game, maker] = .ok other ∧
        ∀ name, (prunings.foldl retain other).resolve? name =
          (prunings.foldl retain catalog).resolve? name := by
  intro maker game prunings
  have htables : sameName "Makers" "Games" = false := by
    rw [sameName_eq]
    decide
  have hcompatible : [maker, game].Pairwise Column.Compatible := by
    simp [maker, game, Column.Compatible, Column.sharesField, Column.filterField, FieldRef.named, htables]
  have hok : ofColumns [maker, game] = .ok (.ofCompatible [maker, game] hcompatible) :=
    ofColumns_eq_ok_iff.2 rfl
  have hperm : [game, maker].Perm [maker, game] := .swap maker game []
  have hbare : splitLast '.' (trim " NAME".toList) = none := by decide
  have hfield : sameName "name" (String.ofList (trim " NAME".toList)) = true := by
    rw [sameName_eq]
    decide
  -- for any such name, so that nothing is computed with the text of this one
  have hboth : ∀ name, splitLast '.' (trim name.toList) = none →
      sameName "name" (String.ofList (trim name.toList)) = true →
      resolve? (.ofCompatible [maker, game] hcompatible) name = none := by
    intro name hbare hfield
    apply Option.eq_none_iff_forall_ne_some.2
    intro column
    rw [Ne, resolve?_bare_iff hbare]
    simp [matching_eq_filter, maker, game, Column.filterField, hfield]
  have hone : ∀ name, splitLast '.' (trim name.toList) = none →
      sameName "name" (String.ofList (trim name.toList)) = true →
      (prunings.foldl retain (.ofCompatible [maker, game] hcompatible)).resolve? name = some game := by
    intro name hbare hfield
    rw [resolve?_bare_iff hbare]
    simp [matching_eq_filter, maker, game, prunings, columns_retain, Column.filterField, hfield]
  have hpruned := hone " NAME" hbare hfield
  obtain ⟨hmeans, hperms⟩ := (ofColumns_resolves [maker, game]).2.2 _ hok prunings
  exact ⟨_, hok, hperm, hboth " NAME" hbare hfield, hpruned, (hmeans " NAME" game).1 hpruned,
    hperms [game, maker] hperm⟩

end Catalog
end CatalogFilter
