import CatalogFilter.Proofs.Catalog.Validation
import CatalogFilter.Proofs.Join.Agreement
import CatalogFilter.Proofs.Schema.Pruning

/-!
# Columns that stay

A schema that is pruned to the tables of a database keeps, in their order, the columns that read no table and
those whose table can be brought into a statement: every join that a fresh resolver emits for it is of an
existing table, or no join is declared for it and it exists itself.  The index of the columns is written anew,
since those that stay have moved.  Pruning to several databases one after the other is pruning once, to the
tables that all of them have.

**Main definitions**: `Schema.Keeps` and `Schema.IsCommon`.  **Main statement**: `Schema.retainExisting_keeps`.
-/

namespace CatalogFilter

open Text

namespace Schema

variable {s : Schema} {column : Column} {tables other : List String}

/-! ## §1 Which columns stay -/

/-- Is a table the base table or one of a database, up to case? -/
def Available (s : Schema) (tables : List String) (table : String) : Prop :=
  sameName table s.baseTable = true ∨ ∃ other ∈ tables, sameName table other = true

/-- Does a column stay when a schema is pruned to the tables of a database? -/
inductive Keeps (s : Schema) (tables : List String) (column : Column) : Prop
  /-- It reads no table. -/
  | unsourced (none : column.source = none)
  /-- Its table has a join, and all that is joined for it exists. -/
  | joined {ref : FieldRef} (reads : column.source = some ref)
      (declared : ∃ spec ∈ s.joins.specs, sameName spec.table ref.table = true)
      (available : ∀ spec ∈ (Resolver.resolve s.joins .fresh ref.table).2.emitted,
        s.Available tables spec.physicalTable)
  /-- Its table has no join, and exists itself. -/
  | unjoined {ref : FieldRef} (reads : column.source = some ref)
      (undeclared : ∀ spec ∈ s.joins.specs, sameName spec.table ref.table = false)
      (available : s.Available tables ref.table)

/-- A table can be reached by the joins that a fresh resolver emits for it, or without a join. -/
theorem reachable_iff_available {table : String} :
    s.reachable tables table = true ↔
      (∀ spec ∈ (Resolver.resolve s.joins .fresh table).2.emitted, s.Available tables spec.physicalTable) ∧
        ((∀ spec ∈ s.joins.specs, sameName spec.table table = false) → s.Available tables table) := by
  simp only [reachable_iff, tableExists_iff, JoinGraph.get?_eq_none_iff, Resolver.mem_emitted_iff, Available]

theorem keeps_iff :
    column.source.all (fun ref => s.reachable tables ref.table) = true ↔ s.Keeps tables column := by
  -- one case for each reason to stay
  cases hsource : column.source with
  | none => exact ⟨fun _ => .unsourced hsource, fun _ => rfl⟩
  | some ref =>
    rw [Option.all_some, reachable_iff_available]
    constructor
    · rintro ⟨hjoins, hself⟩
      by_cases hdeclared : ∃ spec ∈ s.joins.specs, sameName spec.table ref.table = true
      · exact .joined hsource hdeclared hjoins
      · have hundeclared : ∀ spec ∈ s.joins.specs, sameName spec.table ref.table = false :=
          fun spec hspec => Bool.eq_false_iff.2 fun hname => hdeclared ⟨spec, hspec, hname⟩
        exact .unjoined hsource hundeclared (hself hundeclared)
    · rintro (hnone | ⟨reads, ⟨spec, hspec, hname⟩, available⟩ | ⟨reads, undeclared, available⟩)
      · simp [hsource] at hnone
      · obtain rfl : ref = _ := by simpa [hsource] using reads
        refine ⟨available, fun hundeclared => ?_⟩
        simp [hundeclared spec hspec] at hname
      · obtain rfl : ref = _ := by simpa [hsource] using reads
        refine ⟨fun spec hspec => ?_, fun _ => available⟩
        -- a resolver emits nothing for a table without a join
        obtain ⟨start, hget, -⟩ := JoinGraph.mem_reach_iff.1 (Resolver.mem_emitted_iff.1 hspec)
        obtain ⟨hstart, hname⟩ := JoinGraph.get?_eq_some_iff.1 hget
        simp [undeclared start hstart] at hname

/-- **The columns that stay.** -/
theorem mem_retainExisting_iff :
    column ∈ (s.retainExisting tables).catalog.columns ↔
      column ∈ s.catalog.columns ∧ s.Keeps tables column := by
  rw [← keeps_iff]
  exact List.mem_filter

/-! ## §2 Pruning more than once -/

/-- Are the names of a list those that all lists of a run have, up to case? -/
def IsCommon (run : List (List String)) (common : List String) : Prop :=
  ∀ name, (∃ other ∈ common, sameName name other = true) ↔
    ∀ tables ∈ run, ∃ other ∈ tables, sameName name other = true

/-- The lists of a run have names in common, if there is a list. -/
theorem exists_isCommon (first : List String) (rest : List (List String)) :
    ∃ common, IsCommon (first :: rest) common := by
  -- the names of the first list that every other list has too
  refine ⟨first.filter fun name => rest.all fun tables => tables.any (sameName name), fun name => ?_⟩
  simp only [List.mem_filter, List.all_eq_true, List.any_eq_true, List.forall_mem_cons]
  constructor
  · rintro ⟨a, ⟨ha, hrest⟩, hname⟩
    refine ⟨⟨a, ha, hname⟩, fun tables htables => ?_⟩
    obtain ⟨b, hb, hab⟩ := hrest tables htables
    exact ⟨b, hb, sameName_trans hname hab⟩
  · rintro ⟨⟨a, ha, hname⟩, hrest⟩
    refine ⟨a, ⟨ha, fun tables htables => ?_⟩, hname⟩
    obtain ⟨b, hb, hother⟩ := hrest tables htables
    exact ⟨b, hb, sameName_trans (by rwa [sameName_comm]) hother⟩

variable {run : List (List String)} {common : List String}

theorem tableExists_common (h : IsCommon run common) {table : String} :
    s.tableExists common table = true ↔ ∀ tables ∈ run, s.tableExists tables table = true := by
  simp only [tableExists_iff, h table, forall_or_left]

/-- A table can be reached with the common names exactly if it can be reached with each list. -/
theorem reachable_common (h : IsCommon run common) {table : String} :
    s.reachable common table = true ↔ ∀ tables ∈ run, s.reachable tables table = true := by
  simp only [reachable_iff, tableExists_common h]
  constructor
  · rintro ⟨hjoins, hself⟩ tables htables
    exact ⟨fun spec hspec => hjoins spec hspec tables htables, fun hnone => hself hnone tables htables⟩
  · intro hall
    exact ⟨fun spec hspec tables htables => (hall tables htables).1 spec hspec,
      fun hnone tables htables => (hall tables htables).2 hnone⟩

/-- A run of prunings prunes the columns, each time to the tables that can be reached then. -/
theorem foldl_retainExisting (s : Schema) (run : List (List String)) :
    run.foldl retainExisting s =
      { s with catalog := (run.map s.reachable).foldl Catalog.retain s.catalog } := by
  induction run generalizing s with
  | nil => rfl
  | cons tables run ih =>
    -- which tables can be reached is a matter of the joins, and these stay
    have hreach : (s.retainExisting tables).reachable = s.reachable := rfl
    rw [List.foldl_cons, ih, hreach]
    rfl

/-- A column stays if it stays each time. -/
theorem mem_foldl_retainExisting_iff :
    column ∈ (run.foldl retainExisting s).catalog.columns ↔
      column ∈ s.catalog.columns ∧ ∀ tables ∈ run, s.Keeps tables column := by
  rw [foldl_retainExisting, Catalog.mem_foldl_retain_iff]
  simp only [List.forall_mem_map, keeps_iff]

theorem sublist_foldl_retainExisting (s : Schema) (run : List (List String)) :
    (run.foldl retainExisting s).catalog.columns.Sublist s.catalog.columns := by
  rw [foldl_retainExisting, Catalog.foldl_retain]
  exact List.filter_sublist

/-- The order of the prunings does not matter. -/
theorem foldl_retainExisting_perm {others : List (List String)} (h : others.Perm run) :
    others.foldl retainExisting s = run.foldl retainExisting s := by
  rw [foldl_retainExisting, foldl_retainExisting, Catalog.foldl_retain, Catalog.foldl_retain]
  congr 2
  funext table
  exact (h.map s.reachable).all_eq

/-- **Pruning again and again is pruning once, to the names in common.** -/
theorem foldl_retainExisting_common (h : IsCommon run common) :
    run.foldl retainExisting s = s.retainExisting common := by
  -- both sides prune once, to tables that are reached in the same cases
  rw [foldl_retainExisting, Catalog.foldl_retain, retainExisting]
  congr 2
  funext table
  rw [Bool.eq_iff_iff, reachable_common h]
  simp

/-- A pruning makes the index from the columns that stay: whatever index there was, it is right then. -/
theorem retain_reindexes (s : Schema) (tables : List String) (index : SortedMap String Nat) :
    let pruned := IndexedColumns.retain ⟨s.catalog.columns, index⟩ (s.reachable tables)
    (s.retainExisting tables).catalog.toIndexedColumns = pruned ∧ pruned.Agrees := by
  -- only the ids of the columns matter, which differ
  have hids : s.catalog.columns.Pairwise fun a b => a.id ≠ b.id := s.catalog.compatible.imp fun h => h.1
  exact ⟨rfl, IndexedColumns.agrees_retain hids (s.reachable tables)⟩

/-- **Pruning to existing tables.**  The columns that stay are those that read no table and those whose table
can be brought into a statement.  After any prunings they stand in their order.  The index has been written
anew each time, from the columns that stay and not from the index before, and it is right: a look-up of an id
finds what stands in the list.  The prunings can be made in any order, and also at once, to the names that all
of them have. -/
theorem retainExisting_keeps (s : Schema) :
    (∀ tables column, column ∈ (s.retainExisting tables).catalog.columns ↔
      column ∈ s.catalog.columns ∧ s.Keeps tables column) ∧
    ∀ run : List (List String),
      let pruned := run.foldl retainExisting s
      (∀ column, column ∈ pruned.catalog.columns ↔
        column ∈ s.catalog.columns ∧ ∀ tables ∈ run, s.Keeps tables column) ∧
      pruned.catalog.columns.Sublist s.catalog.columns ∧
      (∀ id column, pruned.catalog.get? id = some column ↔
        column ∈ pruned.catalog.columns ∧ column.id = id) ∧
      (∀ id place, pruned.catalog.position? id = some place ↔
        ∃ column, pruned.catalog.columns[place]? = some column ∧ column.id = id) ∧
      (∀ (tables : List String) (index : SortedMap String Nat),
        let next := IndexedColumns.retain ⟨pruned.catalog.columns, index⟩ (pruned.reachable tables)
        (pruned.retainExisting tables).catalog.toIndexedColumns = next ∧ next.Agrees) ∧
      (∀ others : List (List String), others.Perm run → others.foldl retainExisting s = pruned) ∧
      (run ≠ [] → ∃ common, IsCommon run common) ∧
      ∀ common, IsCommon run common → pruned = s.retainExisting common := by
  refine ⟨fun tables column => mem_retainExisting_iff, fun run => ?_⟩
  refine ⟨fun _ => mem_foldl_retainExisting_iff, sublist_foldl_retainExisting s run,
    fun _ _ => Catalog.get?_eq_some_iff, fun _ _ => Catalog.position?_eq_some_iff, retain_reindexes _,
    fun _ hperm => foldl_retainExisting_perm hperm, fun hrun => ?_,
    fun _ hcommon => foldl_retainExisting_common hcommon⟩
  obtain ⟨first, rest, rfl⟩ := List.exists_cons_of_ne_nil hrun
  exact exists_isCommon first rest

/-- A table with a link, and one without a join that is not in each list.  Its column goes, and the other one
moves to its place. -/
theorem retainExisting_keeps_linked :
    let column (id table : String) : Column := ⟨id, id, some ⟨table, "n"⟩, .text, true, true⟩
    let columns : List Column := [column "of" "x", column "by" "m"]
    let maker : JoinSpec := ⟨"m", ["l"], "LEFT JOIN m", none⟩
    let link : JoinSpec := ⟨"l", [], "LEFT JOIN l", none⟩
    let s : Schema :=
      ⟨"g", [], .ofCompatible columns (by decide +kernel), ⟨[maker, link], by decide +kernel⟩⟩
    let run := [["l", "x", "m"], ["m", "l"]]
    let others := [["m", "l"], ["l", "x", "m"]]
    let common := ["l", "m"]
    others.Perm run ∧ run ≠ [] ∧ IsCommon run common ∧
      column "by" "m" ∈ (s.retainExisting common).catalog.columns ∧
      column "of" "x" ∉ (s.retainExisting common).catalog.columns ∧
      s.catalog.position? "by" = some 1 ∧ (run.foldl retainExisting s).catalog.position? "by" = some 0 ∧
      run.foldl retainExisting s = s.retainExisting common ∧
      others.foldl retainExisting s = s.retainExisting common ∧ ∃ names, IsCommon run names := by
  intro column columns maker link s run others common
  have hperm : others.Perm run := .swap _ _ []
  have hcommon : IsCommon run common := by
    intro name
    simp only [run, common, List.forall_mem_cons, List.exists_mem_cons_iff, List.not_mem_nil, false_and,
      exists_false, or_false, forall_false]
    tauto
  -- the table and its link are in both lists, the other table in one
  have hkeeps : s.Keeps common (column "by" "m") := by
    have hdeclared : ∃ spec ∈ s.joins.specs, sameName spec.table "m" = true := by decide +kernel
    have havailable : ∀ spec ∈ (Resolver.resolve s.joins .fresh "m").2.emitted,
        sameName spec.physicalTable "g" = true ∨
          ∃ other ∈ common, sameName spec.physicalTable other = true := by
      decide +kernel
    exact .joined rfl hdeclared havailable
  have hreachable : s.reachable common "m" = true := by simpa [column] using keeps_iff.2 hkeeps
  have hunreachable : s.reachable common "x" = false := by
    have hnone : s.joins.get? "x" = none := by decide +kernel
    have hmissing : s.tableExists common "x" = false := by decide +kernel
    simp [Bool.eq_false_iff, reachable_iff, hnone, hmissing]
  have hdrops : ¬ s.Keeps common (column "of" "x") := by
    intro hkeeps
    have hreaches := keeps_iff.2 hkeeps
    simp [column, hunreachable] at hreaches
  have hcolumns : (s.retainExisting common).catalog.columns = [column "by" "m"] := by
    simp [retainExisting, Catalog.columns_retain, s, columns, column, hreachable, hunreachable]
  obtain ⟨hstays, hruns⟩ := retainExisting_keeps s
  obtain ⟨-, -, -, hplaces, -, horder, hexists, hcalls⟩ := hruns run
  have hmoved : (run.foldl retainExisting s).catalog.position? "by" = some 0 := by
    rw [hplaces, hcalls common hcommon, hcolumns]
    exact ⟨column "by" "m", rfl, rfl⟩
  refine ⟨hperm, List.cons_ne_nil _ _, hcommon, (hstays common _).2 ⟨by simp [s, columns], hkeeps⟩,
    fun hmem => hdrops ((hstays common _).1 hmem).2, by decide +kernel, hmoved, hcalls common hcommon,
    (horder others hperm).trans (hcalls common hcommon), hexists (List.cons_ne_nil _ _)⟩

end Schema
end CatalogFilter
