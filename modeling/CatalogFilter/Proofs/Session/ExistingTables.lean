import CatalogFilter.Proofs.Catalog.Resolution
import CatalogFilter.Proofs.Schema.Pruning
import CatalogFilter.Proofs.Session.Steps
import CatalogFilter.Proofs.Statement.Joins

/-!
# An opened session joins existing tables only

A session that is opened on a database keeps the columns whose tables can be reached there.  What it shows,
orders by and filters by are such columns, so every join in any of its statements is of a table that the
database has, or of the base table.

**Main definition**: `Session.Reachable`.  **Main statement**: `Session.joins_of_mem_ran`.
-/

namespace CatalogFilter

open Text

/-! ## §1 Statements of a pruned schema -/

theorem Catalog.mem_of_get?_eq_some {catalog : Catalog} {id : String} {column : Column}
    (h : catalog.get? id = some column) : column ∈ catalog.columns := (Catalog.get?_eq_some_iff.1 h).1

namespace Column

variable {column : Column} {field : FieldRef}

theorem source_of_filterField (h : column.filterField = some field) : column.source = some field := by
  unfold filterField at h
  split at h
  · exact h
  · cases h

theorem source_of_sortField (h : column.sortField = some field) : column.source = some field := by
  unfold sortField at h
  split at h
  · exact h
  · cases h

end Column

/-- A view of a pruned schema refers to tables that can be reached, apart from those of the required
fields. -/
theorem View.References.reachable {s : Schema} {tables : List String} {v : View} {table : String}
    (h : v.References (s.retainExisting tables) table) :
    (∃ field ∈ s.requiredFields, field.table = table) ∨ s.reachable tables table = true := by
  -- one case for each way in which a view refers to a table
  cases h with
  | required listed => exact .inl ⟨_, listed, rfl⟩
  | shown _ known reads =>
    exact .inr (Schema.reachable_of_mem_retainExisting (Catalog.mem_of_get?_eq_some known)
      (Column.source_of_filterField reads))
  | ordered _ known reads =>
    exact .inr (Schema.reachable_of_mem_retainExisting (Catalog.mem_of_get?_eq_some known)
      (Column.source_of_sortField reads))
  | compared _ _ means reads =>
    have hmem := (List.mem_filter.1 (Catalog.mem_filterable_of_resolve? means)).1
    exact .inr (Schema.reachable_of_mem_retainExisting hmem (Column.source_of_filterField reads))

/-- **A statement of a pruned schema joins existing tables**, if the required fields need no join. -/
theorem Plan.tableExists_of_mem_joined {s : Schema} {tables : List String} {v : View} {spec : JoinSpec}
    (hrequired : ∀ field ∈ s.requiredFields, s.joins.get? field.table = none)
    (h : spec ∈ Plan.joined (s.retainExisting tables) v) :
    spec ∈ s.joins.specs ∧ s.tableExists tables spec.physicalTable = true := by
  -- a join that is written is needed by the join of a table to which the view refers
  obtain ⟨start, hstart, ⟨table, hrefers, hname⟩, hreach⟩ := Plan.mem_joined_iff.1 h
  have hget : s.joins.get? table = some start := JoinGraph.get?_eq_some_iff.2 ⟨hstart, hname⟩
  refine ⟨Resolver.mem_specs_of_reaches hstart hreach, ?_⟩
  rcases hrefers.reachable with ⟨field, hfield, rfl⟩ | hreachable
  · simp [hrequired field hfield] at hget
  · exact (Schema.reachable_iff.1 hreachable).1 spec (JoinGraph.mem_reach_iff.2 ⟨start, hget, hreach⟩)

/-! ## §2 What a session executes -/

namespace Session

variable {s : Session}

/-- A session that was opened on a database with the given tables, after any steps, whether these succeed or
fail, and whatever the database answers. -/
inductive Reachable (schema : Schema) (tables : List String) : Session → Prop
  /-- As it was opened. -/
  | opened {s : Session} (h : opened schema (.ok tables) = .ok s) : Reachable schema tables s
  /-- With other columns, before anything is run. -/
  | withColumns {s t : Session} {columns : List String} (hs : Reachable schema tables s)
      (h : s.withColumns columns = .ok t) : Reachable schema tables t
  /-- With another ordering, before anything is run. -/
  | withSort {s t : Session} {sort : List SortKey} (hs : Reachable schema tables s)
      (h : s.withSort sort = .ok t) : Reachable schema tables t
  /-- After a request to any database, which may succeed or fail. -/
  | after {s : Session} (hs : Reachable schema tables s) (r : Request) : Reachable schema tables (s.after r)

/-- The schema of a session stays what it was when the session was opened. -/
theorem Reachable.schema_eq {schema : Schema} {tables : List String} (h : Reachable schema tables s) :
    s.schema = schema.retainExisting tables := by
  -- on how the session came about: the schema is set once, when it is opened
  induction h with
  | opened h =>
    cases h
    rfl
  | withColumns _ h ih =>
    unfold Session.withColumns at h
    split at h <;> cases h
    exact ih
  | withSort _ h ih =>
    unfold Session.withSort at h
    split at h <;> cases h
    exact ih
  | after _ r ih => rw [after_schema, ih]

/-- A step puts nothing to a database but the statement of the state that its change leads to. -/
theorem exists_next_of_mem_ran {db : Database} {change : Change} {sql : String}
    (h : sql ∈ (s.step db change).ran) :
    ∃ state, s.next change = .ok state ∧ sql = (Statement.ofView s.schema state.view).sql := by
  rcases s.step_cases db change with ⟨_, _, hs⟩ | ⟨state, _, hn, _, hs⟩ | ⟨state, _, hn, _, hs⟩
  · simp [hs] at h
  · exact ⟨state, hn, by simpa [hs, statementOf] using h⟩
  · exact ⟨state, hn, by simpa [hs, statementOf] using h⟩

/-- **An opened session never joins a missing table.**  If the required fields need no join, then whatever a
session has gone through since it was opened on a database, and whatever is asked of it next, the statement
that it puts to the database joins physical tables only which that has, up to case, or the base table. -/
theorem joins_of_mem_ran {schema : Schema} {tables : List String}
    (hrequired : ∀ field ∈ schema.requiredFields, schema.joins.get? field.table = none)
    (hs : Reachable schema tables s) (db : Database) (change : Change) {sql : String}
    (h : sql ∈ (s.step db change).ran) :
    ∃ state, s.next change = .ok state ∧
      sql.toList = (Plan.ofView s.schema state.view).opening ++
        (Plan.joined s.schema state.view).flatMap (fun spec => ' ' :: spec.clause.toList) ++
        (Plan.ofView s.schema state.view).closing ∧
      ∀ spec ∈ Plan.joined s.schema state.view, spec ∈ schema.joins.specs ∧
        (sameName spec.physicalTable schema.baseTable = true ∨
          ∃ table ∈ tables, sameName spec.physicalTable table = true) := by
  obtain ⟨state, hn, rfl⟩ := exists_next_of_mem_ran h
  refine ⟨state, hn, Statement.toList_sql s.schema state.view, fun spec hspec => ?_⟩
  -- the schema is the pruned one, whatever was done since
  rw [hs.schema_eq] at hspec
  obtain ⟨hmem, hexists⟩ := Plan.tableExists_of_mem_joined hrequired hspec
  exact ⟨hmem, Schema.tableExists_iff.1 hexists⟩

/-- A table under a further name is joined.  One whose link is missing is not, though the filter names it. -/
theorem joins_of_mem_ran_missing_link :
    let column (id table : String) : Column := ⟨id, id, some ⟨table, "n"⟩, .text, true, true⟩
    let columns : List Column := [column "t" "g", column "up" "p", column "by" "m"]
    let parent : JoinSpec := ⟨"p", [], "LEFT JOIN g AS p", some "g"⟩
    let maker : JoinSpec := ⟨"m", ["l"], "LEFT JOIN m", none⟩
    let link : JoinSpec := ⟨"l", [], "LEFT JOIN l", none⟩
    let schema : Schema :=
      ⟨"g", [⟨"g", "id"⟩], .ofCompatible columns (by decide +kernel),
        ⟨[parent, maker, link], by decide +kernel⟩⟩
    let locked : Request := ⟨fun sql => .error (.database sql "locked"), .refresh⟩
    let s := (start (schema.retainExisting ["g", "m"])).after locked
    let db : Database := fun _ => .ok .empty
    let change : Change := .setFilter "p.n = 1 OR m.n = 2"
    let sql := "SELECT g.id, g.n, p.n FROM g LEFT JOIN g AS p WHERE p.n = 1 OR m.n = 2"
    (∀ field ∈ schema.requiredFields, schema.joins.get? field.table = none) ∧
    Reachable schema ["g", "m"] s ∧ sql ∈ (s.step db change).ran ∧
    ∃ state, s.next change = .ok state ∧
      sql.toList = (Plan.ofView s.schema state.view).opening ++
        (Plan.joined s.schema state.view).flatMap (fun spec => ' ' :: spec.clause.toList) ++
        (Plan.ofView s.schema state.view).closing ∧
      ∀ spec ∈ Plan.joined s.schema state.view, spec ∈ schema.joins.specs ∧
        (sameName spec.physicalTable schema.baseTable = true ∨
          ∃ table ∈ ["g", "m"], sameName spec.physicalTable table = true) := by
  intro column columns parent maker link schema locked s db change sql
  have hrequired : ∀ field ∈ schema.requiredFields, schema.joins.get? field.table = none := by
    decide +kernel
  have hs : Reachable schema ["g", "m"] s := .after (.opened rfl) _
  -- what each table needs: the base table nothing, the parents the games again, the makers a link
  have hbase : schema.joins.reach "g" = [] := JoinGraph.reach_eq_nil_iff.2 (by decide +kernel)
  have hparent : schema.joins.reach "p" = [parent] := by
    have hget : schema.joins.get? "p" = some parent := by decide +kernel
    have hneeds : JoinGraph.dependencies schema.joins.specs parent = [] := by decide +kernel
    have hmem : parent ∈ schema.joins.specs := by simp [schema]
    simp [JoinGraph.reach, hget, JoinGraph.visit, hneeds, hmem]
  have hmaker : schema.joins.reach "m" = [maker, link] := by
    have hget : schema.joins.get? "m" = some maker := by decide +kernel
    have hneeds : JoinGraph.dependencies schema.joins.specs maker = [link] := by decide +kernel
    have hends : JoinGraph.dependencies schema.joins.specs link = [] := by decide +kernel
    have hmem : maker ∈ schema.joins.specs ∧ link ∈ schema.joins.specs := by simp [schema]
    simp [JoinGraph.reach, hget, JoinGraph.visit, hneeds, hends, hmem, maker, link]
  -- the link is the table that the database does not have
  have hkept : ∀ table ∈ ["g", "p"], schema.reachable ["g", "m"] table = true := by
    simp only [Schema.reachable, JoinGraph.physicalTables, List.forall_mem_cons, hbase, hparent]
    decide +kernel
  have hdropped : schema.reachable ["g", "m"] "m" = false := by
    simp only [Schema.reachable, JoinGraph.physicalTables, hmaker]
    decide +kernel
  have hcolumns : (columns.filter fun column => column.source.all fun ref =>
      schema.reachable ["g", "m"] ref.table) = [column "t" "g", column "up" "p"] := by
    simp [columns, column, hkept, hdropped]
  have hpruned : schema.retainExisting ["g", "m"] =
      { schema with catalog := .ofCompatible [column "t" "g", column "up" "p"] (by decide +kernel) } := by
    rw [Schema.retainExisting]
    congr 1
    exact Catalog.eq_of_columns hcolumns
  -- the failed refresh has changed nothing, so the statement is that of the pruned schema
  have hsql : sql ∈ (s.step db change).ran := by
    show sql ∈ (((start (schema.retainExisting ["g", "m"])).after _).step db change).ran
    rw [hpruned]
    decide +kernel
  exact ⟨hrequired, hs, hsql, joins_of_mem_ran hrequired hs db change hsql⟩

end Session
end CatalogFilter
