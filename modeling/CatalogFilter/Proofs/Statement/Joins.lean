import CatalogFilter.Proofs.Join.Emission
import CatalogFilter.Statement.Basic

/-!
# The joins of a statement

A statement names tables in four places: the required fields, the columns that are shown, those that rows are
ordered by, and the columns that the names in its filter mean.  Between its base table and its condition
stand the clauses of the joins that these tables need, each once and behind those that it depends on, and no
others.

**Main definitions**: `View.References` and `Plan.joined`.  **Main statement**: `Statement.sql_joins`.
-/

namespace CatalogFilter

open Text JoinGraph

/-! ## §1 The tables that a view refers to -/

/-- A view refers to the tables of what is always selected, of what it shows, of what it orders by, and of
the columns that its filter compares, whether these are shown or not. -/
inductive View.References (s : Schema) (v : View) : String → Prop
  /-- The table of a field that every statement selects. -/
  | required {field : FieldRef} (listed : field ∈ s.requiredFields) : References s v field.table
  /-- The table of a column that is shown, if it can be filtered. -/
  | shown {id : String} {column : Column} {field : FieldRef} (listed : id ∈ v.columns)
      (known : s.catalog.get? id = some column) (reads : column.filterField = some field) :
      References s v field.table
  /-- The table of a column that rows are ordered by. -/
  | ordered {key : SortKey} {column : Column} {field : FieldRef} (listed : key ∈ v.sort)
      (known : s.catalog.get? key.column = some column) (reads : column.sortField = some field) :
      References s v field.table
  /-- The table of a column that the filter names, shown or not. -/
  | compared {e : Expr} {name : String} {column : Column} {field : FieldRef}
      (read : Expr.ofString (trimmed v.filter) = .ok e) (named : name ∈ e.names)
      (means : s.catalog.resolve? name = some column) (reads : column.filterField = some field) :
      References s v field.table

namespace View

variable {v : View} {catalog : Catalog}

/-- Leaving out repetitions loses nothing. -/
theorem mem_firstOnly {ids : List String} {id : String} : id ∈ firstOnly ids ↔ id ∈ ids := by
  -- for any ids that have been kept so far
  have hfold : ∀ kept : List String,
      id ∈ ids.foldl (fun kept id => if id ∈ kept then kept else kept ++ [id]) kept ↔
        id ∈ kept ∨ id ∈ ids := by
    induction ids with
    | nil => simp
    | cons first ids ih =>
      intro kept
      rw [List.foldl_cons, ih, List.mem_cons]
      split
      next hkept =>
        -- the id is dropped, for it is among those that have been kept
        constructor
        · exact Or.imp_right .inr
        · rintro (h | rfl | h)
          · exact .inl h
          · exact .inl hkept
          · exact .inr h
      next => rw [List.mem_append, List.mem_singleton, or_assoc]
  simpa [firstOnly] using hfold []

theorem mem_selected_iff {id : String} {field : FieldRef} :
    (id, field) ∈ v.selected catalog ↔
      id ∈ v.columns ∧ ∃ column, catalog.get? id = some column ∧ column.filterField = some field := by
  simp only [selected, List.mem_filterMap, mem_firstOnly, Option.bind_eq_bind, Option.bind_eq_some_iff,
    Option.pure_def, Option.some.injEq, Prod.mk.injEq]
  constructor
  · rintro ⟨_, hid, column, hget, other, hfield, rfl, rfl⟩
    exact ⟨hid, column, hget, hfield⟩
  · rintro ⟨hid, column, hget, hfield⟩
    exact ⟨id, hid, column, hget, field, hfield, rfl, rfl⟩

theorem mem_ordering_iff {field : FieldRef} {ascending : Bool} :
    (field, ascending) ∈ v.ordering catalog ↔ ∃ key ∈ v.sort, key.ascending = ascending ∧
      ∃ column, catalog.get? key.column = some column ∧ column.sortField = some field := by
  simp only [ordering, List.mem_filterMap, Option.bind_eq_bind, Option.bind_eq_some_iff,
    Option.pure_def, Option.some.injEq, Prod.mk.injEq]
  constructor
  · rintro ⟨key, hkey, column, hget, other, hfield, rfl, rfl⟩
    exact ⟨key, hkey, rfl, column, hget, hfield⟩
  · rintro ⟨key, hkey, rfl, column, hget, hfield⟩
    exact ⟨key, hkey, column, hget, field, hfield, rfl, rfl⟩

theorem filterExpr?_eq_some_iff {e : Expr} :
    v.filterExpr? = some e ↔ Expr.ofString (trimmed v.filter) = .ok e := by
  unfold filterExpr? filterText Expr.ofString?
  cases Expr.ofString (trimmed v.filter) <;> simp [Except.toOption]

theorem mem_filterFields_iff {field : FieldRef} :
    field ∈ v.filterFields catalog ↔ ∃ e, Expr.ofString (trimmed v.filter) = .ok e ∧
      ∃ name ∈ e.names, ∃ column, catalog.resolve? name = some column ∧
        column.filterField = some field := by
  unfold filterFields
  cases hexpr : v.filterExpr? with
  | none =>
    -- a filter that is no expression compares nothing
    have hnot : ∀ e, Expr.ofString (trimmed v.filter) ≠ .ok e := by
      intro e he
      simp [filterExpr?_eq_some_iff.2 he] at hexpr
    simp [hnot]
  | some e =>
    have he := filterExpr?_eq_some_iff.1 hexpr
    simp [he, Option.bind_eq_some_iff]

end View

/-- The tables that are gathered for a statement are those that its view refers to. -/
theorem Plan.mem_tables_iff {s : Schema} {v : View} {table : String} :
    table ∈ Plan.tables s v ↔ v.References s table := by
  simp only [Plan.tables, List.mem_append, List.mem_map]
  constructor
  · -- the four lists that are gathered, in their order
    rintro (((⟨field, hfield, rfl⟩ | ⟨⟨id, field⟩, hshown, rfl⟩) | ⟨⟨field, ascending⟩, hkey, rfl⟩) |
      ⟨field, hcompared, rfl⟩)
    · exact .required hfield
    · obtain ⟨hid, column, hget, hreads⟩ := View.mem_selected_iff.1 hshown
      exact .shown hid hget hreads
    · obtain ⟨key, hmem, _, column, hget, hreads⟩ := View.mem_ordering_iff.1 hkey
      exact .ordered hmem hget hreads
    · obtain ⟨e, hread, name, hnamed, column, hmeans, hreads⟩ := View.mem_filterFields_iff.1 hcompared
      exact .compared hread hnamed hmeans hreads
  · intro h
    cases h with
    | required listed => exact .inl (.inl (.inl ⟨_, listed, rfl⟩))
    | @shown id column field listed known reads =>
      exact .inl (.inl (.inr ⟨(id, field), View.mem_selected_iff.2 ⟨listed, column, known, reads⟩, rfl⟩))
    | @ordered key column field listed known reads =>
      have hkey := View.mem_ordering_iff.2 ⟨key, listed, rfl, column, known, reads⟩
      exact .inl (.inr ⟨(field, key.ascending), hkey, rfl⟩)
    | @compared e name column field read named means reads =>
      exact .inr ⟨field, View.mem_filterFields_iff.2 ⟨e, read, name, named, column, means, reads⟩, rfl⟩

/-! ## §2 The joins that are written -/

namespace Plan

/-- The joins of the statement of a view, in the order in which they are written. -/
def joined (s : Schema) (v : View) : List JoinSpec :=
  (Resolver.fresh.resolveAll s.joins (tables s v)).2.emitted

/-- A statement up to its joins. -/
def opening (p : Plan) : List Char :=
  "SELECT ".toList ++ ", ".toList.intercalate (p.select.map FieldRef.render) ++
    " FROM ".toList ++ p.base.toList

/-- A statement from its joins on: the condition and the ordering. -/
def closing (p : Plan) : List Char :=
  (if p.condition.isEmpty then [] else " WHERE ".toList ++ p.condition) ++
    (if p.ordering.isEmpty then []
      else " ORDER BY ".toList ++
        ", ".toList.intercalate (p.ordering.map fun (field, ascending) => orderTerm field ascending))

theorem render_eq (p : Plan) :
    p.render = p.opening ++ p.joins.flatMap (fun clause => ' ' :: clause.toList) ++ p.closing := by
  unfold render opening closing
  rw [← List.append_assoc]

theorem joins_ofView (s : Schema) (v : View) :
    (ofView s v).joins = (joined s v).map JoinSpec.clause := rfl

/-- The joins of a statement are what a resolver emits when it is asked for all tables at once. -/
theorem joined_eq (s : Schema) (v : View) :
    joined s v = (Resolver.answers s.joins .fresh [.several (tables s v)]).2.emitted := by
  simp only [joined, Resolver.answers, Resolver.answer]

theorem nodup_joined (s : Schema) (v : View) : (joined s v).Nodup := by
  rw [joined_eq]
  exact Resolver.nodup_answers s.joins _

/-- What a join depends on is written before it. -/
theorem mem_before_joined {s : Schema} {v : View} {before after : List JoinSpec} {spec needed : JoinSpec}
    (h : joined s v = before ++ spec :: after) (hn : s.joins.DependsOn spec needed) : needed ∈ before := by
  rw [joined_eq] at h
  exact Resolver.mem_before_of_dependsOn h hn

/-- The joins of a statement are those that the tables need which its view refers to. -/
theorem mem_joined_iff {s : Schema} {v : View} {spec : JoinSpec} :
    spec ∈ joined s v ↔ ∃ start ∈ s.joins.specs,
      (∃ table, v.References s table ∧ sameName start.table table = true) ∧
        Relation.ReflTransGen s.joins.DependsOn start spec := by
  rw [joined_eq, Resolver.mem_answers_iff]
  -- all tables are asked for in one call
  have hrequested : Resolver.requested [.several (tables s v)] = tables s v := by
    simp [Resolver.requested, Resolver.Request.tables]
  simp only [hrequested, mem_tables_iff]

end Plan

/-- The text of a statement around its joins. -/
theorem Statement.toList_sql (s : Schema) (v : View) :
    (Statement.ofView s v).sql.toList = (Plan.ofView s v).opening ++
      (Plan.joined s v).flatMap (fun spec => ' ' :: spec.clause.toList) ++ (Plan.ofView s v).closing := by
  rw [Statement.ofView, String.toList_ofList, Plan.render_eq, Plan.joins_ofView, List.flatMap_map]

/-- **A statement joins exactly what it refers to.**  Between the base table and the condition stand the
clauses of joins, each once, and each behind the clauses of all that it depends on.  The joins are those that
the tables need which the view refers to, in zero or more steps, and there are no others. -/
theorem Statement.sql_joins (s : Schema) (v : View) :
    (Statement.ofView s v).sql.toList = (Plan.ofView s v).opening ++
      (Plan.joined s v).flatMap (fun spec => ' ' :: spec.clause.toList) ++ (Plan.ofView s v).closing ∧
    (Plan.joined s v).Nodup ∧
    (∀ before spec after, Plan.joined s v = before ++ spec :: after →
      ∀ needed, s.joins.DependsOn spec needed → needed ∈ before) ∧
    ∀ spec, spec ∈ Plan.joined s v ↔ ∃ start ∈ s.joins.specs,
      (∃ table, v.References s table ∧ sameName start.table table = true) ∧
        Relation.ReflTransGen s.joins.DependsOn start spec := by
  refine ⟨Statement.toList_sql s v, Plan.nodup_joined s v, ?_, fun _ => Plan.mem_joined_iff⟩
  intro before spec after hsplit needed hn
  exact Plan.mem_before_joined hsplit hn

end CatalogFilter
