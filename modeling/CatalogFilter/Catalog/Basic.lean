import CatalogFilter.Catalog.Index
import CatalogFilter.Text.Blank
import CatalogFilter.Text.Split

/-!
# Column catalogs

A catalog holds the columns of a view in display order, with an index of their ids.  Its columns differ in
their ids, and no two columns that can be filtered read the same field, so that a name in a filter means at
most one column.
**Main definitions**: `Catalog.ofColumns` checks a list of columns, `Catalog.resolve?` finds the column
that a name in a filter means.
-/

namespace CatalogFilter

open Text

/-! ## §1 Faults of a schema -/

/-- Why columns and joins make no schema. -/
inductive SchemaError where
  | duplicateColumn (id : String)
  | duplicateField (field : FieldRef)
  | duplicateJoin (table : String)
  | unknownDependency (table dependency : String)
  | dependencyCycle (table : String)
  deriving DecidableEq, Repr

def SchemaError.message : SchemaError → String
  | .duplicateColumn id => "Duplicate column id: " ++ id
  | .duplicateField field =>
    "Field " ++ field.dotted ++ " is bound to more than one filterable column"
  | .duplicateJoin table => "Duplicate join declared for table: " ++ table
  | .unknownDependency table dependency =>
    "Join for " ++ table ++ " depends on undeclared table " ++ dependency
  | .dependencyCycle table => "Join dependency cycle through table: " ++ table

/-! ## §2 Columns that do not clash -/

namespace Column

/-- Do two columns filter the same field, up to case? -/
def sharesField (a b : Column) : Bool :=
  match a.filterField, b.filterField with
  | some f, some g => f.named g.table g.field
  | _, _ => false

/-- Do two columns have different ids, and not filter the same field? -/
def Compatible (a b : Column) : Prop := a.id ≠ b.id ∧ a.sharesField b = false

instance (a b : Column) : Decidable (Compatible a b) := inferInstanceAs (Decidable (_ ∧ _))

/-- The fault of a column that comes after others: its id is looked up before its field. -/
def fault? (earlier : IndexedColumns) (c : Column) : Option SchemaError :=
  if earlier.index.contains c.id then some (.duplicateColumn c.id)
  else if earlier.columns.any fun e => e.sharesField c then c.filterField.map .duplicateField
  else none

/-- A column without a fault does not clash with an earlier one. -/
theorem compatible_of_fault?_eq_none {earlier : IndexedColumns} {c : Column} (ha : earlier.Agrees)
    (h : c.fault? earlier = none) : ∀ e ∈ earlier.columns, e.Compatible c := by
  unfold fault? at h
  split at h
  · cases h
  next hid =>
    split at h
    next hf =>
      -- a column that shares a field has one, so it would be at fault
      obtain ⟨e, -, hshares⟩ := List.any_eq_true.1 hf
      have hnone : c.filterField = none := by simpa using h
      simp [sharesField, hnone] at hshares
    next hf =>
      intro e he
      have hnew : e.id ≠ c.id := fun hsame => hid (ha.contains_iff.2 ⟨e, he, hsame⟩)
      have hapart : e.sharesField c = false := Bool.eq_false_iff.2 fun hshares =>
        hf (List.any_eq_true.2 ⟨e, he, hshares⟩)
      exact ⟨hnew, hapart⟩

end Column

/-! ## §3 Catalogs -/

/-- Columns in display order, none of which clash, with an index that is right. -/
structure Catalog extends IndexedColumns where
  compatible : columns.Pairwise Column.Compatible
  agrees : toIndexedColumns.Agrees
  deriving DecidableEq

namespace Catalog

def empty : Catalog := ⟨.empty, .nil, IndexedColumns.agrees_empty⟩

instance : Inhabited Catalog := ⟨empty⟩

/-- The catalog of columns that do not clash. -/
def ofCompatible (columns : List Column) (h : columns.Pairwise Column.Compatible) : Catalog :=
  ⟨⟨columns, IndexedColumns.indexOf columns⟩, h, IndexedColumns.agrees_indexOf (h.imp fun hc => hc.1)⟩

@[simp] theorem columns_ofCompatible {columns : List Column} (h : columns.Pairwise Column.Compatible) :
    (ofCompatible columns h).columns = columns := rfl

/-- The catalog with a further column behind all others, one without a fault. -/
def push (c : Catalog) (column : Column) (h : column.fault? c.toIndexedColumns = none) : Catalog :=
  have hnew := Column.compatible_of_fault?_eq_none c.agrees h
  ⟨c.toIndexedColumns.push column,
    List.pairwise_append.2 ⟨c.compatible, List.pairwise_singleton _ _, by simpa using hnew⟩,
    IndexedColumns.agrees_push c.agrees fun e he => (hnew e he).1⟩

/-- Enters columns one after the other behind those of a catalog, up to the first fault. -/
def enter (c : Catalog) : List Column → Except SchemaError Catalog
  | [] => .ok c
  | column :: rest =>
    match h : column.fault? c.toIndexedColumns with
    | some fault => .error fault
    | none => (c.push column h).enter rest

/-- The catalog of a list of columns, or its first fault. -/
def ofColumns (columns : List Column) : Except SchemaError Catalog := empty.enter columns

def contains (c : Catalog) (id : String) : Bool := (c.get? id).isSome

def filterable (c : Catalog) : List Column := c.columns.filter fun col => col.filterField.isSome

def filterableIds (c : Catalog) : List String := c.filterable.map (·.id)

/-- The columns that can be filtered and read a field for which a test holds. -/
def matching (c : Catalog) (test : FieldRef → Bool) : List Column :=
  c.filterable.filter fun col => col.source.any test

/-- The column that a name in a filter means.  A name with a point names a table and a field, cut at its
last point; a name without one is a field that only one column can be filtered by. -/
def resolve? (c : Catalog) (name : String) : Option Column :=
  let name := trim name.toList
  match splitLast '.' name with
  | some (table, field) =>
    (c.matching fun ref => ref.named (String.ofList table) (String.ofList field)).head?
  | none =>
    match c.matching fun ref => sameName ref.field (String.ofList name) with
    | [column] => some column
    | _ => none

/-- The catalog without the columns whose table is not available.  A column that reads no table stays. -/
def retain (c : Catalog) (available : String → Bool) : Catalog :=
  ⟨c.toIndexedColumns.retain available, c.compatible.filter _,
    IndexedColumns.agrees_retain (c.compatible.imp fun hc => hc.1) available⟩

theorem columns_retain (c : Catalog) (available : String → Bool) :
    (c.retain available).columns =
      c.columns.filter fun column => column.source.all fun ref => available ref.table := rfl

end Catalog
end CatalogFilter
