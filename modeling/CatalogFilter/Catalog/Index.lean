import CatalogFilter.Catalog.Column

/-!
# Columns with an index

Columns stand in display order, and an index says at which place the column of an id stands.  It is written
while columns are entered one after the other.  Where columns are left out, all that stand behind them move
forward, so the index is then written anew.

**Main definitions**: `IndexedColumns`, `IndexedColumns.push`, `IndexedColumns.retain` and
`IndexedColumns.Agrees`.  **Main statements**: `IndexedColumns.agrees_push` and
`IndexedColumns.agrees_retain`.
-/

namespace CatalogFilter

/-- Columns in display order, and an index of their ids. -/
structure IndexedColumns where
  columns : List Column
  /-- The place at which the column of an id stands. -/
  index : SortedMap String Nat
  deriving DecidableEq

namespace IndexedColumns

/-! ## §1 Columns and places -/

def empty : IndexedColumns := ⟨[], .empty⟩

/-- The columns with a further one behind them, which is entered in the index. -/
def push (c : IndexedColumns) (column : Column) : IndexedColumns :=
  ⟨c.columns ++ [column], c.index.insert column.id c.columns.length⟩

/-- The index of a list of columns. -/
def indexOf (columns : List Column) : SortedMap String Nat :=
  .ofList (columns.zipIdx.map fun entry => (entry.1.id, entry.2))

def position? (c : IndexedColumns) (id : String) : Option Nat := c.index.get? id

/-- The column at the place that the index has for an id. -/
def get? (c : IndexedColumns) (id : String) : Option Column :=
  (c.position? id).bind fun place => c.columns[place]?

/-- The columns whose table is available and those that read no table, with an index that is written anew. -/
def retain (c : IndexedColumns) (available : String → Bool) : IndexedColumns :=
  let kept := c.columns.filter fun column => column.source.all fun ref => available ref.table
  ⟨kept, indexOf kept⟩

/-! ## §2 Indices that are right -/

/-- The index has a place for an id exactly if a column of that id stands there. -/
def Agrees (c : IndexedColumns) : Prop :=
  ∀ id place, c.position? id = some place ↔
    ∃ column, c.columns[place]? = some column ∧ column.id = id

variable {c : IndexedColumns} {columns : List Column} {column : Column}

theorem agrees_empty : empty.Agrees := by
  intro id place
  simp [empty, position?]

/-- An id is in the index exactly if a column has it. -/
theorem Agrees.contains_iff (h : c.Agrees) {id : String} :
    c.index.contains id = true ↔ ∃ column ∈ c.columns, column.id = id := by
  rw [SortedMap.contains, Option.isSome_iff_exists]
  constructor
  · rintro ⟨place, hplace⟩
    obtain ⟨column, hget, hid⟩ := (h id place).1 hplace
    exact ⟨column, List.mem_of_getElem? hget, hid⟩
  · rintro ⟨column, hmem, hid⟩
    obtain ⟨place, hget⟩ := List.mem_iff_getElem?.1 hmem
    exact ⟨place, (h id place).2 ⟨column, hget, hid⟩⟩

/-- What stands at a place after a column has been entered: what stood there, or the column at the end. -/
theorem getElem?_push_eq_some_iff {place : Nat} {other : Column} :
    (c.push column).columns[place]? = some other ↔
      c.columns[place]? = some other ∨ place = c.columns.length ∧ column = other := by
  have hcolumns : (c.push column).columns = c.columns ++ [column] := rfl
  rw [hcolumns]
  rcases Nat.lt_trichotomy place c.columns.length with hlt | rfl | hgt
  · rw [List.getElem?_append_left hlt]
    simp [Nat.ne_of_lt hlt]
  · simp
  · have hlength : (c.columns ++ [column]).length ≤ place := by
      rw [List.length_append]
      exact hgt
    rw [List.getElem?_eq_none hlength, List.getElem?_eq_none (Nat.le_of_lt hgt)]
    simp [Nat.ne_of_gt hgt]

/-- **A column with a new id is entered at its place.** -/
theorem agrees_push (h : c.Agrees) (hnew : ∀ other ∈ c.columns, other.id ≠ column.id) :
    (c.push column).Agrees := by
  intro id place
  have hposition : (c.push column).position? id =
      if column.id = id then some c.columns.length else c.position? id :=
    SortedMap.get?_insert ..
  rw [hposition]
  simp only [getElem?_push_eq_some_iff]
  split
  next hid =>
    -- the new id: no earlier column has it
    subst hid
    constructor
    · intro hplace
      exact ⟨column, .inr ⟨(Option.some.inj hplace).symm, rfl⟩, rfl⟩
    · rintro ⟨other, hget | ⟨rfl, -⟩, hid⟩
      · exact absurd hid (hnew other (List.mem_of_getElem? hget))
      · rfl
  next hid =>
    -- any other id: the new column does not have it
    rw [h id place]
    constructor
    · rintro ⟨other, hget, hother⟩
      exact ⟨other, .inl hget, hother⟩
    · rintro ⟨other, hget | ⟨-, rfl⟩, hother⟩
      · exact ⟨other, hget, hother⟩
      · exact absurd hother hid

/-- So are columns with new ids that are entered one after the other. -/
theorem agrees_foldl_push (h : c.Agrees) (hids : (c.columns ++ columns).Pairwise fun a b => a.id ≠ b.id) :
    (columns.foldl push c).Agrees := by
  induction columns generalizing c with
  | nil => exact h
  | cons column rest ih =>
    -- the ids differ over the whole list, so the column is new to those before it
    have hnew : ∀ other ∈ c.columns, other.id ≠ column.id := fun other ho =>
      (List.pairwise_append.1 hids).2.2 other ho column List.mem_cons_self
    apply ih (agrees_push h hnew)
    simpa [push] using hids

/-! ## §3 Indices that are written anew -/

theorem foldl_push (c : IndexedColumns) (columns : List Column) :
    columns.foldl push c = ⟨c.columns ++ columns,
      ((columns.zipIdx c.columns.length).map fun entry => (entry.1.id, entry.2)).foldl
        (fun m e => m.insert e.1 e.2) c.index⟩ := by
  -- the place of a column is how many stand before it
  induction columns generalizing c with
  | nil => simp
  | cons column rest ih =>
    rw [List.foldl_cons, ih]
    simp [push]

/-- To write an index anew is to enter the columns one after the other. -/
theorem mk_indexOf (columns : List Column) :
    (⟨columns, indexOf columns⟩ : IndexedColumns) = columns.foldl push empty := by
  rw [foldl_push]
  rfl

theorem agrees_indexOf (hids : columns.Pairwise fun a b => a.id ≠ b.id) :
    Agrees ⟨columns, indexOf columns⟩ := by
  rw [mk_indexOf]
  exact agrees_foldl_push agrees_empty hids

/-- **The index is right after a pruning**, whatever it was before. -/
theorem agrees_retain (hids : c.columns.Pairwise fun a b => a.id ≠ b.id) (available : String → Bool) :
    (c.retain available).Agrees :=
  agrees_indexOf (hids.filter _)

end IndexedColumns
end CatalogFilter
