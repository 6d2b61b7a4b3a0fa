import CatalogFilter.Catalog.Basic
import CatalogFilter.Proofs.Order.LookUp

/-!
# The column that a name means

The name of a field, as filters are written, is its table and its field with a point between them.  When the
names of a catalog can be told apart in it, this name means the column that reads the field and no other.

**Main definition**: `Catalog.NameSafe`.  **Main statement**: `Catalog.resolve?_dotted`.
-/

namespace CatalogFilter

open Text

/-! ## §1 Names without blanks at their ends -/

/-- A text that neither begins nor ends with a blank. -/
def TrimmedEnds (cs : List Char) : Prop :=
  (∀ c ∈ cs.head?, isBlank c = false) ∧ (∀ c ∈ cs.getLast?, isBlank c = false)

instance (cs : List Char) : Decidable (TrimmedEnds cs) :=
  decidable_of_iff (cs.head?.any isBlank = false ∧ cs.getLast?.any isBlank = false) (by
    unfold TrimmedEnds
    cases cs.head? <;> cases cs.getLast? <;> simp)

theorem skipBlank_of_head {cs : List Char} (h : ∀ c ∈ cs.head?, isBlank c = false) :
    skipBlank cs = cs := by
  cases cs with
  | nil => rfl
  | cons c cs => simp [skipBlank, h c (by simp)]

theorem trim_of_trimmedEnds {cs : List Char} (h : TrimmedEnds cs) : trim cs = cs := by
  -- the end is the front of the reversed text
  have hend : skipBlank cs.reverse = cs.reverse :=
    skipBlank_of_head fun c hc => h.2 c (by simpa using hc)
  rw [trim, skipBlank_of_head h.1, dropBlankEnd, ← skipBlank, hend, List.reverse_reverse]

/-- What is left of a text that does not begin with a blank begins as the text does. -/
theorem exists_dropBlankEnd_cons {c : Char} (hc : isBlank c = false) (cs : List Char) :
    ∃ ds, dropBlankEnd (c :: cs) = c :: ds := by
  -- from the end, the character is the last that could be dropped
  unfold dropBlankEnd
  rw [List.reverse_cons, List.dropWhile_append]
  split <;> simp [hc]

theorem exists_trim_cons {c : Char} (hc : isBlank c = false) (cs : List Char) :
    ∃ ds, trim (c :: cs) = c :: ds := by
  rw [trim, skipBlank_of_head (by simpa using hc)]
  exact exists_dropBlankEnd_cons hc cs

theorem trimmedEnds_trim (cs : List Char) : TrimmedEnds (trim cs) := by
  -- blanks are dropped at the end after those at the front, so the front needs an argument
  have hlast : ∀ c ∈ (trim cs).getLast?, isBlank c = false := by
    intro c hlast
    have hhead := List.head?_dropWhile_not isBlank (skipBlank cs).reverse
    rw [trim, dropBlankEnd, List.getLast?_reverse] at hlast
    rw [hlast] at hhead
    exact hhead
  have hfirst : ∀ c ∈ (trim cs).head?, isBlank c = false := by
    intro c hfirst
    cases hskip : skipBlank cs with
    | nil => simp [trim, hskip, dropBlankEnd] at hfirst
    | cons d ds =>
      have hd : isBlank d = false := by
        have hhead := List.head?_dropWhile_not isBlank cs
        rw [← skipBlank, hskip] at hhead
        exact hhead
      obtain ⟨es, hes⟩ := exists_dropBlankEnd_cons hd ds
      rw [trim, hskip, hes] at hfirst
      obtain rfl : d = c := by simpa using hfirst
      exact hd
  exact ⟨hfirst, hlast⟩

theorem TrimmedEnds.append {xs ys : List Char} (hx : TrimmedEnds xs) (hy : TrimmedEnds ys) :
    TrimmedEnds (xs ++ ys) := by
  constructor
  · intro c hc
    cases xs with
    | nil => exact hy.1 c hc
    | cons x xs => exact hx.1 c (by simpa using hc)
  · intro c hc
    -- the last character is that of the second text, unless there is none
    rcases List.eq_nil_or_concat ys with rfl | ⟨front, last, rfl⟩
    · exact hx.2 c (by simpa using hc)
    · exact hy.2 c (by simpa [List.getLast?_append] using hc)

/-- A point between two such texts, at whose ends there may be nothing but the point. -/
theorem trimmedEnds_joined {xs ys : List Char} (hx : TrimmedEnds xs) (hy : TrimmedEnds ys) :
    TrimmedEnds (xs ++ '.' :: ys) := by
  have hpoint : TrimmedEnds ['.'] := by decide
  have hall := hx.append (hpoint.append hy)
  simpa using hall

/-! ## §2 Columns that a test singles out -/

/-- Among members that exclude each other, a test that holds of one and of nothing compatible with it
singles that one out. -/
theorem filter_eq_singleton {α : Type} {R : α → α → Prop} {test : α → Bool} {xs : List α} {x : α}
    (hp : xs.Pairwise R) (hmem : x ∈ xs) (hx : test x = true)
    (h : ∀ y, test y = true → ¬ R x y ∧ ¬ R y x) : xs.filter test = [x] := by
  -- on the members: the one that is singled out comes first, or the first is compatible with it
  induction xs with
  | nil => simp at hmem
  | cons y ys ih =>
    obtain ⟨hy, hys⟩ := List.pairwise_cons.1 hp
    rcases List.mem_cons.1 hmem with rfl | hmem
    · have hnone : ys.filter test = [] := by
        apply List.filter_eq_nil_iff.2
        intro z hz htest
        exact (h z htest).1 (hy z hz)
      simp [hx, hnone]
    · have htest : test y = false := by
        apply Bool.eq_false_iff.2
        intro htest
        exact (h y htest).2 (hy x hmem)
      simp [htest, ih hys hmem]

namespace Catalog

/-- The position of an id is that of the column which has it. -/
theorem position?_eq_some_iff {catalog : Catalog} {id : String} {place : Nat} :
    catalog.position? id = some place ↔
      ∃ column, catalog.columns[place]? = some column ∧ column.id = id :=
  catalog.agrees id place

/-- The column of an id is the one that has it. -/
theorem get?_eq_some_iff {catalog : Catalog} {column : Column} {id : String} :
    catalog.get? id = some column ↔ column ∈ catalog.columns ∧ column.id = id := by
  rw [IndexedColumns.get?, Option.bind_eq_some_iff]
  constructor
  · rintro ⟨place, hplace, hget⟩
    obtain ⟨other, hother, hid⟩ := position?_eq_some_iff.1 hplace
    obtain rfl : other = column := by simpa [hother] using hget
    exact ⟨List.mem_of_getElem? hget, hid⟩
  · rintro ⟨hmem, hid⟩
    obtain ⟨place, hget⟩ := List.mem_iff_getElem?.1 hmem
    exact ⟨place, position?_eq_some_iff.2 ⟨column, hget, hid⟩, hget⟩

theorem get?_of_mem {catalog : Catalog} {column : Column} (h : column ∈ catalog.columns) :
    catalog.get? column.id = some column :=
  get?_eq_some_iff.2 ⟨h, rfl⟩

/-- **A catalog is its columns**, for these leave no choice for the index. -/
theorem eq_of_columns {catalog other : Catalog} (h : other.columns = catalog.columns) : other = catalog := by
  have hindex : other.index = catalog.index := by
    apply SortedMap.ext_get?
    intro id
    apply Option.ext
    intro place
    show other.position? id = some place ↔ catalog.position? id = some place
    rw [position?_eq_some_iff, position?_eq_some_iff, h]
  -- the rest of a catalog is proofs
  obtain ⟨⟨columns, index⟩, _, _⟩ := catalog
  obtain ⟨⟨others, places⟩, _, _⟩ := other
  obtain rfl : others = columns := h
  obtain rfl : places = index := hindex
  rfl

/-- No other column has the id of a column. -/
theorem exists_of_mem {catalog : Catalog} {column : Column} (h : column ∈ catalog.columns) :
    ∃ before after, catalog.columns = before ++ column :: after ∧
      (∀ other ∈ before, other.id ≠ column.id) ∧ ∀ other ∈ after, other.id ≠ column.id := by
  obtain ⟨before, after, hcolumns⟩ := List.append_of_mem h
  have hcompatible := catalog.compatible
  rw [hcolumns, List.pairwise_append, List.pairwise_cons] at hcompatible
  obtain ⟨_, ⟨hafter, _⟩, hbefore⟩ := hcompatible
  exact ⟨before, after, hcolumns, fun other ho => (hbefore other ho column List.mem_cons_self).1,
    fun other ho => (hafter other ho).1.symm⟩

theorem matching_eq_filter (catalog : Catalog) (test : FieldRef → Bool) :
    catalog.matching test = catalog.columns.filter fun column => column.filterField.any test := by
  rw [matching, filterable, List.filter_filter]
  apply List.filter_congr
  intro column _
  -- to be filterable and to have a source is to have a field to filter by
  unfold Column.filterField
  cases column.filterable <;> cases column.source <;> simp

/-- The columns that can be filtered by a field are at most the one that reads it. -/
theorem matching_named {catalog : Catalog} {column : Column} {ref : FieldRef}
    (hmem : column ∈ catalog.columns) (href : column.filterField = some ref) :
    (catalog.matching fun other => other.named ref.table ref.field) = [column] := by
  rw [matching_eq_filter]
  refine filter_eq_singleton catalog.compatible hmem ?_ fun other hother => ?_
  · simp [href, FieldRef.named]
  · obtain ⟨field, hfield, hnamed⟩ := Option.any_eq_true _ _ |>.1 hother
    -- another such column would filter the same field
    have hleft : other.sharesField column = true := by
      simpa [Column.sharesField, hfield, href] using hnamed
    have hright : column.sharesField other = true := by
      simp only [FieldRef.named, Bool.and_eq_true] at hnamed
      simp [Column.sharesField, hfield, href, FieldRef.named, sameName_comm ref.table,
        sameName_comm ref.field, hnamed]
    exact ⟨fun hc => by simp [hc.2] at hright, fun hc => by simp [hc.2] at hleft⟩

/-- A name only ever means a column that can be filtered. -/
theorem mem_filterable_of_resolve? {catalog : Catalog} {name : String} {column : Column}
    (h : catalog.resolve? name = some column) : column ∈ catalog.filterable := by
  simp only [resolve?] at h
  split at h
  next => exact (List.mem_filter.1 (List.mem_of_head? h)).1
  next =>
    split at h
    next only hmatching =>
      obtain rfl : only = column := by simpa using h
      have hmem : only ∈ catalog.matching _ := hmatching ▸ List.mem_singleton_self only
      exact (List.mem_filter.1 hmem).1
    next => simp at h

end Catalog

/-! ## §3 Names that can be told apart -/

/-- The field has no point in its name, and neither name has a blank at an end. -/
structure FieldRef.NameSafe (ref : FieldRef) : Prop where
  /-- The last point of the name is the one before the field. -/
  noPoint : '.' ∉ ref.field.toList
  table : TrimmedEnds ref.table.toList
  field : TrimmedEnds ref.field.toList

instance (ref : FieldRef) : Decidable ref.NameSafe :=
  decidable_of_iff
    ('.' ∉ ref.field.toList ∧ TrimmedEnds ref.table.toList ∧ TrimmedEnds ref.field.toList)
    ⟨fun h => ⟨h.1, h.2.1, h.2.2⟩, fun h => ⟨h.noPoint, h.table, h.field⟩⟩

theorem FieldRef.toList_dotted (ref : FieldRef) :
    ref.dotted.toList = ref.table.toList ++ '.' :: ref.field.toList := by
  simp [dotted, String.toList_append]

namespace Catalog

/-- The names of all columns that can be filtered can be told apart in a filter. -/
def NameSafe (catalog : Catalog) : Prop :=
  ∀ column ∈ catalog.filterable, ∀ ref, column.filterField = some ref → ref.NameSafe

theorem nameSafe_singleton {column : Column} {ref : FieldRef} (href : column.filterField = some ref)
    (hsafe : ref.NameSafe) : NameSafe (.ofCompatible [column] (List.pairwise_singleton _ _)) := by
  intro other hother ref' href'
  obtain rfl : other = column := List.mem_singleton.1 (List.mem_filter.1 hother).1
  obtain rfl : ref = ref' := by simpa [href] using href'
  exact hsafe

/-- **The name of a field means the column that reads it.** -/
theorem resolve?_dotted {catalog : Catalog} {column : Column} {ref : FieldRef}
    (hmem : column ∈ catalog.columns) (href : column.filterField = some ref) (hsafe : ref.NameSafe) :
    catalog.resolve? ref.dotted = some column := by
  have htrim : trim ref.dotted.toList = ref.table.toList ++ '.' :: ref.field.toList := by
    rw [ref.toList_dotted]
    exact trim_of_trimmedEnds (trimmedEnds_joined hsafe.table hsafe.field)
  -- the last point is the one between the names
  have hsplit : splitLast '.' (ref.table.toList ++ '.' :: ref.field.toList) =
      some (ref.table.toList, ref.field.toList) :=
    splitLast_eq_some_iff.2 ⟨rfl, hsafe.noPoint⟩
  simp only [resolve?, htrim, hsplit, String.ofList_toList]
  rw [matching_named hmem href]
  rfl

end Catalog
end CatalogFilter
