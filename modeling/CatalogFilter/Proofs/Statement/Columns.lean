import CatalogFilter.Proofs.Statement.Joins
import Mathlib.Data.List.Nodup

/-!
# The values of columns

A view may ask for a column more than once, for ids that no column has, and for columns that read no field.
Its statement leaves these out, and the ids that stay are listed beside it.  For each of them the field of its
own column is selected, in the same order, behind the required fields.  So the place of an id in the list is
the place of its value in a row.

**Main definition**: `Catalog.shownField?`.  **Main statement**: `Statement.columns_select`.
-/

namespace CatalogFilter

/-- The field whose value is shown for an id: what its column reads, if there is such a column and it can be
filtered by. -/
def Catalog.shownField? (c : Catalog) (id : String) : Option FieldRef := (c.get? id).bind Column.filterField

namespace View

variable {v : View} {catalog : Catalog}

/-! ## §1 The ids that stay -/

theorem nodup_firstOnly (ids : List String) : (firstOnly ids).Nodup := by
  -- for any ids that have been kept so far without a repetition
  have hfold : ∀ kept : List String, kept.Nodup →
      (ids.foldl (fun kept id => if id ∈ kept then kept else kept ++ [id]) kept).Nodup := by
    induction ids with
    | nil => exact fun _ h => h
    | cons first ids ih =>
      intro kept h
      rw [List.foldl_cons]
      apply ih
      split
      next => exact h
      next hnew =>
        rw [← List.concat_eq_append]
        exact h.concat hnew
  exact hfold [] List.nodup_nil

/-- Of equal ids the first is kept, in its place. -/
theorem firstOnly_eq_eraseDups (ids : List String) : firstOnly ids = ids.eraseDups := by
  -- what a list adds to the ids that are kept already
  have hfold : ∀ kept : List String,
      ids.foldl (fun kept id => if id ∈ kept then kept else kept ++ [id]) kept =
        kept ++ (ids.filter fun id => id ∉ kept).eraseDups := by
    induction ids with
    | nil => simp
    | cons first ids ih =>
      intro kept
      rw [List.foldl_cons, ih]
      split
      next hkept => simp [hkept]
      next hnew =>
        -- the new id is dropped from the rest as well
        have hrest : (ids.filter fun id => id ∉ kept ++ [first]) =
            (ids.filter fun id => id ∉ kept).filter fun id => !id == first := by
          rw [List.filter_filter]
          apply List.filter_congr
          intro id _
          rw [Bool.eq_iff_iff]
          simp [and_comm]
        rw [hrest, List.filter_cons_of_pos (by simpa using hnew), List.eraseDups_cons]
        simp
  simpa [firstOnly] using hfold []

theorem selected_eq : v.selected catalog =
    (firstOnly v.columns).filterMap fun id => (catalog.shownField? id).map fun field => (id, field) := by
  unfold selected
  apply List.filterMap_congr
  intro id _
  cases hget : catalog.get? id with
  | none => simp [Catalog.shownField?, hget]
  | some column => cases hfield : column.filterField <;> simp [Catalog.shownField?, hget, hfield]

theorem map_fst_selected : (v.selected catalog).map (·.1) =
    v.columns.eraseDups.filter fun id => (catalog.shownField? id).isSome := by
  rw [selected_eq, firstOnly_eq_eraseDups, List.map_filterMap, ← List.filterMap_eq_filter]
  apply List.filterMap_congr
  intro id _
  cases hfield : catalog.shownField? id <;> simp [Option.guard, hfield]

theorem shownField?_of_mem_selected {id : String} {field : FieldRef} (h : (id, field) ∈ v.selected catalog) :
    catalog.shownField? id = some field := by
  obtain ⟨_, column, hget, hfield⟩ := mem_selected_iff.1 h
  simp [Catalog.shownField?, hget, hfield]

/-- The fields that are selected are those of the ids, in the same order. -/
theorem map_shownField?_selected :
    ((v.selected catalog).map (·.1)).map catalog.shownField? = ((v.selected catalog).map (·.2)).map some := by
  rw [List.map_map, List.map_map]
  apply List.map_congr_left
  intro shown h
  exact shownField?_of_mem_selected h

theorem nodup_map_fst_selected : ((v.selected catalog).map (·.1)).Nodup := by
  rw [map_fst_selected, ← firstOnly_eq_eraseDups]
  exact (nodup_firstOnly v.columns).filter _

end View

/-! ## §2 Places -/

namespace Statement

variable {s : Schema} {v : View}

/-- Where no id is listed twice, the place that is found for an id is the place where it stands. -/
theorem valueIndex?_eq_some_iff {q : Statement} (h : q.columns.Nodup) {id : String} {k : Nat} :
    q.valueIndex? id = some k ↔ ∃ place, q.columns[place]? = some id ∧ k = q.required + place := by
  -- the first place is the only one
  have hplace : ∀ place, (q.columns.findIdx? fun column => column == id) = some place ↔
      q.columns[place]? = some id := by
    intro place
    rw [List.findIdx?_eq_some_iff_getElem]
    constructor
    · rintro ⟨hlt, heq, _⟩
      rw [List.getElem?_eq_getElem hlt, beq_iff_eq.1 heq]
    · intro hget
      obtain ⟨hlt, heq⟩ := List.getElem?_eq_some_iff.1 hget
      refine ⟨hlt, by simpa using heq, fun earlier hearlier hsame => ?_⟩
      have htwice : q.columns[earlier] = q.columns[place] := by rw [heq, beq_iff_eq.1 hsame]
      exact (Nat.ne_of_lt hearlier) (h.getElem_inj_iff.1 htwice)
  simp only [valueIndex?, Option.map_eq_some_iff, hplace, eq_comm (b := k)]

theorem valueIndex?_isSome_iff {q : Statement} {id : String} :
    (q.valueIndex? id).isSome = true ↔ id ∈ q.columns := by
  simp [valueIndex?, List.findIdx?_isSome]

theorem nodup_columns : (ofView s v).columns.Nodup := View.nodup_map_fst_selected

/-- Behind the required fields, the field of a column stands where the column does. -/
theorem getElem?_select {place : Nat} {id : String} (h : (ofView s v).columns[place]? = some id) :
    ∃ field, s.catalog.shownField? id = some field ∧
      (s.requiredFields ++ (v.selected s.catalog).map (·.2))[s.requiredFields.length + place]? =
        some field := by
  -- the ids and the fields are the two halves of one list
  have hcolumn : ((v.selected s.catalog).map (·.1))[place]? = some id := h
  rw [List.getElem?_map] at hcolumn
  obtain ⟨⟨_, field⟩, hshown, rfl⟩ := Option.map_eq_some_iff.1 hcolumn
  refine ⟨field, View.shownField?_of_mem_selected (List.mem_of_getElem? hshown), ?_⟩
  rw [List.getElem?_append_right (Nat.le_add_right _ _), Nat.add_sub_cancel_left, List.getElem?_map, hshown]
  rfl

/-- A statement begins with the fields that it selects. -/
theorem toList_sql_select (s : Schema) (v : View) :
    (ofView s v).sql.toList =
      "SELECT ".toList ++
        ", ".toList.intercalate ((s.requiredFields ++ (v.selected s.catalog).map (·.2)).map FieldRef.render) ++
      " FROM ".toList ++ s.baseTable.toList ++
      ((Plan.joined s v).flatMap (fun spec => ' ' :: spec.clause.toList) ++ (Plan.ofView s v).closing) := by
  have hopening : (Plan.ofView s v).opening =
      "SELECT ".toList ++
        ", ".toList.intercalate ((s.requiredFields ++ (v.selected s.catalog).map (·.2)).map FieldRef.render) ++
      " FROM ".toList ++ s.baseTable.toList := rfl
  rw [← hopening, toList_sql, List.append_assoc]

/-- **Every value that is shown belongs to its column.**  The columns of a statement are the ids that are
asked for, of equal ids the first, without those that stand for no field.  Behind the required fields the
statement selects the field of each column, in the same order.  A place is found for exactly the columns; the
field of the column stands there, behind the required fields, and no other column has the place. -/
theorem columns_select (s : Schema) (v : View) :
    (ofView s v).columns =
      v.columns.eraseDups.filter (fun id => (s.catalog.shownField? id).isSome) ∧
    ∃ fields : List FieldRef,
      fields.map some = (ofView s v).columns.map s.catalog.shownField? ∧
      (ofView s v).sql.toList =
        "SELECT ".toList ++
          ", ".toList.intercalate ((s.requiredFields ++ fields).map FieldRef.render) ++
        " FROM ".toList ++ s.baseTable.toList ++
        ((Plan.joined s v).flatMap (fun spec => ' ' :: spec.clause.toList) ++ (Plan.ofView s v).closing) ∧
      (∀ id, ((ofView s v).valueIndex? id).isSome = true ↔ id ∈ (ofView s v).columns) ∧
      (∀ id k, (ofView s v).valueIndex? id = some k →
        s.requiredFields.length ≤ k ∧
        (ofView s v).columns[k - s.requiredFields.length]? = some id ∧
        ∃ field, s.catalog.shownField? id = some field ∧
          (s.requiredFields ++ fields)[k]? = some field) ∧
      ∀ id other k, (ofView s v).valueIndex? id = some k → (ofView s v).valueIndex? other = some k →
        id = other := by
  refine ⟨View.map_fst_selected, (v.selected s.catalog).map (·.2), ?_, ?_, ?_, ?_, ?_⟩
  · exact View.map_shownField?_selected.symm
  · exact toList_sql_select s v
  · exact fun id => valueIndex?_isSome_iff
  · intro id k hindex
    obtain ⟨place, hid, rfl⟩ := (valueIndex?_eq_some_iff nodup_columns).1 hindex
    have hplace : (ofView s v).required + place - s.requiredFields.length = place :=
      Nat.add_sub_cancel_left s.requiredFields.length place
    refine ⟨Nat.le_add_right _ _, ?_, getElem?_select hid⟩
    rw [hplace]
    exact hid
  · intro id other k hid hother
    obtain ⟨place, hplace, rfl⟩ := (valueIndex?_eq_some_iff nodup_columns).1 hid
    obtain ⟨same, hsame, hk⟩ := (valueIndex?_eq_some_iff nodup_columns).1 hother
    -- the same value stands at the same place, and one id stands there
    obtain rfl : place = same := Nat.add_left_cancel hk
    exact Option.some.inj (hplace.symm.trans hsame)

/-- Ids that are repeated, that are unknown and that stand for no field leave no gap in the places. -/
example :
    let year : Column := ⟨"year", "Year", some ⟨"Games", "year"⟩, .number, true, true⟩
    let details : Column := ⟨"details", "Details", none, .text, false, false⟩
    let name : Column := ⟨"name", "Name", some ⟨"Games", "name"⟩, .text, true, true⟩
    let s : Schema :=
      ⟨"Games", [⟨"Games", "id"⟩], .ofCompatible [name, details, year] (by decide +kernel), .empty⟩
    let q := Statement.ofView s ⟨["details", "year", "other", "year", "name"], "", []⟩
    q.sql = "SELECT Games.id, Games.year, Games.name FROM Games" ∧ q.columns = ["year", "name"] ∧
      q.valueIndex? "year" = some 1 ∧ q.valueIndex? "name" = some 2 ∧ q.valueIndex? "details" = none := by
  decide +kernel

end Statement
end CatalogFilter
