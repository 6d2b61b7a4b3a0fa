import CatalogFilter.Proofs.Session.Steps
import Mathlib.Data.List.Nodup

/-!
# Visible columns

A toggle hides a visible column and shows a hidden one.  It hides one occurrence only, so a column that is in
the list of visible columns more than once stays visible.  No list has a repetition unless it was set with
one.

**Main definitions**: `Change.columnsFrom`, `Session.toggles`.
**Main statement**: `Session.toggleColumn_visible`.
-/

namespace CatalogFilter

/-! ## §1 Lists of columns -/

/-- The visible columns after a toggle. -/
def toggled (id : String) (columns : List String) : List String :=
  if id ∈ columns then columns.erase id else columns ++ [id]

/-- The visible columns that a change leads to. -/
def Change.columnsFrom (columns : List String) : Change → List String
  | .setColumns given => given
  | .toggleColumn id => toggled id columns
  | .refresh | .setSort _ | .setCriteria _ | .setFilter _ => columns

section
variable {id : String} {columns : List String}

/-- A toggle takes one occurrence away, or adds the first. -/
theorem count_toggled : (toggled id columns).count id =
    if columns.count id = 0 then 1 else columns.count id - 1 := by
  unfold toggled
  split
  next h =>
    have hpos : columns.count id ≠ 0 := by simpa [List.count_eq_zero] using h
    rw [if_neg hpos, List.count_erase_self]
  next h =>
    have hzero : columns.count id = 0 := List.count_eq_zero.2 h
    simp [hzero]

/-- All other columns stay in their order. -/
theorem filter_toggled : (toggled id columns).filter (· ≠ id) = columns.filter (· ≠ id) := by
  unfold toggled
  split
  next h =>
    -- the occurrence that goes is one of the id itself
    obtain ⟨before, after, _, hcolumns, herase⟩ := List.exists_erase_eq h
    rw [herase, hcolumns]
    simp
  next => simp

theorem count_toggled_of_ne {other : String} (h : other ≠ id) :
    (toggled id columns).count other = columns.count other := by
  unfold toggled
  split
  next => exact List.count_erase_of_ne h
  next => simp [Ne.symm h]

theorem nodup_toggled (h : columns.Nodup) : (toggled id columns).Nodup := by
  rw [List.nodup_iff_count_le_one] at *
  intro other
  by_cases hother : other = id
  · -- the id itself: one more where there was none, else one less
    subst hother
    rw [count_toggled]
    split
    next => exact Nat.le_refl 1
    next => exact Nat.le_trans (Nat.sub_le _ 1) (h other)
  · rw [count_toggled_of_ne hother]
    exact h other

/-- **A toggle changes whether a column is visible exactly if** the column is not listed twice. -/
theorem mem_toggled_iff :
    (id ∈ toggled id columns ↔ id ∉ columns) ↔ columns.count id ≤ 1 := by
  rw [← List.count_pos_iff, ← List.count_pos_iff, count_toggled]
  split <;> omega

end

namespace Session

variable {s : Session} {db : Database} {change : Change} {id : String}

/-! ## §2 One step -/

theorem columns_next {state : ViewState} (h : s.next change = .ok state) :
    state.columns = change.columnsFrom s.state.columns := by
  unfold next at h
  split at h
  -- changes that are never refused, and leave the columns as they are
  case h_1 | h_5 =>
    cases h
    rfl
  case h_2 | h_3 | h_4 | h_6 =>
    split at h <;> cases h
    rfl

theorem next_toggleColumn {state : ViewState} (h : s.next (.toggleColumn id) = .ok state) :
    state = { s.state with columns := toggled id s.state.columns } := by
  simp only [next] at h
  split at h <;> cases h
  rfl

/-- **A toggle that succeeds** changes nothing but the visible columns. -/
theorem state_of_toggleColumn {rows : ResultSet} (h : (s.step db (.toggleColumn id)).result = .ok rows) :
    (s.step db (.toggleColumn id)).session.state =
      { s.state with columns := toggled id s.state.columns } := by
  obtain ⟨state, hn, _, hs⟩ := session_of_ok h
  rw [hs]
  exact next_toggleColumn hn

theorem columns_after (s : Session) (r : Request) : (s.after r).state.columns =
    if s.accepts r then r.change.columnsFrom s.state.columns else s.state.columns := by
  cases ha : s.accepts r with
  | false => simp [after_of_not_accepts ha]
  | true =>
    obtain ⟨rows, hok⟩ := exists_of_accepts ha
    obtain ⟨state, hn, _, hs⟩ := session_of_ok hok
    rw [after, hs, if_pos rfl]
    exact columns_next hn

/-! ## §3 Runs -/

/-- How many times a run toggles a column with success. -/
def toggles (s : Session) (id : String) (requests : List Request) : Nat :=
  (s.accepted requests).countP fun r => r.change = .toggleColumn id

theorem nodup_columns_after {r : Request} (h : s.state.columns.Nodup)
    (hr : ∀ columns, r.change = .setColumns columns → columns.Nodup) :
    (s.after r).state.columns.Nodup := by
  rw [columns_after]
  split
  next =>
    cases hchange : r.change with
    | setColumns columns => exact hr columns hchange
    | toggleColumn id => exact nodup_toggled h
    | refresh | setSort | setCriteria | setFilter => exact h
  next => exact h

/-- No column is listed twice in a session that never was given a list with a repetition. -/
theorem nodup_columns_run {requests : List Request} (h : s.state.columns.Nodup)
    (hgiven : ∀ r ∈ requests, ∀ columns, r.change = .setColumns columns → columns.Nodup) :
    (s.run requests).state.columns.Nodup := by
  induction requests generalizing s with
  | nil => exact h
  | cons r rest ih =>
    obtain ⟨hr, hrest⟩ := List.forall_mem_cons.1 hgiven
    exact ih (nodup_columns_after h hr) hrest

theorem nodup_columns_start (schema : Schema) : (start schema).state.columns.Nodup := by
  -- what is shown first are the columns that can be filtered, each by its id
  have hids : schema.catalog.columns.Pairwise fun a b => a.id ≠ b.id :=
    schema.catalog.compatible.imp fun h => h.1
  exact List.pairwise_map.2 (hids.filter _)

/-- Only toggles of a column and lists of columns change how many times it is listed. -/
theorem count_after {r : Request} (hr : ∀ columns, r.change ≠ .setColumns columns) :
    (s.after r).state.columns.count id =
      if s.accepts r ∧ r.change = .toggleColumn id then (toggled id s.state.columns).count id
      else s.state.columns.count id := by
  rw [columns_after]
  cases s.accepts r with
  | false => simp
  | true =>
    -- a request that succeeds: only a toggle of this id counts
    cases hchange : r.change with
    | setColumns columns => exact absurd hchange (hr columns)
    | toggleColumn other =>
      by_cases hother : other = id
      · subst hother
        simp [Change.columnsFrom]
      · simp [Change.columnsFrom, hother, count_toggled_of_ne (Ne.symm hother)]
    | refresh | setSort | setCriteria | setFilter => simp [Change.columnsFrom]

theorem toggles_cons (r : Request) (rest : List Request) :
    s.toggles id (r :: rest) = (s.after r).toggles id rest +
      if s.accepts r ∧ r.change = .toggleColumn id then 1 else 0 := by
  rw [toggles, accepted]
  split
  next ha => simp [toggles, ha, List.countP_cons]
  next ha => simp [toggles, ha]

/-- A column that is listed at most once goes on so, and its toggles are counted in whether it is listed. -/
theorem count_run {requests : List Request} (hone : s.state.columns.count id ≤ 1)
    (hgiven : ∀ r ∈ requests, ∀ columns, r.change ≠ .setColumns columns) :
    (s.run requests).state.columns.count id ≤ 1 ∧
      (s.run requests).state.columns.count id % 2 =
        (s.state.columns.count id + s.toggles id requests) % 2 := by
  induction requests generalizing s with
  | nil => exact ⟨hone, rfl⟩
  | cons r rest ih =>
    obtain ⟨hr, hrest⟩ := List.forall_mem_cons.1 hgiven
    -- no list is set, so the first request is a toggle of the id that counts, or none
    have hafter := @count_after s id r hr
    have htoggles := @toggles_cons s id r rest
    have hstep : (s.after r).state.columns.count id ≤ 1 ∧
        ((s.after r).state.columns.count id + (s.after r).toggles id rest) % 2 =
          (s.state.columns.count id + s.toggles id (r :: rest)) % 2 := by
      -- the count goes from zero to one or back, and the toggle is one more
      by_cases hcounted : s.accepts r = true ∧ r.change = .toggleColumn id
      · rw [if_pos hcounted] at hafter htoggles
        rw [count_toggled] at hafter
        split at hafter <;> omega
      · rw [if_neg hcounted] at hafter htoggles
        omega
    obtain ⟨hrun, hparity⟩ := ih hstep.1 hrest
    exact ⟨hrun, hparity.trans hstep.2⟩

/-- **A toggle flips whether a column is visible, if the column is not listed twice.**  A toggle that succeeds
leaves all other columns in their order, and the ordering and the filter as they were.  It puts a hidden
column behind all others, and hides a visible one exactly if that is not listed twice.  A run of any steps that
set no list of columns then restores whether it is visible exactly if an even number of its toggles succeed.
No column is listed twice when a session starts, nor later, unless a list with a repetition is set; so every
toggle that succeeds after a run without such a list flips. -/
theorem toggleColumn_visible (s : Session) (id : String) :
    (∀ db rows, (s.step db (.toggleColumn id)).result = .ok rows →
      ∃ state, (s.step db (.toggleColumn id)).session.state = state ∧
        state.columns.filter (· ≠ id) = s.state.columns.filter (· ≠ id) ∧
        state.sort = s.state.sort ∧ state.criteria = s.state.criteria ∧
        state.filter = s.state.filter ∧
        (id ∉ s.state.columns → state.columns = s.state.columns ++ [id]) ∧
        ((id ∈ state.columns ↔ id ∉ s.state.columns) ↔ s.state.columns.count id ≤ 1)) ∧
    (s.state.columns.count id ≤ 1 → ∀ requests : List Request,
      (∀ r ∈ requests, ∀ columns, r.change ≠ .setColumns columns) →
        ((id ∈ (s.run requests).state.columns ↔ id ∈ s.state.columns) ↔
          s.toggles id requests % 2 = 0)) ∧
    (∀ schema : Schema, (start schema).state.columns.Nodup) ∧
    (s.state.columns.Nodup → ∀ requests : List Request,
      (∀ r ∈ requests, ∀ columns, r.change = .setColumns columns → columns.Nodup) →
        ∀ db rows, ((s.run requests).step db (.toggleColumn id)).result = .ok rows →
          (id ∈ ((s.run requests).step db (.toggleColumn id)).session.state.columns ↔
            id ∉ (s.run requests).state.columns)) := by
  refine ⟨?_, ?_, nodup_columns_start, ?_⟩
  · intro db rows h
    refine ⟨_, state_of_toggleColumn h, filter_toggled, rfl, rfl, rfl, ?_, mem_toggled_iff⟩
    intro hid
    exact if_neg hid
  · intro hone requests hgiven
    obtain ⟨hrun, hparity⟩ := count_run hone hgiven
    -- a count of at most one is its own parity
    rw [← List.count_pos_iff, ← List.count_pos_iff]
    omega
  · intro hnodup requests hgiven db rows h
    -- the run repeats no column, so the last toggle flips
    have hone := List.nodup_iff_count_le_one.1 (nodup_columns_run hnodup hgiven) id
    rw [state_of_toggleColumn h]
    exact mem_toggled_iff.2 hone

/-- A column that is listed twice is visible, and still is after a toggle that succeeds. -/
theorem toggleColumn_visible_twice :
    let column : Column := ⟨"t", "Title", some ⟨"g", "n"⟩, .text, true, true⟩
    let schema : Schema := ⟨"g", [], .ofCompatible [column] (List.pairwise_singleton _ _), .empty⟩
    let db : Database := fun _ => .ok .empty
    let s := (start schema).run [⟨db, .setColumns ["t", "t"]⟩]
    s.state.columns = ["t", "t"] ∧ s.accepts ⟨db, .toggleColumn "t"⟩ = true ∧
      (s.after ⟨db, .toggleColumn "t"⟩).state.columns = ["t"] := by
  decide +kernel

end Session
end CatalogFilter
