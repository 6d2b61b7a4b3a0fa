import CatalogFilter.Proofs.Catalog.Resolution
import CatalogFilter.Proofs.Criterion.Structure
import CatalogFilter.Proofs.Session.Steps
import CatalogFilter.Proofs.Token.Margins

/-!
# The invariant of a session

Whatever is asked of a session and whatever the database answers, its columns and its ordering name columns
of the catalog, its filter can be read, the two forms of the filter agree, and what it shows is the answer to
the statement of its state.  That statement was put to the database by the last step that succeeded.

**Main definition**: `Session.Consistent`.  **Main statement**: `Session.consistent_run`.
-/

namespace CatalogFilter

open Text

/-! ## §1 States -/

/-- The text of any set is empty or an expression. -/
theorem FilterSet.sql_eq_empty_or_ok (set : FilterSet) (catalog : Catalog) :
    set.sql catalog = "" ∨ ∃ e, Expr.ofString (set.sql catalog) = .ok e := by
  -- nothing is asked, or the text is that of an expression
  by_cases h : set.alternatives catalog = []
  · exact .inl (sql_of_alternatives_eq_nil h)
  · obtain ⟨e, he, _⟩ := ofString_sql h
    exact .inr ⟨e, he⟩

namespace FilterSet

variable {catalog : Catalog} {text : String} {set : FilterSet}

theorem ofText_trimmed (catalog : Catalog) (text : String) :
    ofText catalog (trimmed text) = ofText catalog text := by
  unfold ofText
  rw [Expr.ofString_trimmed]

/-- A text that criteria can be derived from is blank or an expression. -/
theorem trimmed_eq_empty_or_ok (h : ofText catalog text = .ok set) :
    trimmed text = "" ∨ ∃ e, Expr.ofString (trimmed text) = .ok e := by
  unfold ofText at h
  split at h
  next e he => exact .inr ⟨e, by rw [Expr.ofString_trimmed, he]⟩
  next he => exact .inl (Expr.ofString_eq_empty_iff.1 he)
  next => cases h

end FilterSet

/-- A state that belongs to a catalog, with a filter that can be read and whose two forms agree. -/
structure ViewState.Coherent (state : ViewState) (catalog : Catalog) : Prop where
  columns : ∀ id ∈ state.columns, catalog.contains id = true
  sort : ∀ key ∈ state.sort, catalog.contains key.column = true
  readable : state.filter = "" ∨ ∃ e, Expr.ofString state.filter = .ok e
  inSync : state.filter = state.criteria.sql catalog ∨
    FilterSet.ofText catalog state.filter = .ok state.criteria

namespace Session

variable {s : Session} {change : Change} {last : Option Request}

/-- Every change that is not refused leads from a coherent state to a coherent one. -/
theorem coherent_next {state : ViewState} (h : s.state.Coherent s.schema.catalog)
    (hn : s.next change = .ok state) : state.Coherent s.schema.catalog := by
  have hnamed := contains_of_next hn
  cases change with
  | refresh =>
    obtain rfl : s.state = state := by simpa [next] using hn
    exact h
  | setColumns columns =>
    simp only [next] at hn
    split at hn <;> cases hn
    exact { h with columns := hnamed }
  | toggleColumn id =>
    simp only [next] at hn
    split at hn <;> cases hn
    -- hidden, the others stay; shown, it is one of the catalog
    refine { h with columns := ?_ }
    intro other hother
    split at hother
    · exact h.columns other (List.mem_of_mem_erase hother)
    · rcases List.mem_append.1 hother with hold | hnew
      · exact h.columns other hold
      · exact hnamed other hnew
  | setSort sort =>
    simp only [next] at hn
    split at hn <;> cases hn
    exact { h with sort := fun key hkey => hnamed _ (List.mem_map_of_mem hkey) }
  | setCriteria criteria =>
    -- the filter is made from the criteria
    obtain rfl : _ = state := by simpa [next] using hn
    exact { h with readable := criteria.sql_eq_empty_or_ok _, inSync := .inl rfl }
  | setFilter text =>
    simp only [next] at hn
    split at hn <;> cases hn
    -- the criteria are read from the text, and trimming it does not change how it is read
    next criteria hof =>
    refine { h with readable := FilterSet.trimmed_eq_empty_or_ok hof, inSync := .inr ?_ }
    exact (FilterSet.ofText_trimmed _ text).trans hof

/-! ## §2 Sessions -/

/-- A session before its first step. -/
inductive New : Session → Prop
  | start (schema : Schema) : New (start schema)
  | opened {schema : Schema} {tables : Except SessionError (List String)} {s : Session}
      (h : opened schema tables = .ok s) : New s
  | withColumns {s t : Session} {columns : List String} (hs : New s)
      (h : s.withColumns columns = .ok t) : New t
  | withSort {s t : Session} {sort : List SortKey} (hs : New s)
      (h : s.withSort sort = .ok t) : New t

/-- What a session shows, if the given request was the last that succeeded: nothing if there was none, and
otherwise the statement of its state with what the database answered to it. -/
def Shows (s : Session) : Option Request → Prop
  | none => s.statement = none ∧ s.rows = .empty
  | some r => s.statement = some (s.statementOf s.state) ∧
      r.db (s.statementOf s.state).sql = .ok s.rows

/-- The state of a session is coherent, and the session shows what belongs to it. -/
structure Consistent (s : Session) (last : Option Request) : Prop where
  coherent : s.state.Coherent s.schema.catalog
  shows : s.Shows last

theorem contains_of_mem_filterableIds {catalog : Catalog} {id : String}
    (h : id ∈ catalog.filterableIds) : catalog.contains id = true := by
  obtain ⟨column, hcolumn, rfl⟩ := List.mem_map.1 h
  have hmem : column ∈ catalog.columns := (List.mem_filter.1 hcolumn).1
  -- its own column is found for the id
  rw [Catalog.contains, Catalog.get?_of_mem hmem]
  rfl

theorem consistent_start (schema : Schema) : (start schema).Consistent none where
  coherent :=
    { columns := fun _ => contains_of_mem_filterableIds
      sort := by simp [start]
      readable := .inl rfl
      inSync := .inl rfl }
  shows := ⟨rfl, rfl⟩

theorem consistent_of_new (h : New s) : s.Consistent none := by
  induction h with
  | start schema => exact consistent_start schema
  | opened h =>
    unfold opened at h
    split at h <;> cases h
    exact consistent_start _
  | withColumns _ h ih =>
    unfold Session.withColumns at h
    split at h <;> cases h
    -- what is set before the first step names columns of the catalog, and nothing has been run
    next hknown =>
    exact ⟨{ ih.coherent with columns := unknown?_eq_none_iff.1 hknown }, ih.shows⟩
  | withSort _ h ih =>
    unfold Session.withSort at h
    split at h <;> cases h
    next hknown =>
    refine ⟨{ ih.coherent with sort := ?_ }, ih.shows⟩
    intro key hkey
    exact unknown?_eq_none_iff.1 hknown _ (List.mem_map_of_mem hkey)

/-! ## §3 Runs -/

/-- A request that succeeds is the last from then on, and any other changes nothing. -/
theorem consistent_after (h : s.Consistent last) (r : Request) :
    (s.after r).Consistent (if s.accepts r then some r else last) := by
  cases ha : s.accepts r with
  | false =>
    rw [after_of_not_accepts ha]
    exact h
  | true =>
    obtain ⟨rows, hok⟩ := exists_of_accepts ha
    obtain ⟨state, hn, hdb, hs⟩ := session_of_ok hok
    -- the statement that was run is that of the new state
    have hcoherent : state.Coherent s.schema.catalog := coherent_next h.coherent hn
    rw [after, hs]
    exact ⟨hcoherent, rfl, hdb⟩

theorem consistent_run_of_consistent (h : s.Consistent last) (requests : List Request) :
    (s.run requests).Consistent ((s.accepted requests).getLast?.or last) := by
  induction requests generalizing s last with
  | nil => exact h
  | cons r rest ih =>
    -- what holds after the first request holds for the rest of the run
    have hrest := ih (consistent_after h r)
    rw [run_cons, accepted]
    cases ha : s.accepts r with
    | false => simpa [ha] using hrest
    | true =>
      rw [if_pos ha] at hrest
      rw [if_pos rfl, List.getLast?_cons]
      -- the last request that succeeds is in the rest, or else it is the first one
      cases hlast : ((s.after r).accepted rest).getLast? with
      | none => simpa [hlast] using hrest
      | some r' => simpa [hlast] using hrest

/-- **The invariant of a session.**  After any run of a new session, whatever was asked and answered, the
visible columns and the ordering name columns of the catalog, the filter is empty or an expression, the
criteria and the filter agree, and the session shows the statement of its state with what the database
answered to it in the last step that succeeded, or nothing if none did. -/
theorem consistent_run (h : New s) (requests : List Request) :
    (s.run requests).Consistent (s.accepted requests).getLast? := by
  have hrun := consistent_run_of_consistent (consistent_of_new h) requests
  rwa [Option.or_none] at hrun

/-- A filter that is kept, a change that the database rejects, and one that is refused: the session shows
what the database answered to the first. -/
theorem consistent_run_rejected :
    let column : Column := ⟨"t", "Title", some ⟨"g", "n"⟩, .text, true, true⟩
    let schema : Schema := ⟨"g", [], .ofCompatible [column] (List.pairwise_singleton _ _), .empty⟩
    let kept : Request := ⟨fun _ => .ok ⟨["n"], [[.integer 1]]⟩, .setFilter " n = 1 "⟩
    let rejected : Request := ⟨fun sql => .error (.database sql "locked"), .toggleColumn "t"⟩
    let refused : Request := ⟨fun _ => .ok .empty, .setSort [⟨"u", true⟩]⟩
    New (start schema) ∧ ((start schema).run [kept, rejected, refused]).Consistent (some kept) := by
  intro column schema kept rejected refused
  have hkept : (start schema).accepts kept = true := by decide +kernel
  have hrejected : ((start schema).after kept).accepts rejected = false := by decide +kernel
  have hrefused : ((start schema).after kept).accepts refused = false := by decide +kernel
  have haccepted : (start schema).accepted [kept, rejected, refused] = [kept] := by
    simp [accepted, hkept, hrejected, hrefused, after_of_not_accepts]
  have hrun := consistent_run (.start schema) [kept, rejected, refused]
  rw [haccepted] at hrun
  exact ⟨.start schema, hrun⟩

end Session
end CatalogFilter
