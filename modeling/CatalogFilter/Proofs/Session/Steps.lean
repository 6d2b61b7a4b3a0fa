import CatalogFilter.Session.Basic

/-!
# Steps and runs of a session

A change is refused before anything is run, or its statement is rejected by the database, or it is kept.
Only a change that is kept renews the session, so a step that fails can be left out of a run.

**Main statements**: `Session.step_cases`, from which all else about steps is derived, and
`Session.step_atomic`.
-/

namespace CatalogFilter

/-- The columns that a change names. -/
def Change.named : Change → List String
  | .refresh => []
  | .setColumns columns => columns
  | .toggleColumn id => [id]
  | .setSort sort => sort.map (·.column)
  | .setCriteria _ => []
  | .setFilter _ => []

namespace Session

variable {s : Session} {db : Database} {change : Change}

/-! ## §1 What is refused -/

theorem unknown?_eq_none_iff {ids : List String} :
    s.unknown? ids = none ↔ ∀ id ∈ ids, s.schema.catalog.contains id = true := by
  simp [unknown?]

theorem exists_of_unknown?_eq_some {ids : List String} {fault : SessionError}
    (h : s.unknown? ids = some fault) :
    ∃ id ∈ ids, s.schema.catalog.contains id = false ∧ fault = .unknownColumn id := by
  obtain ⟨id, hfind, rfl⟩ := Option.map_eq_some_iff.1 h
  exact ⟨id, List.mem_of_find?_eq_some hfind, by simpa using List.find?_some hfind, rfl⟩

/-- Why a session refuses a change before anything is run. -/
inductive Refuses (s : Session) : Change → SessionError → Prop
  /-- It names a column that the catalog does not have. -/
  | unknown {change : Change} {id : String} (named : id ∈ change.named)
      (absent : s.schema.catalog.contains id = false) : Refuses s change (.unknownColumn id)
  /-- It sets a filter that cannot be read. -/
  | unreadable {text : String} {fault : FilterError}
      (h : FilterSet.ofText s.schema.catalog text = .error fault) :
      Refuses s (.setFilter text) (.filter fault)

theorem refuses_of_unknown? {fault : SessionError} (h : s.unknown? change.named = some fault) :
    s.Refuses change fault := by
  obtain ⟨id, hid, habsent, rfl⟩ := exists_of_unknown?_eq_some h
  exact .unknown hid habsent

theorem refuses_of_next {fault : SessionError} (h : s.next change = .error fault) :
    s.Refuses change fault := by
  unfold next at h
  split at h
  case h_1 => cases h
  -- columns, a single column and an ordering are looked up before anything else
  case h_2 | h_3 | h_4 =>
    split at h <;> cases h
    exact refuses_of_unknown? ‹_›
  case h_5 => cases h
  case h_6 =>
    split at h <;> cases h
    exact .unreadable ‹_›

/-- A change that is not refused names only columns of the catalog. -/
theorem contains_of_next {state : ViewState} (h : s.next change = .ok state) :
    ∀ id ∈ change.named, s.schema.catalog.contains id = true := by
  apply unknown?_eq_none_iff.1
  unfold next at h
  split at h
  case h_1 | h_5 | h_6 => rfl
  case h_2 | h_3 | h_4 =>
    split at h <;> cases h
    assumption

/-! ## §2 One step -/

/-- The statement of a state of the session. -/
def statementOf (s : Session) (state : ViewState) : Statement := .ofView s.schema state.view

theorem commit_of_error {state : ViewState} {fault : SessionError}
    (h : db (s.statementOf state).sql = .error fault) :
    s.commit db state = ⟨.error fault, [(s.statementOf state).sql], s⟩ := by
  unfold statementOf at *
  simp only [commit, h]

theorem commit_of_ok {state : ViewState} {rows : ResultSet}
    (h : db (s.statementOf state).sql = .ok rows) :
    s.commit db state = ⟨.ok rows, [(s.statementOf state).sql],
      ⟨s.schema, state, some (s.statementOf state), rows⟩⟩ := by
  unfold statementOf at *
  simp only [commit, h]

/-- All that a step can do. -/
theorem step_cases (s : Session) (db : Database) (change : Change) :
    (∃ fault, s.next change = .error fault ∧ s.step db change = ⟨.error fault, [], s⟩) ∨
    (∃ state fault, s.next change = .ok state ∧ db (s.statementOf state).sql = .error fault ∧
      s.step db change = ⟨.error fault, [(s.statementOf state).sql], s⟩) ∨
    (∃ state rows, s.next change = .ok state ∧ db (s.statementOf state).sql = .ok rows ∧
      s.step db change = ⟨.ok rows, [(s.statementOf state).sql],
        ⟨s.schema, state, some (s.statementOf state), rows⟩⟩) := by
  -- first whether the change is refused, then what the database answers to the statement
  cases hn : s.next change with
  | error fault =>
    left
    exact ⟨fault, rfl, by rw [step, hn]⟩
  | ok state =>
    have hstep : s.step db change = s.commit db state := by rw [step, hn]
    right
    cases hdb : db (s.statementOf state).sql with
    | error fault => exact .inl ⟨state, fault, rfl, hdb, hstep.trans (commit_of_error hdb)⟩
    | ok rows => exact .inr ⟨state, rows, rfl, hdb, hstep.trans (commit_of_ok hdb)⟩

theorem session_of_error {fault : SessionError} (h : (s.step db change).result = .error fault) :
    (s.step db change).session = s := by
  rcases s.step_cases db change with ⟨_, _, hs⟩ | ⟨_, _, _, _, hs⟩ | ⟨_, _, _, _, hs⟩
  · rw [hs]
  · rw [hs]
  · simp [hs] at h

/-- The session after a step that succeeds. -/
theorem session_of_ok {rows : ResultSet} (h : (s.step db change).result = .ok rows) :
    ∃ state, s.next change = .ok state ∧ db (s.statementOf state).sql = .ok rows ∧
      (s.step db change).session = ⟨s.schema, state, some (s.statementOf state), rows⟩ := by
  rcases s.step_cases db change with ⟨_, _, hs⟩ | ⟨_, _, _, _, hs⟩ | ⟨state, found, hn, hdb, hs⟩
  · simp [hs] at h
  · simp [hs] at h
  · obtain rfl : found = rows := by simpa [hs] using h
    exact ⟨state, hn, hdb, by rw [hs]⟩

/-- A step that fails was refused and put nothing to the database, or its one statement failed there. -/
theorem ran_of_error {fault : SessionError} (h : (s.step db change).result = .error fault) :
    s.Refuses change fault ∧ (s.step db change).ran = [] ∨
      ∃ sql, db sql = .error fault ∧ (s.step db change).ran = [sql] := by
  rcases s.step_cases db change with ⟨_, hn, hs⟩ | ⟨state, _, _, hdb, hs⟩ | ⟨_, _, _, _, hs⟩
  · obtain rfl : _ = fault := by simpa [hs] using h
    exact .inl ⟨refuses_of_next hn, by rw [hs]⟩
  · obtain rfl : _ = fault := by simpa [hs] using h
    exact .inr ⟨(s.statementOf state).sql, hdb, by rw [hs]⟩
  · simp [hs] at h

/-- A fault that no database reports is found before anything is run. -/
theorem ran_eq_nil_of_error (hdb : db.Reports) {fault : SessionError}
    (hfault : ∀ sql message, fault ≠ .database sql message)
    (h : (s.step db change).result = .error fault) : (s.step db change).ran = [] := by
  rcases ran_of_error h with ⟨-, hran⟩ | ⟨sql, hsql, -⟩
  · exact hran
  · obtain ⟨message, hreported⟩ := hdb sql fault hsql
    exact absurd hreported (hfault sql message)

theorem length_ran_le (s : Session) (db : Database) (change : Change) :
    (s.step db change).ran.length ≤ 1 := by
  rcases s.step_cases db change with ⟨_, _, hs⟩ | ⟨_, _, _, _, hs⟩ | ⟨_, _, _, _, hs⟩
  · simp [hs]
  · simp [hs]
  · simp [hs]

/-- A step knows of a database only what that answers to the statements put to it. -/
theorem step_congr {db' : Database} (h : ∀ sql ∈ (s.step db change).ran, db' sql = db sql) :
    s.step db' change = s.step db change := by
  rcases s.step_cases db change with ⟨_, hn, hs⟩ | ⟨state, fault, hn, hdb, hs⟩ | ⟨state, rows, hn, hdb, hs⟩
  · rw [hs, step, hn]
  · -- both databases answer the same to the one statement that was put to the first
    have hdb' : db' (s.statementOf state).sql = .error fault := by
      rw [h _ (by simp [hs]), hdb]
    rw [hs, step, hn]
    exact commit_of_error hdb'
  · have hdb' : db' (s.statementOf state).sql = .ok rows := by
      rw [h _ (by simp [hs]), hdb]
    rw [hs, step, hn]
    exact commit_of_ok hdb'

/-- **A step that fails changes nothing.**  Whatever the state of the session, the change and the answers
of the database: columns, ordering, criteria, filter, statement, rows and schema stay as they were.  The fault
was found before anything was run, or it is what the database has answered to the one statement that was put
to it; so with a database that reports its faults as it should, a change that is refused for its columns or
its filter puts nothing to it.  No step puts more than one statement to the database, which is all that the
step depends on. -/
theorem step_atomic (s : Session) (db : Database) (change : Change) :
    (∀ fault, (s.step db change).result = .error fault →
      (s.step db change).session = s ∧
        ((s.step db change).ran = [] ∨ ∃ sql, db sql = .error fault ∧ (s.step db change).ran = [sql])) ∧
    (db.Reports →
      (∀ id, (s.step db change).result = .error (.unknownColumn id) → (s.step db change).ran = []) ∧
      (∀ fault, (s.step db change).result = .error (.filter fault) → (s.step db change).ran = [])) ∧
    (s.step db change).ran.length ≤ 1 ∧
    ∀ db', (∀ sql ∈ (s.step db change).ran, db' sql = db sql) →
      s.step db' change = s.step db change := by
  refine ⟨?_, ?_, length_ran_le s db change, fun _ => step_congr⟩
  · intro fault h
    exact ⟨session_of_error h, (ran_of_error h).imp_left And.right⟩
  · intro hdb
    constructor
    · intro id
      exact ran_eq_nil_of_error hdb (by simp)
    · intro fault
      exact ran_eq_nil_of_error hdb (by simp)

/-- A database that rejects every statement: a refresh leaves the session as it is, and for a column that is
unknown nothing is put to the database. -/
theorem step_atomic_rejected :
    let column : Column := ⟨"t", "Title", some ⟨"g", "n"⟩, .text, true, true⟩
    let schema : Schema := ⟨"g", [], .ofCompatible [column] (List.pairwise_singleton _ _), .empty⟩
    let db : Database := fun sql => .error (.database sql "locked")
    let s := start schema
    db.Reports ∧ (s.step db .refresh).ran = ["SELECT g.n FROM g"] ∧ (s.step db .refresh).session = s ∧
      (s.step db (.toggleColumn "u")).result = .error (.unknownColumn "u") ∧
      (s.step db (.toggleColumn "u")).ran = [] := by
  intro column schema db s
  have hreports : db.Reports := by
    intro sql fault h
    exact ⟨"locked", (Except.error.inj h).symm⟩
  -- the refresh reaches the database, the unknown column does not
  have hrejected : (s.step db .refresh).result = .error (.database (s.statementOf s.state).sql "locked") := rfl
  have hunknown : (s.step db (.toggleColumn "u")).result = .error (.unknownColumn "u") := by
    have habsent : s.schema.catalog.contains "u" = false := by decide +kernel
    simp [step, next, unknown?, habsent]
  obtain ⟨hunchanged, -⟩ := step_atomic s db .refresh
  obtain ⟨-, hrefused, -⟩ := step_atomic s db (.toggleColumn "u")
  exact ⟨hreports, by decide +kernel, (hunchanged _ hrejected).1, hunknown, (hrefused hreports).1 "u" hunknown⟩

/-! ## §3 Runs -/

/-- A change, and the database that it is put to. -/
structure Request where
  db : Database
  change : Change

/-- The session after a request, whether that succeeds or not. -/
def after (s : Session) (r : Request) : Session := (s.step r.db r.change).session

/-- Does a request succeed? -/
def accepts (s : Session) (r : Request) : Bool := (s.step r.db r.change).result.isOk

/-- The session after a row of requests. -/
def run (s : Session) (requests : List Request) : Session := requests.foldl after s

/-- The requests of a run that succeed. -/
def accepted (s : Session) : List Request → List Request
  | [] => []
  | r :: rest => if s.accepts r then r :: (s.after r).accepted rest else (s.after r).accepted rest

@[simp] theorem run_cons {r : Request} {rest : List Request} :
    s.run (r :: rest) = (s.after r).run rest := rfl

theorem exists_of_accepts {r : Request} (h : s.accepts r = true) :
    ∃ rows, (s.step r.db r.change).result = .ok rows := by
  unfold accepts at h
  cases hr : (s.step r.db r.change).result with
  | ok rows => exact ⟨rows, rfl⟩
  | error fault =>
    rw [hr] at h
    cases h

theorem after_of_not_accepts {r : Request} (h : s.accepts r = false) : s.after r = s := by
  -- a request that is not accepted is a step that fails
  unfold accepts at h
  cases hr : (s.step r.db r.change).result with
  | ok rows =>
    rw [hr] at h
    cases h
  | error fault => exact session_of_error hr

/-- No step changes the schema. -/
theorem after_schema (s : Session) (r : Request) : (s.after r).schema = s.schema := by
  unfold after
  rcases s.step_cases r.db r.change with ⟨_, _, hs⟩ | ⟨_, _, _, _, hs⟩ | ⟨_, _, _, _, hs⟩
  · rw [hs]
  · rw [hs]
  · rw [hs]

end Session
end CatalogFilter
