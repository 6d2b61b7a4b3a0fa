import CatalogFilter.Cell.Basic
import CatalogFilter.Criterion.OfExpr
import CatalogFilter.Statement.Basic

/-!
# Sessions

A session is the state behind one view of a database: which columns are visible, the ordering, and the
filter in its two forms, the criteria and the text.  Editing one form of the filter renews the other.
Every change is first put to the database and kept only if that accepts it, so a step that fails leaves
the session as it was.

The database is a function from statements to answers.  A step answers what it put to the database: one
statement, or none if the change was refused before.
-/

namespace CatalogFilter

open Text

/-! ## §1 Databases and faults -/

/-- Why a session refuses a step, or a database a statement. -/
inductive SessionError where
  /-- The database rejected a statement. -/
  | database (sql message : String)
  /-- The database could not be opened or inspected. -/
  | connection (message : String)
  /-- A text is no filter. -/
  | filter (fault : FilterError)
  | unknownColumn (id : String)
  | schema (fault : SchemaError)
  deriving DecidableEq, Repr

def SessionError.message : SessionError → String
  | .database sql message => "Database error: " ++ message ++ " (in: " ++ sql ++ ")"
  | .connection message => "Connection error: " ++ message
  | .filter fault => fault.message
  | .unknownColumn id => "Unknown column: " ++ id
  | .schema fault => fault.message

/-- Runs a statement: its rows, or why there are none. -/
abbrev Database := String → Except SessionError ResultSet

/-- What is asked of a database: a statement that fails is reported with a message, as a fault of the database
in that statement. -/
def Database.Reports (db : Database) : Prop :=
  ∀ sql fault, db sql = .error fault → ∃ message, fault = .database sql message

/-! ## §2 States -/

/-- What a session shows, apart from rows. -/
structure ViewState where
  columns : List String
  sort : List SortKey
  criteria : FilterSet
  /-- The text of the filter, without blanks around it. -/
  filter : String
  deriving DecidableEq, Inhabited

def ViewState.view (state : ViewState) : View := ⟨state.columns, state.filter, state.sort⟩

/-- A session over a database with a schema. -/
structure Session where
  schema : Schema
  state : ViewState
  /-- The last statement that the database accepted. -/
  statement : Option Statement
  /-- The rows of that statement. -/
  rows : ResultSet
  deriving Inhabited

/-- A change of a session. -/
inductive Change where
  /-- The statement is put to the database again. -/
  | refresh
  | setColumns (columns : List String)
  /-- A visible column is hidden, or a hidden one shown. -/
  | toggleColumn (id : String)
  | setSort (sort : List SortKey)
  /-- The filter becomes the text of criteria. -/
  | setCriteria (criteria : FilterSet)
  /-- The criteria become those of a filter. -/
  | setFilter (text : String)
  deriving DecidableEq

/-- What a step did. -/
structure Step where
  result : Except SessionError ResultSet
  /-- The statements that were put to the database. -/
  ran : List String
  /-- The session after the step. -/
  session : Session

namespace Session

/-! ## §3 New sessions -/

/-- A session that shows every column that can be filtered, unfiltered and unordered. -/
def start (schema : Schema) : Session :=
  ⟨schema, ⟨schema.catalog.filterableIds, [], .empty, ""⟩, none, .empty⟩

/-- A session on a database that has the given tables, or the fault of listing them. -/
def opened (schema : Schema) (tables : Except SessionError (List String)) : Except SessionError Session :=
  match tables with
  | .ok tables => .ok (start (schema.retainExisting tables))
  | .error fault => .error fault

def unknown? (s : Session) (ids : List String) : Option SessionError :=
  (ids.find? fun id => !s.schema.catalog.contains id).map .unknownColumn

/-- The session with other visible columns, before anything has been run. -/
def withColumns (s : Session) (columns : List String) : Except SessionError Session :=
  match s.unknown? columns with
  | some fault => .error fault
  | none => .ok { s with state := { s.state with columns } }

/-- The session with another ordering, before anything has been run. -/
def withSort (s : Session) (sort : List SortKey) : Except SessionError Session :=
  match s.unknown? (sort.map (·.column)) with
  | some fault => .error fault
  | none => .ok { s with state := { s.state with sort } }

/-! ## §4 Steps -/

/-- The state that a change leads to, or why it is refused before anything is run.  A visible column is
hidden by leaving out its first occurrence, and a hidden one is shown after all others. -/
def next (s : Session) : Change → Except SessionError ViewState
  | .refresh => .ok s.state
  | .setColumns columns =>
    match s.unknown? columns with
    | some fault => .error fault
    | none => .ok { s.state with columns }
  | .toggleColumn id =>
    match s.unknown? [id] with
    | some fault => .error fault
    | none =>
      let columns := s.state.columns
      .ok { s.state with columns := if id ∈ columns then columns.erase id else columns ++ [id] }
  | .setSort sort =>
    match s.unknown? (sort.map (·.column)) with
    | some fault => .error fault
    | none => .ok { s.state with sort }
  | .setCriteria criteria => .ok { s.state with criteria, filter := criteria.sql s.schema.catalog }
  | .setFilter text =>
    match FilterSet.ofText s.schema.catalog text with
    | .error fault => .error (.filter fault)
    | .ok criteria => .ok { s.state with criteria, filter := trimmed text }

/-- Puts the statement of a state to the database, and keeps the state if it is accepted. -/
def commit (s : Session) (db : Database) (state : ViewState) : Step :=
  let statement := Statement.ofView s.schema state.view
  match db statement.sql with
  | .ok rows => ⟨.ok rows, [statement.sql], ⟨s.schema, state, some statement, rows⟩⟩
  | .error fault => ⟨.error fault, [statement.sql], s⟩

def step (s : Session) (db : Database) (change : Change) : Step :=
  match s.next change with
  | .error fault => ⟨.error fault, [], s⟩
  | .ok state => s.commit db state

end Session
end CatalogFilter
