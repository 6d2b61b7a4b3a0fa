import CatalogFilter.Command.Config
import CatalogFilter.Command.Help
import CatalogFilter.Criterion.OfExpr
import CatalogFilter.Criterion.Stored
import CatalogFilter.Schema.Builtin
import CatalogFilter.Schema.Stored
import CatalogFilter.Statement.Basic

/-!
# Commands

What the program does for a command line: the text that it prints, and the fault that it reports, if any.
Everything is settled by the arguments and the surroundings.  A statement can be printed but not run:
opening a database is no part of this library, so a command that needs one reports a fault.
-/

namespace CatalogFilter.Command

/-! ## §1 Outcomes -/

/-- Why a command fails. -/
inductive Failure where
  | configuration
  | invalidConfiguration (fault : ConfigError)
  | tokenize
  | parse
  | parseFilter (filter : String)
  | criteria
  | readSchema (path : String)
  | invalidSchema (path : String)
  | noDatabase
  | openDatabase (path : String)
  deriving DecidableEq, Repr

def Failure.message : Failure → String
  | .configuration => "Failed to load configuration"
  | .invalidConfiguration fault => "Invalid configuration: " ++ fault.message
  | .tokenize => "Failed to tokenize filter"
  | .parse => "Failed to parse filter"
  | .parseFilter filter => "Failed to parse filter '" ++ filter ++ "'"
  | .criteria => "Invalid criteria JSON"
  | .readSchema path => "Failed to read schema file " ++ path
  | .invalidSchema path => "Invalid schema file " ++ path
  | .noDatabase =>
    "No database configured; pass --database or set \x60database\x60 in arcadex.toml"
  | .openDatabase path => "Failed to open " ++ path

/-- How a run of the program ends. -/
inductive Ending where
  | success
  /-- The command line is malformed. -/
  | usage
  | failed (failure : Failure)
  deriving DecidableEq, Repr

/-- What a run prints, and how it ends. -/
structure Outcome where
  output : String
  ending : Ending
  deriving DecidableEq, Repr

namespace Outcome

def code (o : Outcome) : Nat :=
  match o.ending with
  | .success => 0
  | .failed _ => 1
  | .usage => 2

def message? (o : Outcome) : Option String :=
  match o.ending with
  | .failed failure => some ("Error: " ++ failure.message)
  | _ => none

def lines (lines : List String) : Outcome := ⟨String.join (lines.map fun line => line ++ "\n"), .success⟩

def fail (failure : Failure) : Outcome := ⟨"", .failed failure⟩

def ofExcept (result : Except Failure (List String)) : Outcome :=
  match result with
  | .ok texts => lines texts
  | .error failure => fail failure

end Outcome

/-! ## §2 What commands need -/

/-- The schema of the settings: that of a file, or the built-in one. -/
def loadSchema (s : Surroundings) (c : Config) : Except Failure Schema :=
  match c.schema with
  | none => .ok Builtin.schema
  | some path =>
    match s.file path with
    | none => .error (.readSchema path)
    | some text =>
      match Schema.ofText text with
      | .ok schema => .ok schema
      | .error _ => .error (.invalidSchema path)

def readCriteria (text : String) : Except Failure FilterSet :=
  match FilterSet.ofText? text with
  | some set => .ok set
  | none => .error .criteria

/-- Reports that there is no database that could be used. -/
def needDatabase (c : Config) : Failure :=
  match c.database with
  | some path => .openDatabase path
  | none => .noDatabase

/-! ## §3 Commands -/

def tokenLine (t : Token) : String := t.kind.name ++ "\t" ++ t.shown ++ "\n"

/-- Prints a filter in its one form, after its tokens if they are asked for.  A blank filter has no
form. -/
def runParse (filter : String) (showTokens : Bool) : Outcome :=
  match Lexer.tokens filter with
  | .error _ => .fail (if showTokens then .tokenize else .parse)
  | .ok tokens =>
    let listing := if showTokens then String.join (tokens.map tokenLine) else ""
    match Expr.ofTokens tokens with
    | .ok e => ⟨listing ++ e.sql ++ "\n", .success⟩
    | .error .empty => ⟨listing, .success⟩
    | .error _ => ⟨listing, .failed .parse⟩

def runCriteria (schema : Schema) (filter : String) : Except Failure (List String) :=
  match FilterSet.ofText schema.catalog filter with
  | .ok set => .ok [set.toJson.pretty]
  | .error _ => .error (.parseFilter filter)

def runFilter (schema : Schema) (criteria : String) : Except Failure (List String) := do
  let set ← readCriteria criteria
  pure [set.sql schema.catalog]

def runStatement (schema : Schema) (c : Config) (sort : List SortKey) (options : ViewOptions) :
    Except Failure (List String) := do
  let filter ←
    match options.filter, options.criteria with
    | some filter, _ => .ok filter
    | none, some criteria => (readCriteria criteria).map fun set => set.sql schema.catalog
    | none, none => .ok ""
  let columns := orElse c.columns schema.catalog.filterableIds
  pure [(Statement.ofView schema ⟨columns, filter, sort⟩).sql]

def columnLine (column : Column) : String :=
  let source := (column.source.map FieldRef.dotted).getD "-"
  let flags := (if column.filterable then ["filter"] else []) ++ (if column.sortable then ["sort"] else [])
  "\t".intercalate [column.id, column.label, source, ",".intercalate flags]

def runColumns (schema : Schema) (c : Config) : Except Failure (List String) :=
  if c.database.isSome then .error (needDatabase c)
  else .ok (schema.catalog.columns.map columnLine)

def runTask (s : Surroundings) (c : Config) (sort : List SortKey) (task : Task) : Outcome :=
  match task with
  | .parse filter showTokens => runParse filter showTokens
  | .criteria filter => .ofExcept do runCriteria (← loadSchema s c) filter
  | .filter criteria => .ofExcept do runFilter (← loadSchema s c) criteria
  | .statement view => .ofExcept do runStatement (← loadSchema s c) c sort view
  | .query _ _ => .ofExcept do
    let _ ← loadSchema s c
    .error (needDatabase c)
  | .columns => .ofExcept do runColumns (← loadSchema s c) c

def versionLine : String := "arcadex 0.1.0"

def run (surroundings : Surroundings) (words : List String) : Outcome :=
  let s := surroundings.complete
  match Request.ofArguments words with
  | .usage => ⟨"", .usage⟩
  | .help level => ⟨level.help, .success⟩
  | .version => .lines [versionLine]
  | .run general task =>
    match Config.load? s general.config with
    | none => .fail .configuration
    | some loaded =>
      let config := loaded.overriddenBy general task
      match config.validate with
      | .error fault => .fail (.invalidConfiguration fault)
      | .ok sort => runTask s config sort task

/-- The files that a run may look at, given what the files are that it is known to look at: those of the
environment and the configuration, and then that of the schema. -/
def filesNeeded (surroundings : Surroundings) (words : List String) : List String :=
  let s := surroundings.complete
  match Request.ofArguments words with
  | .run general task =>
    let schema := (Config.load? s general.config).bind fun loaded => (loaded.overriddenBy general task).schema
    environmentFile :: configPaths general.config ++ schema.toList
  | _ => []

end CatalogFilter.Command
