import CatalogFilter.Command.Arguments
import CatalogFilter.Decimal.Reader
import CatalogFilter.Json.Reader
import CatalogFilter.Settings.EnvironmentFile
import CatalogFilter.Settings.Place
import CatalogFilter.Statement.Sort
import CatalogFilter.Toml.Reader

/-!
# Configuration

Settings come from a configuration file, from environment variables and from the command line; of these
each beats the ones before it.  Values are converted where there is a plain way to: a number or truth
value may stand where a text is asked for.
-/

namespace CatalogFilter.Command

open Settings

/-! ## §1 What settings are taken from -/

/-- The files and environment variables that the program can see. -/
structure Surroundings where
  /-- The text of a file, if it can be read. -/
  file : String → Option String
  environment : Environment

/-- The name of the file that adds variables to the environment. -/
def environmentFile : String := ".env"

/-- The surroundings with the variables of the environment file. -/
def Surroundings.complete (s : Surroundings) : Surroundings :=
  match s.file environmentFile with
  | some text => { s with environment := EnvironmentFile.addFile s.environment text }
  | none => s

/-- The settings of the program. -/
structure Config where
  database : Option String
  schema : Option String
  /-- The ids of the visible columns; none means all that can be filtered. -/
  columns : List String
  sort : List String
  logLevel : String
  deriving DecidableEq, Repr

/-! ## §2 Environment variables -/

/-- The integer of 64 bits that a text is, perhaps with a sign. -/
def integer? (text : String) : Option Int :=
  let digits := Text.dropSign text.toList
  if digits.isEmpty || !digits.all Char.isDigit then none
  else
    let magnitude : Int := Text.digitsValue digits
    let n := if text.toList.head? = some '-' then -magnitude else magnitude
    if Text.fitsWord n then some n else none

/-- The value of an environment variable: a truth value, an integer or a number if it is one, else a
text, or a list of texts where one is asked for. -/
def variableValue (isList : Bool) (text : String) : Value :=
  if text.toLower = "true" then .truth true
  else if text.toLower = "false" then .truth false
  else
    match integer? text with
    | some n => .integer n
    | none =>
      match Decimal.double? text.toList with
      | some value => .number value.toBits
      -- only what is neither a truth value nor a number can be a list
      | none => if isList then .list ((splitCommas text).map .text) else .text text

/-- What the names of variables for settings begin with, in letters of any case. -/
def variablePrefix : String := "arcadex_"

def listSettings : List String := ["columns", "sort"]

/-- A text with a point in place of every two underscores. -/
def pointed : List Char → List Char
  | '_' :: '_' :: cs => '.' :: pointed cs
  | c :: cs => c :: pointed cs
  | [] => []

/-- The key and the value of the setting that a variable holds, if it holds one. -/
def settingOf? (name value : String) : Option (String × Value) :=
  let start := variablePrefix.toList
  let name := name.toLower.toList
  if start.isPrefixOf name then
    let key := String.ofList (pointed (name.drop start.length))
    some (key, variableValue (listSettings.contains key) value)
  else none

/-- The settings that the variables of an environment hold. -/
def environmentSettings (environment : Environment) : List (String × Value) :=
  environment.filterMap fun (name, value) => settingOf? name value

/-! ## §3 Reading settings -/

def settingOr {α : Type} (default : α) (convert : Value → Option α) : Option Value → Option α
  | some value => convert value
  | none => some default

/-- The log level in the logging settings, which may also be written as a list of the level and of whether
logs are written as JSON.  The latter is looked at only to refuse what is no truth value. -/
def logLevel? (logging : Value) : Option String := do
  let (level, json) ←
    match logging with
    | .group entries => some (entries.lookup "level", entries.lookup "json")
    | .list items => some (items[0]?, items[1]?)
    | _ => none
  let level ← settingOr "warn" Value.text? level
  let _ ← settingOr false Value.truth? json
  pure level

/-- The configuration that settings are, if every one can be converted. -/
def Config.ofSettings? (settings : Value) : Option Config := do
  let setting (key : String) : Option Value := settings.entries.lookup key
  let database ← settingOr none Value.optionalText? (setting "database")
  let schema ← settingOr none Value.optionalText? (setting "schema")
  let columns ← settingOr [] Value.texts? (setting "columns")
  let sort ← settingOr [] Value.texts? (setting "sort")
  let logLevel ← settingOr "warn" logLevel? (setting "logging")
  pure ⟨database, schema, columns, sort, logLevel⟩

/-- A format of configuration files. -/
inductive Format where
  | toml
  | json
  deriving DecidableEq, Repr

def Format.all : List Format := [.toml, .json]

def Format.ending : Format → String
  | .toml => ".toml"
  | .json => ".json"

/-- The format of a file, by the ending of its name.  A name that is all ending has no format. -/
def Format.ofPath? (path : String) : Option Format :=
  let name := (path.toList.splitOn '/').getLastD []
  Format.all.find? fun format =>
    let ending := format.ending.toList
    name != ending && ending.isSuffixOf name

/-- How deep the values of a JSON document may stand inside each other. -/
def maxJsonLevels : Nat := 127

def Format.read? (text : String) : Format → Option (List (String × Value))
  | .toml => (Toml.parse? text).map Value.ofEntries
  | .json =>
    match Json.ofText? text with
    | some value =>
      match value, value.isSound maxJsonLevels with
      | .object members, true => some (Value.ofMembers members)
      | _, _ => none
    | none => none

/-- A path, written from its end, without what only says that it names a directory. -/
def dropSlashes : List Char → List Char
  | '/' :: cs => dropSlashes cs
  | '.' :: '/' :: cs => dropSlashes cs
  | cs => cs

/-- The places where a configuration file is looked for.  The ending may be left out. -/
def configPaths (given : Option String) : List String :=
  let path := given.getD "arcadex"
  let bare := String.ofList (dropSlashes path.toList.reverse).reverse
  path :: Format.all.map fun format => bare ++ format.ending

/-- The text of a file without a byte order mark at its front. -/
def withoutMark (text : String) : String := String.ofList (Toml.dropMark text.toList)

/-- The settings of the configuration file.  A file that was asked for has to exist, and be named as what
it is; else the settings are those of an empty file. -/
def fileSettings? (s : Surroundings) (given : Option String) : Option (List (String × Value)) :=
  match (configPaths given).find? fun path => (s.file path).isSome with
  | some path =>
    match Format.ofPath? path with
    | some format => (s.file path).bind fun text => format.read? (withoutMark text)
    | none => if given.isSome then none else some []
  | none => if given.isSome then none else some []

/-- The settings of the configuration file and the environment, if they can be read. -/
def Config.load? (s : Surroundings) (given : Option String) : Option Config := do
  let settings ← fileSettings? s given
  -- what is put later lies over what was put before, so the environment comes last
  Config.ofSettings? (Value.putAll (.group []) (settings ++ environmentSettings s.environment))

/-! ## §4 Settings of the command line -/

/-- A list, unless it is empty. -/
def orElse (given current : List String) : List String := if given.isEmpty then current else given

def Task.viewOptions? : Task → Option ViewOptions
  | .statement view | .query view _ => some view
  | _ => none

/-- The settings with those of the command line in place of their own. -/
def Config.overriddenBy (c : Config) (general : General) (task : Task) : Config where
  database := general.database.or c.database
  schema := general.schema.or c.schema
  columns := orElse ((task.viewOptions?.map (·.columns)).getD []) c.columns
  sort := orElse ((task.viewOptions?.map (·.sort)).getD []) c.sort
  logLevel := general.logLevel.getD c.logLevel

/-! ## §5 Validity -/

def logLevels : List String := ["off", "error", "warn", "info", "debug", "trace"]

/-- Is a text a log level: its name in any case, its number, or nothing at all? -/
def isLogLevel (text : String) : Bool :=
  let digits := if text.toList.head? = some '+' then text.toList.drop 1 else text.toList
  text.isEmpty || logLevels.contains text.toLower ||
    (!digits.isEmpty && digits.all Char.isDigit && Text.digitsValue digits < logLevels.length)

/-- Why settings are refused. -/
inductive ConfigError where
  | sort (fault : SortError)
  | logLevel (text : String)
  deriving DecidableEq, Repr

def ConfigError.message : ConfigError → String
  | .sort fault => fault.message
  | .logLevel text => "unknown log level '" ++ text ++ "'"

/-- The sort keys of settings, if the settings are valid. -/
def Config.validate (c : Config) : Except ConfigError (List SortKey) :=
  match SortKey.ofTexts c.sort with
  | .error fault => .error (.sort fault)
  | .ok keys => if isLogLevel c.logLevel then .ok keys else .error (.logLevel c.logLevel)

end CatalogFilter.Command
