import CatalogFilter.Text.Split

/-!
# Arguments

The command line has two levels: options that hold for every command, the name of a command, and then the
options and the argument of that command, among which the general options may stand as well.  **Main
definition**: `Request.ofArguments` reads a command line.

An option is written `--name value`, `--name=value`, or by its letter as `-n value`, `-nvalue` or
`-n=value`.  A value that stands by itself may not look like an option.  After `--` everything is an
argument.
-/

namespace CatalogFilter.Command

/-! ## §1 Options and levels -/

/-- An option of a level of the command line. -/
structure Setting where
  name : String
  letter : Option Char
  /-- What the value of the option is called; a switch has none. -/
  value : Option String
  /-- May the option be given more than once? -/
  repeatable : Bool
  /-- The values that the option accepts. -/
  accepts : String → Bool
  /-- What the option does. -/
  help : String

/-- What a command works on, as help shows it. -/
structure Argument where
  shown : String
  /-- What the argument is. -/
  help : String

/-- A level of the command line. -/
structure Level where
  /-- The words before the options of the level. -/
  words : String
  /-- What the command does. -/
  about : String
  /-- The options of the level, in the order in which help lists them. -/
  settings : List Setting
  /-- The argument of the command, if it takes one. -/
  argument : Option Argument
  /-- The commands that may follow, each with what it does. -/
  commands : List (String × String)

def Setting.text (name : String) (value : String) (help : String) : Setting :=
  ⟨name, none, some value, false, fun _ => true, help⟩

/-- An option with a path, which may not be empty. -/
def Setting.path (name : String) (letter : Option Char) (value : String) (help : String) : Setting :=
  ⟨name, letter, some value, false, fun value => !value.isEmpty, help⟩

/-- An option with a list of texts, which may be given more than once. -/
def Setting.list (name : String) (value : String) (help : String) : Setting :=
  ⟨name, none, some value, true, fun _ => true, help⟩

def generalSettings : List Setting :=
  [.path "config" (some 'c') "CONFIG" "Configuration file (defaults to ./arcadex.toml when present)",
   .path "database" (some 'd') "DATABASE" "SQLite catalog database",
   .path "schema" none "SCHEMA" "JSON schema file",
   .text "log-level" "LOG_LEVEL" ""]

def viewSettings : List Setting :=
  [.text "where" "WHERE_TEXT" "WHERE text",
   .text "criteria" "CRITERIA" "Criteria JSON, \x60\x7b\"rows\": [\x7b\"<column>\": \"<criterion>\"\x7d]\x7d\x60",
   .list "columns" "COLUMNS" "Visible column ids",
   .list "sort" "SORT" "Sort specs, \x60column[:asc|:desc]\x60"]

def commands : List (String × String) :=
  [("parse", "Parse WHERE text and print it back in canonical form"),
   ("criteria", "Derive per-column criteria (JSON) from WHERE text"),
   ("where", "Render criteria JSON as WHERE text"),
   ("sql", "Print the SELECT statement for a view"),
   ("query", "Run a view against the database"),
   ("columns", "List the catalog columns"),
   ("help", "Print this message or the help of the given subcommand(s)")]

def topLevel : Level :=
  ⟨"arcadex", "Filter game catalog databases", generalSettings, none, commands⟩

def ownSettings : String → List Setting
  | "parse" => [⟨"tokens", none, none, false, fun _ => true, "Print the token stream first"⟩]
  | "sql" => viewSettings
  | "query" =>
    viewSettings ++
      [⟨"output", some 'o', some "OUTPUT", false, fun value => value == "table" || value == "json",
        "[default: table] [possible values: table, json]"⟩]
  | _ => []

def argumentOf : String → Option Argument
  | "parse" | "criteria" => some ⟨"<FILTER>", ""⟩
  | "where" => some ⟨"<CRITERIA>", ""⟩
  | _ => none

/-- The key by which help orders two options that stand at the same place of their lists: the letter, a
small one ahead of its capital, or else the name. -/
def Setting.orderKey (setting : Setting) : List Char :=
  match setting.letter with
  | some c => [c.toLower, if c.isLower then '0' else '1']
  | none => setting.name.toList

/-- The options of two lists, place by place. -/
def interleaved : List Setting → List Setting → List Setting
  | [], general => general
  | own, [] => own
  | own :: owns, general :: generals =>
    let pair := if own.orderKey < general.orderKey then [own, general] else [general, own]
    pair ++ interleaved owns generals

def commandLevel (command about : String) : Level :=
  ⟨"arcadex " ++ command, about, interleaved (ownSettings command) generalSettings,
    argumentOf command, []⟩

/-- The level after the command that prints help, which has no options. -/
def helpLevel (about : String) : Level :=
  ⟨"arcadex help", about, [], some ⟨"[COMMAND]...", "Print help for the subcommand(s)"⟩, []⟩

/-! ## §2 Reading one level -/

/-- Why reading ends before a command is known. -/
inductive Stop where
  /-- The command line is malformed. -/
  | usage
  /-- The help of a level is asked for. -/
  | help (level : Level)
  /-- The version is asked for. -/
  | version

/-- What has been read of a level. -/
structure Scan where
  /-- The options that were given, by name, with their values. -/
  given : List (String × String)
  /-- The arguments. -/
  arguments : List String
  /-- The option that still waits for its value. -/
  pending : Option Setting
  /-- Is everything that follows an argument? -/
  argumentsOnly : Bool

namespace Scan

def start : Scan := ⟨[], [], none, false⟩

def values (s : Scan) (name : String) : List String :=
  s.given.filterMap fun (given, value) => if given = name then some value else none

/-- The scan with a value for an option. -/
def give (s : Scan) (setting : Setting) (value : String) : Except Stop Scan :=
  if (!setting.repeatable && (s.given.any fun g => g.1 == setting.name)) || !setting.accepts value then
    .error .usage
  else .ok { s with given := s.given ++ [(setting.name, value)], pending := none }

/-- The scan with an argument, if the level takes one more. -/
def argue (s : Scan) (level : Level) (argument : String) : Except Stop Scan :=
  if level.argument.isSome && s.arguments.isEmpty then
    .ok { s with arguments := [argument] }
  else .error .usage

/-- The scan after an option given by its name, perhaps with a value. -/
def named (s : Scan) (level : Level) (name : String) (value : Option String) : Except Stop Scan :=
  match level.settings.find? fun setting => setting.name == name with
  | some setting =>
    match setting.value, value with
    | some _, some value => s.give setting value
    | some _, none => .ok { s with pending := some setting }
    | none, none => s.give setting ""
    | none, some _ => .error .usage
  | none =>
    if value.isSome then .error .usage
    else if name = "help" then .error (.help level)
    else if name = "version" ∧ level.commands ≠ [] then .error .version
    else .error .usage

/-- The scan after options given by their letters.  The letters after that of an option with a value are
its value. -/
def letters (s : Scan) (level : Level) : List Char → Except Stop Scan
  | [] => .ok s
  | c :: cs =>
    match level.settings.find? fun setting => setting.letter == some c with
    | some setting =>
      if setting.value.isSome then
        match cs with
        | [] => .ok { s with pending := some setting }
        | '=' :: value => s.give setting (String.ofList value)
        | value => s.give setting (String.ofList value)
      else
        match s.give setting "" with
        | .ok s => s.letters level cs
        | .error stop => .error stop
    | none =>
      if c = 'h' then .error (.help level)
      else if c = 'V' ∧ level.commands ≠ [] then .error .version
      else .error .usage

/-- The scan after one word of the command line that is no command. -/
def word (s : Scan) (level : Level) (text : String) : Except Stop Scan :=
  match text.toList with
  | ['-', '-'] => .ok { s with argumentsOnly := true }
  | '-' :: '-' :: option =>
    match Text.splitFirst '=' option with
    | some (name, value) => s.named level (String.ofList name) (some (String.ofList value))
    | none => s.named level (String.ofList option) none
  | '-' :: c :: cs => s.letters level (c :: cs)
  | _ => s.argue level text

def looksLikeOption (text : String) : Bool :=
  match text.toList with
  | '-' :: _ :: _ => true
  | _ => false

/-- Reads the words of a level up to the name of a command: what was read, and the command with the words
after it. -/
def read (level : Level) (s : Scan) : List String → Except Stop (Scan × Option (String × List String))
  | [] => if s.pending.isSome then .error .usage else .ok (s, none)
  | text :: rest =>
    match s.pending with
    | some setting =>
      if looksLikeOption text then .error .usage
      else
        match s.give setting text with
        | .ok s => read level s rest
        | .error stop => .error stop
    | none =>
      if s.argumentsOnly then
        match s.argue level text with
        | .ok s => read level s rest
        | .error stop => .error stop
      else if level.commands.any fun command => command.1 == text then .ok (s, some (text, rest))
      else
        match s.word level text with
        | .ok s => read level s rest
        | .error stop => .error stop

end Scan

/-! ## §3 Requests -/

/-- The general options as they were given. -/
structure General where
  config : Option String
  database : Option String
  schema : Option String
  logLevel : Option String
  deriving DecidableEq, Repr

/-- The options of a view as they were given. -/
structure ViewOptions where
  filter : Option String
  criteria : Option String
  columns : List String
  sort : List String
  deriving DecidableEq, Repr

/-- What the program is asked to do. -/
inductive Task where
  | parse (filter : String) (showTokens : Bool)
  | criteria (filter : String)
  | filter (criteria : String)
  | statement (view : ViewOptions)
  | query (view : ViewOptions) (asJson : Bool)
  | columns
  deriving DecidableEq, Repr

/-- What a command line asks for. -/
inductive Request where
  | run (general : General) (task : Task)
  | help (level : Level)
  | version
  /-- The command line is malformed. -/
  | usage

def splitCommas (text : String) : List String := (text.toList.splitOn ',').map String.ofList

/-- The options of a view, unless both a filter and criteria are given. -/
def viewOptions? (s : Scan) : Option ViewOptions :=
  let filter := (s.values "where").head?
  let criteria := (s.values "criteria").head?
  if filter.isSome && criteria.isSome then none
  else
    some ⟨filter, criteria, (s.values "columns").flatMap splitCommas,
      (s.values "sort").flatMap splitCommas⟩

def task? (command : String) (s : Scan) : Option Task :=
  match command, s.arguments with
  | "parse", [filter] => some (.parse filter (s.values "tokens" != []))
  | "criteria", [filter] => some (.criteria filter)
  | "where", [criteria] => some (.filter criteria)
  | "sql", [] => (viewOptions? s).map .statement
  | "query", [] => (viewOptions? s).map fun view => .query view (s.values "output" == ["json"])
  | "columns", [] => some .columns
  | _, _ => none

/-- The general options of both levels.  What is given after the command counts before what is given
ahead of it. -/
def generalOf (top own : Scan) : General :=
  let value (name : String) : Option String := ((own.values name).head?).or (top.values name).head?
  ⟨value "config", value "database", value "schema", value "log-level"⟩

namespace Request

/-- The request for the help of a command, or of the program. -/
def ofHelp : List String → Request
  | [] => .help topLevel
  | [command] =>
    match commands.find? fun c => c.1 == command with
    | some ("help", about) => .help (helpLevel about)
    | some (command, about) => .help (commandLevel command about)
    | none => .usage
  | _ => .usage

def ofStop : Stop → Request
  | .usage => .usage
  | .help level => .help level
  | .version => .version

def ofArguments (words : List String) : Request :=
  match Scan.start.read topLevel words with
  | .error stop => ofStop stop
  | .ok (_, none) => .usage
  | .ok (_, some ("help", rest)) => ofHelp rest
  | .ok (top, some (command, rest)) =>
    let about := ((commands.find? fun c => c.1 == command).map (·.2)).getD ""
    match Scan.start.read (commandLevel command about) rest with
    | .error stop => ofStop stop
    | .ok (own, _) =>
      match task? command own with
      | some task => .run (generalOf top own) task
      | none => .usage

end Request
end CatalogFilter.Command
