import CatalogFilter.Command.Run

/-!
# The program

Reads the files and environment variables that a run needs, runs it, prints what it prints, and reports
its fault.
-/

namespace CatalogFilter

open Command

def readFile? (path : String) : IO (Option String) := do
  try
    let text ← IO.FS.readFile path
    pure (some text)
  catch _ => pure none

/-- The names of the environment variables that are looked at. -/
def variableNames : List String :=
  ["ARCADEX_DATABASE", "ARCADEX_SCHEMA", "ARCADEX_COLUMNS", "ARCADEX_SORT", "ARCADEX_LOGGING__LEVEL",
   "ARCADEX_LOGGING__JSON"]

def readVariables : IO (List (String × String)) := do
  let found ← variableNames.mapM fun name => do
    let value ← IO.getEnv name
    pure (value.map fun value => (name, value))
  pure (found.filterMap id)

def readFiles (paths : List String) : IO (List (String × String)) := do
  let found ← paths.mapM fun path => do
    let text ← readFile? path
    pure (text.map fun text => (path, text))
  pure (found.filterMap id)

/-- The surroundings with the given files and variables. -/
def surroundings (files values : List (String × String)) : Surroundings :=
  ⟨fun path => files.lookup path, values⟩

end CatalogFilter

open CatalogFilter Command in
/-- Runs the program on its arguments.  The configuration settles which schema is read, so files are
looked for twice. -/
def main (words : List String) : IO UInt32 := do
  let settings ← readVariables
  let first ← readFiles (filesNeeded (surroundings [] settings) words)
  let files ← readFiles (filesNeeded (surroundings first settings) words)
  let outcome := run (surroundings files settings) words
  IO.print outcome.output
  match outcome.message? with
  | some message => IO.eprintln message
  | none => if outcome.code = 2 then IO.eprintln "error: malformed command line; try --help"
  pure outcome.code.toUInt32
