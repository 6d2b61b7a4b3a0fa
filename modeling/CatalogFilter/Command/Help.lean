import CatalogFilter.Command.Arguments

/-!
# Help

The help of a level of the command line: what it does, how it is written, and its commands, arguments and
options, each in a column that is as wide as its longest entry.
-/

namespace CatalogFilter.Command

def padded (width : Nat) (text : String) : String :=
  text ++ String.ofList (List.replicate (width - text.length) ' ')

/-- Rows of two columns under a title; nothing if there are no rows. -/
def titled (title : String) (rows : List (String × String)) : String :=
  if rows.isEmpty then ""
  else
    let width := (rows.map fun row => row.1.length).foldl max 0
    let lines := rows.map fun row => "  " ++ padded width row.1 ++ "  " ++ row.2 ++ "\n"
    "\n" ++ title ++ ":\n" ++ String.join lines

def Setting.shown (setting : Setting) : String :=
  let letter := (setting.letter.map fun c => "-" ++ String.singleton c ++ ", ").getD "    "
  letter ++ "--" ++ setting.name ++ (setting.value.map fun value => " <" ++ value ++ ">").getD ""

namespace Level

def usage (level : Level) : String :=
  "Usage: " ++ level.words ++ (if level.settings.isEmpty then "" else " [OPTIONS]") ++
    (if level.commands.isEmpty then "" else " <COMMAND>") ++
    (level.argument.map fun argument => " " ++ argument.shown).getD "" ++ "\n"

def commonRows (level : Level) : List (String × String) :=
  if level.settings.isEmpty then []
  else
    ("-h, --help", "Print help") ::
      (if level.commands.isEmpty then [] else [("-V, --version", "Print version")])

def help (level : Level) : String :=
  level.about ++ "\n\n" ++ level.usage ++
    titled "Commands" level.commands ++
    titled "Arguments" (level.argument.toList.map fun argument => (argument.shown, argument.help)) ++
    titled "Options" ((level.settings.map fun setting => (setting.shown, setting.help)) ++
      level.commonRows)

end Level
end CatalogFilter.Command
