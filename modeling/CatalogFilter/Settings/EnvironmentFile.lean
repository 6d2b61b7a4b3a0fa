import CatalogFilter.Text.Blank
import CatalogFilter.Text.Letter

/-!
# Environment files

A file may hold variables to be added to the environment, each written as `NAME=value`, perhaps after the
word `export`.  A value may be quoted: between single quotes everything stands for itself, between double
quotes a backslash escapes a character and `$NAME` and a name in braces after `$` stand for the value of a
variable, as they do outside of quotes.  A quoted value may go on over several lines.  A comment begins
with `#`, at the start of a line or after a blank.

**Main definition**: `addFile` adds the variables of a file to an environment.  The first malformed line
ends the reading, and a variable that is in the environment already is kept.
-/

namespace CatalogFilter.Settings

open Text

/-- Variables with their values. -/
abbrev Environment := List (String × String)

namespace EnvironmentFile

/-! ## §1 Lines -/

/-- How far an entry has been read at a character. -/
inductive Reach where
  | plain
  /-- Right after a blank, where a comment may begin. -/
  | blank
  | escape
  | single
  | singleEscape
  | double
  | doubleEscape
  deriving DecidableEq, Repr

/-- How far an entry has been read after one more character. -/
def Reach.next : Reach → Char → Reach
  | .escape, _ => .plain
  | .double, c => if c = '\\' then .doubleEscape else if c = '"' then .plain else .double
  | .doubleEscape, _ => .double
  | .single, c => if c = '\\' then .singleEscape else if c = '\'' then .plain else .single
  | .singleEscape, _ => .single
  | reach, c =>
    if reach = .plain ∧ isBlank c ∧ c ≠ '\n' ∧ c ≠ '\x0d' then .blank
    else if c = '\\' then .escape
    else if c = '"' then .double
    else if c = '\'' then .single
    else .plain

/-- How far an entry has been read after a line, or the place in the line where a comment begins. -/
def Reach.scan : Reach → Nat → List Char → Except Nat Reach
  | reach, _, [] => .ok reach
  | reach, place, c :: cs =>
    if reach = .blank ∧ c = '#' then .error place else (reach.next c).scan (place + 1) cs

def splitLines : List Char → List (List Char)
  | [] => []
  | c :: cs =>
    match c, splitLines cs with
    | '\n', lines => ['\n'] :: lines
    | c, [] => [[c]]
    | c, line :: lines => (c :: line) :: lines

def dropLineEnd (line : List Char) : List Char :=
  match line.reverse with
  | '\n' :: '\x0d' :: rest => rest.reverse
  | '\n' :: rest => rest.reverse
  | _ => line

/-- The entries that lines make up, some of which go on over several lines.  `begun` is what has been read
of an entry.  An entry that does not end before the text does is none. -/
def joinLines (begun : List Char) (reach : Reach) : List (List Char) → List (Option (List Char))
  | [] => if reach = .plain then [] else [none]
  | line :: lines =>
    let entry := begun ++ line
    if (skipBlank entry).head? = some '#' then joinLines [] .plain lines
    else
      match reach.scan 0 line with
      | .error place => some (entry.take place) :: joinLines [] .plain lines
      | .ok .plain => some (dropLineEnd entry) :: joinLines [] .plain lines
      | .ok reach => joinLines entry reach lines

/-! ## §2 Values -/

/-- What the next character of a value is part of. -/
inductive Mode where
  | plain
  /-- A text between single quotes. -/
  | single
  | escape
  /-- The name of a variable. -/
  | name (name : List Char)
  /-- The name of a variable in braces. -/
  | braced (name : List Char)
  /-- The blanks between a value and a comment. -/
  | after
  deriving DecidableEq, Repr

def valueOf (environment : Environment) (name : List Char) : List Char :=
  ((environment.lookup (String.ofList name)).getD "").toList

/-- The value at its end: what has been read, unless a quote or a brace is not closed. -/
def finish (environment : Environment) (quoted : Bool) (mode : Mode) (read : List Char) :
    Option (List Char) :=
  match quoted, mode with
  | true, _ | _, .single | _, .braced _ => none
  | false, .name name => some (read ++ valueOf environment name)
  | false, _ => some read

/-- Reads a value.  `quoted` tells whether it is inside double quotes.  Right after the name of a variable
every character but `$` stands for itself. -/
def readValue (environment : Environment) :
    Bool → Mode → List Char → List Char → Option (List Char)
  | quoted, mode, read, [] => finish environment quoted mode read
  | quoted, mode, read, c :: cs =>
    match mode with
    | .after =>
      if c = ' ' ∨ c = '\t' then readValue environment quoted .after read cs
      else if c = '#' then some read
      else none
    | .escape =>
      if c ∈ ['\\', '\'', '"', '$', ' '] then readValue environment quoted .plain (read ++ [c]) cs
      else if c = 'n' then readValue environment quoted .plain (read ++ ['\n']) cs
      else none
    | .single =>
      if c = '\'' then readValue environment quoted .plain read cs
      else readValue environment quoted .single (read ++ [c]) cs
    | .name name =>
      if isAlphanumeric c then readValue environment quoted (.name (name ++ [c])) read cs
      else if c = '\x7b' ∧ name = [] then readValue environment quoted (.braced []) read cs
      else
        let read := read ++ valueOf environment name
        if c = '$' then readValue environment quoted (.name []) read cs
        else readValue environment quoted .plain (read ++ [c]) cs
    | .braced name =>
      if c = '\x7d' then readValue environment quoted .plain (read ++ valueOf environment name) cs
      else readValue environment quoted (.braced (name ++ [c])) read cs
    | .plain =>
      if c = '$' then readValue environment quoted (.name []) read cs
      else if c = '\\' then readValue environment quoted .escape read cs
      else if c = '"' then readValue environment (!quoted) .plain read cs
      else if quoted then readValue environment quoted .plain (read ++ [c]) cs
      else if c = '\'' then readValue environment quoted .single read cs
      else if c = ' ' ∨ c = '\t' then readValue environment quoted .after read cs
      else readValue environment quoted .plain (read ++ [c]) cs

/-! ## §3 Entries -/

/-- The name of a variable at the front of a text, and the text after it. -/
def readName : List Char → Option (List Char × List Char)
  | [] => none
  | c :: cs =>
    let isNameChar (c : Char) : Bool := c.isAlphanum || c == '_' || c == '.'
    if c.isAlpha || c == '_' then some ((c :: cs).takeWhile isNameChar, (c :: cs).dropWhile isNameChar)
    else none

/-- The text after an equals sign with blanks around it. -/
def afterEquals? (cs : List Char) : Option (List Char) :=
  match skipBlank cs with
  | '=' :: cs => some (skipBlank cs)
  | _ => none

/-- The name and the text of the value of an entry.  The word `export` may stand before the name, and may be
a name itself. -/
def splitEntry (cs : List Char) : Option (List Char × List Char) := do
  let (name, rest) ← readName cs
  match afterEquals? rest with
  | some value => pure (name, value)
  | none =>
    if name = "export".toList then do
      let (name, rest) ← readName (skipBlank rest)
      let value ← afterEquals? rest
      pure (name, value)
    else none

/-- The variable of an entry, if it has one.  A malformed entry is none. -/
def readEntry (environment : Environment) (entry : List Char) : Option (Option (String × String)) :=
  match trim entry with
  | [] => some none
  | '#' :: _ => some none
  | cs => do
    let (name, value) ← splitEntry cs
    let value ← if value.head? = some '#' then some [] else readValue environment false .plain [] value
    pure (some (String.ofList name, String.ofList value))

/-- The environment with a variable, unless it has one of that name. -/
def addVariable (environment : Environment) (name value : String) : Environment :=
  if (environment.lookup name).isSome then environment else environment ++ [(name, value)]

/-- The environment with the variables of entries, up to the first malformed one. -/
def addEntries (environment : Environment) : List (Option (List Char)) → Environment
  | [] | none :: _ => environment
  | some entry :: entries =>
    match readEntry environment entry with
    | some (some (name, value)) => addEntries (addVariable environment name value) entries
    | some none => addEntries environment entries
    | none => environment

def addFile (environment : Environment) (text : String) : Environment :=
  let cs :=
    match text.toList with
    | '\ufeff' :: cs => cs
    | cs => cs
  addEntries environment (joinLines [] .plain (splitLines cs))

end EnvironmentFile
end CatalogFilter.Settings
