import CatalogFilter.Json.Basic

/-!
# Writing JSON

Values are written compactly, or over several lines with two blanks for each level of nesting.  In strings
only quotes, backslashes and control characters are escaped, the latter by the shortest escape.
-/

namespace CatalogFilter.Json

/-! ## §1 Strings and numbers -/

/-- The hexadecimal digit of a number below 16, its letters small. -/
def hexDigit (n : Nat) : Char := if n < 10 then Char.ofNat (48 + n) else Char.ofNat (87 + n)

def escapeChar (c : Char) : List Char :=
  if c = '"' then ['\\', '"']
  else if c = '\\' then ['\\', '\\']
  else if c = '\x08' then ['\\', 'b']
  else if c = '\x0c' then ['\\', 'f']
  else if c = '\n' then ['\\', 'n']
  else if c = '\x0d' then ['\\', 'r']
  else if c = '\t' then ['\\', 't']
  else if c.toNat < 0x20 then ['\\', 'u', '0', '0', hexDigit (c.toNat / 16), hexDigit (c.toNat % 16)]
  else [c]

def writeString (cs : List Char) : List Char := '"' :: (cs.flatMap escapeChar ++ ['"'])

def writeInteger (n : Int) : List Char := (toString n).toList

/-! ## §2 Compact form -/

mutual

/-- A value without any blanks. -/
def write : Json → List Char
  | .null | .unreadable => "null".toList
  | .bool true => "true".toList
  | .bool false => "false".toList
  | .integer n => writeInteger n
  | .decimal m e => writeInteger m ++ 'e' :: writeInteger e
  | .string text => writeString text.toList
  | .array items => '[' :: ([','].intercalate (writeItems items) ++ [']'])
  | .object members => '\x7b' :: ([','].intercalate (writeMembers members) ++ ['\x7d'])

def writeItems : List Json → List (List Char)
  | [] => []
  | item :: items => write item :: writeItems items

def writeMembers : List (String × Json) → List (List Char)
  | [] => []
  | (key, value) :: members =>
    (writeString key.toList ++ ':' :: write value) :: writeMembers members

end

def compact (value : Json) : String := String.ofList value.write

/-! ## §3 Form over several lines -/

def indent (level : Nat) : List Char := List.replicate (2 * level) ' '

/-- The parts of an array or object between its brackets, each on a line of its own. -/
def block (level : Nat) (opening closing : Char) (parts : List (List Char)) : List Char :=
  if parts.isEmpty then [opening, closing]
  else
    opening :: '\n' ::
      ([',', '\n'].intercalate (parts.map fun part => indent (level + 1) ++ part) ++
        '\n' :: (indent level ++ [closing]))

mutual

/-- A value whose first line has been indented already. -/
def writeLines (level : Nat) : Json → List Char
  | .array items => block level '[' ']' (itemLines (level + 1) items)
  | .object members => block level '\x7b' '\x7d' (memberLines (level + 1) members)
  | .null => write .null
  | .unreadable => write .unreadable
  | .bool value => write (.bool value)
  | .integer n => write (.integer n)
  | .decimal m e => write (.decimal m e)
  | .string text => write (.string text)

def itemLines (level : Nat) : List Json → List (List Char)
  | [] => []
  | item :: items => writeLines level item :: itemLines level items

def memberLines (level : Nat) : List (String × Json) → List (List Char)
  | [] => []
  | (key, value) :: members =>
    (writeString key.toList ++ ':' :: ' ' :: writeLines level value) :: memberLines level members

end

/-- The form of a value over several lines. -/
def pretty (value : Json) : String := String.ofList (value.writeLines 0)

end CatalogFilter.Json
