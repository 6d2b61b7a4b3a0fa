import CatalogFilter.Json.Basic
import CatalogFilter.Text.Numeral

/-!
# Reading JSON

A reader of JSON texts over the characters that are left: each function answers what it read together
with the rest of the text, or nothing.  Its grammar is strict: no leading zeros, no
control characters in strings, no text after the value.  Strings are read as code units first and made
characters afterwards, so that a pair of escaped surrogates is one character.
-/

namespace CatalogFilter.Json

open Text

def isSpace (c : Char) : Bool := c == ' ' || c == '\t' || c == '\n' || c == '\x0d'

def skipSpace (cs : List Char) : List Char := cs.dropWhile isSpace

/-! ## §1 Strings -/

def hexDigit? (c : Char) : Option Nat :=
  if '0' ≤ c ∧ c ≤ '9' then some (c.toNat - '0'.toNat)
  else if 'a' ≤ c ∧ c ≤ 'f' then some (c.toNat - 'a'.toNat + 10)
  else if 'A' ≤ c ∧ c ≤ 'F' then some (c.toNat - 'A'.toNat + 10)
  else none

def hexUnit? (a b c d : Char) : Option Nat := do
  let a ← hexDigit? a
  let b ← hexDigit? b
  let c ← hexDigit? c
  let d ← hexDigit? d
  pure (((a * 16 + b) * 16 + c) * 16 + d)

/-- The character that a backslash and a letter stand for. -/
def shortEscape? : Char → Option Char
  | '"' => some '"'
  | '\\' => some '\\'
  | '/' => some '/'
  | 'b' => some '\x08'
  | 'f' => some '\x0c'
  | 'n' => some '\n'
  | 'r' => some '\x0d'
  | 't' => some '\t'
  | _ => none

/-- The code units of a string, read after its opening quote.  A code unit is a code point or an escaped
surrogate. -/
def readUnits : List Char → Option (List Nat × List Char)
  | [] => none
  | '"' :: cs => some ([], cs)
  | '\\' :: 'u' :: a :: b :: c :: d :: cs => do
    let unit ← hexUnit? a b c d
    let (units, rest) ← readUnits cs
    pure (unit :: units, rest)
  | '\\' :: c :: cs => do
    let c ← shortEscape? c
    let (units, rest) ← readUnits cs
    pure (c.toNat :: units, rest)
  | c :: cs =>
    if c.toNat < 0x20 then none
    else do
      let (units, rest) ← readUnits cs
      pure (c.toNat :: units, rest)

def isLead (unit : Nat) : Bool := 0xD800 ≤ unit && unit < 0xDC00

def isTrail (unit : Nat) : Bool := 0xDC00 ≤ unit && unit < 0xE000

/-- The characters of code units, unless a surrogate has no partner. -/
def joinUnits : List Nat → Option (List Char)
  | [] => some []
  | [unit] => if isLead unit || isTrail unit then none else some [Char.ofNat unit]
  | lead :: trail :: units =>
    if isLead lead then
      if isTrail trail then
        (joinUnits units).map
          (Char.ofNat (0x10000 + (lead - 0xD800) * 0x400 + (trail - 0xDC00)) :: ·)
      else none
    else if isTrail lead then none
    else (joinUnits (trail :: units)).map (Char.ofNat lead :: ·)

/-- The text of a string, read after its opening quote; no text if a surrogate has no partner. -/
def readString (cs : List Char) : Option (Option String × List Char) :=
  (readUnits cs).map fun (units, rest) => ((joinUnits units).map String.ofList, rest)

/-! ## §2 Numbers -/

def readDigits (cs : List Char) : Option (List Char × List Char) :=
  match cs.span Char.isDigit with
  | ([], _) => none
  | (digits, rest) => some (digits, rest)

/-- The integer part of a number: a single zero, or digits that do not begin with one. -/
def readWhole (cs : List Char) : Option (List Char × List Char) :=
  match readDigits cs with
  | some ('0' :: _ :: _, _) => none
  | read => read

def readFraction : List Char → Option (Option (List Char) × List Char)
  | '.' :: cs => (readDigits cs).map fun (digits, rest) => (some digits, rest)
  | cs => some (none, cs)

def readSigned : List Char → Option (Int × List Char)
  | '-' :: cs => (readDigits cs).map fun (digits, rest) => (-(digitsValue digits : Int), rest)
  | '+' :: cs => (readDigits cs).map fun (digits, rest) => ((digitsValue digits : Int), rest)
  | cs => (readDigits cs).map fun (digits, rest) => ((digitsValue digits : Int), rest)

def readExponent : List Char → Option (Option Int × List Char)
  | 'e' :: cs => (readSigned cs).map fun (n, rest) => (some n, rest)
  | 'E' :: cs => (readSigned cs).map fun (n, rest) => (some n, rest)
  | cs => some (none, cs)

/-- The number with the given sign, digits before and after the point, and exponent. -/
def number (negative : Bool) (whole : List Char) (fraction : Option (List Char))
    (exponent : Option Int) : Json :=
  let signed (n : Nat) : Int := if negative then -(n : Int) else n
  match fraction, exponent with
  | none, none =>
    if negative && digitsValue whole == 0 then .decimal 0 0 else .integer (signed (digitsValue whole))
  | fraction, exponent =>
    let digits := fraction.getD []
    .decimal (signed (digitsValue (whole ++ digits))) (exponent.getD 0 - digits.length)

def readUnsigned (negative : Bool) (cs : List Char) : Option (Json × List Char) := do
  let (whole, rest) ← readWhole cs
  let (fraction, rest) ← readFraction rest
  let (exponent, rest) ← readExponent rest
  pure (number negative whole fraction exponent, rest)

def readNumber : List Char → Option (Json × List Char)
  | '-' :: cs => readUnsigned true cs
  | cs => readUnsigned false cs

/-! ## §3 Values -/

def ofMembers (members : List (Option String × Json)) : Json :=
  match members.mapM fun (key, value) => key.map fun key => (key, value) with
  | some members => .object members
  | none => .unreadable

mutual

/-- A value at the front of a text.  Each level of nesting and each item takes a character, so the length
of the text bounds the depth of the recursion. -/
def readValue : Nat → List Char → Option (Json × List Char)
  | 0, _ => none
  | bound + 1, cs =>
    match skipSpace cs with
    | 'n' :: 'u' :: 'l' :: 'l' :: rest => some (.null, rest)
    | 't' :: 'r' :: 'u' :: 'e' :: rest => some (.bool true, rest)
    | 'f' :: 'a' :: 'l' :: 's' :: 'e' :: rest => some (.bool false, rest)
    | '"' :: rest =>
      (readString rest).map fun (text, rest) => ((text.map Json.string).getD .unreadable, rest)
    | '[' :: rest =>
      match skipSpace rest with
      | ']' :: rest => some (.array [], rest)
      | rest => (readItems bound rest).map fun (items, rest) => (.array items, rest)
    | '\x7b' :: rest =>
      match skipSpace rest with
      | '\x7d' :: rest => some (.object [], rest)
      | rest => (readMembers bound rest).map fun (members, rest) => (ofMembers members, rest)
    | rest => readNumber rest

/-- The items of an array up to its closing bracket, at least one. -/
def readItems : Nat → List Char → Option (List Json × List Char)
  | 0, _ => none
  | bound + 1, cs => do
    let (item, rest) ← readValue bound cs
    match skipSpace rest with
    | ']' :: rest => pure ([item], rest)
    | ',' :: rest =>
      let (items, rest) ← readItems bound rest
      pure (item :: items, rest)
    | _ => none

/-- The members of an object up to its closing brace, at least one. -/
def readMembers : Nat → List Char → Option (List (Option String × Json) × List Char)
  | 0, _ => none
  | bound + 1, cs =>
    match skipSpace cs with
    | '"' :: rest => do
      let (key, rest) ← readString rest
      match skipSpace rest with
      | ':' :: rest =>
        let (value, rest) ← readValue bound rest
        match skipSpace rest with
        | '\x7d' :: rest => pure ([(key, value)], rest)
        | ',' :: rest =>
          let (members, rest) ← readMembers bound rest
          pure ((key, value) :: members, rest)
        | _ => none
      | _ => none
    | _ => none

end

def parse? (cs : List Char) : Option Json :=
  match readValue (2 * cs.length + 1) cs with
  | some (value, rest) => if (skipSpace rest).isEmpty then some value else none
  | none => none

def ofText? (text : String) : Option Json := parse? text.toList

end CatalogFilter.Json
