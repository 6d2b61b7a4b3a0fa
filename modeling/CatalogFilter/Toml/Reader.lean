import CatalogFilter.Decimal.Reader
import CatalogFilter.Json.Reader
import CatalogFilter.Text.Numeral
import CatalogFilter.Toml.Document
import CatalogFilter.Toml.Moment

/-!
# Reading TOML

A reader of TOML documents, line by line over the characters that are left.  Each function answers what
it read together with the rest of the text, or nothing if the text is malformed.
-/

namespace CatalogFilter.Toml

open Text

/-! ## §1 Blanks and line ends -/

def skipBlanks (cs : List Char) : List Char := cs.dropWhile fun c => c == ' ' || c == '\t'

def isPlain (c : Char) : Bool := c == '\t' || (0x20 ≤ c.toNat && c.toNat ≠ 0x7F)

/-- The text after a line end, if one stands at its front. -/
def lineEnd? : List Char → Option (List Char)
  | '\n' :: cs => some cs
  | '\x0d' :: '\n' :: cs => some cs
  | _ => none

/-- The text after blanks and a comment, if one is written. -/
def skipComment (cs : List Char) : List Char :=
  match skipBlanks cs with
  | '#' :: cs => cs.dropWhile isPlain
  | cs => cs

/-- The text after the end of a line: blanks, perhaps a comment, and a line end or the end of the
text. -/
def finishLine (cs : List Char) : Option (List Char) :=
  match skipComment cs with
  | [] => some []
  | cs => lineEnd? cs

/-- The text after blanks, comments and line ends, of which there may be so many. -/
def skipLines : Nat → List Char → List Char
  | 0, cs => cs
  | bound + 1, cs =>
    match lineEnd? (skipComment cs) with
    | some rest => skipLines bound rest
    | none => skipComment cs

/-- The text after blanks and line ends, of which there may be so many. -/
def skipBlankLines : Nat → List Char → List Char
  | 0, cs => cs
  | bound + 1, cs =>
    match lineEnd? (skipBlanks cs) with
    | some rest => skipBlankLines bound rest
    | none => skipBlanks cs

/-! ## §2 Strings -/

def hexChar? (digits : List Char) : Option Char := do
  let values ← digits.mapM Json.hexDigit?
  let code := values.foldl (fun n d => 16 * n + d) 0
  if code < 0xD800 ∨ (0xE000 ≤ code ∧ code < 0x110000) then some (Char.ofNat code) else none

/-- The character that an escape stands for, read after its backslash. -/
def readEscape : List Char → Option (Char × List Char)
  | 'b' :: cs => some ('\x08', cs)
  | 't' :: cs => some ('\t', cs)
  | 'n' :: cs => some ('\n', cs)
  | 'f' :: cs => some ('\x0c', cs)
  | 'r' :: cs => some ('\x0d', cs)
  | '"' :: cs => some ('"', cs)
  | '\\' :: cs => some ('\\', cs)
  | 'u' :: cs => if cs.length < 4 then none else (hexChar? (cs.take 4)).map fun c => (c, cs.drop 4)
  | 'U' :: cs => if cs.length < 8 then none else (hexChar? (cs.take 8)).map fun c => (c, cs.drop 8)
  | _ => none

/-- A string on one line, read after its opening quote.  Each character takes a step. -/
def readString : Nat → List Char → Option (List Char × List Char)
  | 0, _ => none
  | _ + 1, '"' :: cs => some ([], cs)
  | bound + 1, '\\' :: cs => do
    let (c, rest) ← readEscape cs
    let (text, rest) ← readString bound rest
    pure (c :: text, rest)
  | bound + 1, c :: cs =>
    if isPlain c then (readString bound cs).map fun (text, rest) => (c :: text, rest) else none
  | _ + 1, [] => none

/-- A string on one line without escapes, read after its opening quote. -/
def readRaw : List Char → Option (List Char × List Char)
  | [] => none
  | c :: cs =>
    if c = '\'' then some ([], cs)
    else if isPlain c then (readRaw cs).map fun (text, rest) => (c :: text, rest)
    else none

/-- The end of a string over several lines: three delimiters, before which two more may stand as part of
the string. -/
def closing? (delimiter : Char) (cs : List Char) : Option (List Char × List Char) :=
  let run := cs.takeWhile (· == delimiter)
  if run.length < 3 then none
  else
    let extra := min (run.length - 3) 2
    some (List.replicate extra delimiter, cs.drop (extra + 3))

/-- A string over several lines, read after its opening delimiters.  With escapes, a backslash at the end
of a line takes the blanks and line ends that follow it. -/
def readLines (delimiter : Char) (escapes : Bool) : Nat → List Char → Option (List Char × List Char)
  | 0, _ => none
  | bound + 1, cs =>
    match closing? delimiter cs with
    | some closed => some closed
    | none =>
      match cs with
      | [] => none
      | c :: cs =>
        if escapes && c == '\\' then
          match lineEnd? (skipBlanks cs) with
          | some rest => readLines delimiter escapes bound (skipBlankLines (rest.length + 1) rest)
          | none => do
            let (c, rest) ← readEscape cs
            let (text, rest) ← readLines delimiter escapes bound rest
            pure (c :: text, rest)
        else
          match lineEnd? (c :: cs) with
          | some rest =>
            (readLines delimiter escapes bound rest).map fun (text, rest) => ('\n' :: text, rest)
          | none =>
            if isPlain c then
              (readLines delimiter escapes bound cs).map fun (text, rest) => (c :: text, rest)
            else none

/-- The text of a string over several lines, without a line end right after its opening delimiters. -/
def dropFirstLineEnd (cs : List Char) : List Char := (lineEnd? cs).getD cs

/-! ## §3 Keys -/

def isBareKey (c : Char) : Bool := c.isAlphanum || c == '_' || c == '-'

def readKey : List Char → Option (String × List Char)
  | '"' :: cs => (readString (cs.length + 1) cs).map fun (key, rest) => (String.ofList key, rest)
  | '\'' :: cs => (readRaw cs).map fun (key, rest) => (String.ofList key, rest)
  | cs =>
    let key := cs.takeWhile isBareKey
    if key.isEmpty then none else some (String.ofList key, cs.dropWhile isBareKey)

/-- The most parts that a key may have, and the most arrays and tables on one line that may stand inside
each other. -/
def maxLevels : Nat := 79

def readPath : Nat → List Char → Option (List String × List Char)
  | 0, _ => none
  | bound + 1, cs => do
    let (key, rest) ← readKey (skipBlanks cs)
    match skipBlanks rest with
    | '.' :: rest =>
      let (keys, rest) ← readPath bound rest
      pure (key :: keys, rest)
    | rest => pure ([key], rest)

/-! ## §4 Words -/

/-- The digits of a number without the underscores between them, if each stands between two digits. -/
def plainDigits? (isDigit : Char → Bool) : List Char → Option (List Char)
  | [] => none
  | [c] => if isDigit c then some [c] else none
  | c :: '_' :: d :: cs =>
    if isDigit c && isDigit d then (plainDigits? isDigit (d :: cs)).map (c :: ·) else none
  | c :: cs => if isDigit c then (plainDigits? isDigit cs).map (c :: ·) else none

def inRange (n : Int) : Option Toml := if Text.fitsWord n then some (.integer n) else none

/-- An integer in a base other than ten, read after its mark. -/
def based? (base : Nat) (cs : List Char) : Option Toml := do
  let isDigit (c : Char) : Bool := (Json.hexDigit? c).any (· < base)
  let digits ← plainDigits? isDigit cs
  let value := digits.foldl (fun n c => base * n + (Json.hexDigit? c).getD 0) 0
  inRange value

/-- The digits of a whole number, which do not begin with a zero unless that is all. -/
def whole? (cs : List Char) : Option (List Char) :=
  match plainDigits? Char.isDigit cs with
  | some ('0' :: _ :: _) => none
  | digits => digits

/-- A floating point number without its sign: a whole number with a fraction, an exponent, or both. -/
def float? (cs : List Char) : Option (List Char) := do
  let isMark (c : Char) : Bool := c == 'e' || c == 'E'
  let mantissa := cs.takeWhile fun c => !isMark c
  let exponent ← match cs.dropWhile fun c => !isMark c with
    | [] => some []
    | _ :: exponent =>
      let sign := if exponent.head? = some '-' then ['-'] else []
      (plainDigits? Char.isDigit (dropSign exponent)).map fun digits => 'e' :: sign ++ digits
  match splitFirstPoint mantissa with
  | (whole, none) => do
    let whole ← whole? whole
    if exponent.isEmpty then none else pure (whole ++ exponent)
  | (whole, some fraction) => do
    let whole ← whole? whole
    let fraction ← plainDigits? Char.isDigit fraction
    pure (whole ++ '.' :: fraction ++ exponent)
where
  -- the parts of a mantissa before and after its point
  splitFirstPoint (cs : List Char) : List Char × Option (List Char) :=
    match cs.dropWhile (· != '.') with
    | [] => (cs, none)
    | _ :: fraction => (cs.takeWhile (· != '.'), some fraction)

/-- The value of a word that is neither a string nor a bracket. -/
def word? (cs : List Char) : Option Toml :=
  let magnitude := dropSign cs
  let negative := cs.head? = some '-'
  match String.ofList cs with
  | "true" => some (.boolean true)
  | "false" => some (.boolean false)
  | _ =>
    match cs with
    | '0' :: 'x' :: digits => based? 16 digits
    | '0' :: 'o' :: digits => based? 8 digits
    | '0' :: 'b' :: digits => based? 2 digits
    | _ =>
      match whole? magnitude with
      | some digits =>
        inRange (if negative then -(digitsValue digits : Int) else digitsValue digits)
      | none =>
        let sign := if negative then ['-'] else []
        let number :=
          match String.ofList magnitude with
          | "inf" | "nan" => some magnitude
          | _ => float? magnitude
        match number.bind fun number => (Decimal.double? (sign ++ number)).map fun x => (number, x) with
        | some (number, value) =>
          if number != "inf".toList && value == 1.0 / 0.0 then none else some (.float value.toBits)
        | none => (moment? cs).map fun text => .moment (String.ofList text)

def isWordChar (c : Char) : Bool := isBareKey c || c == '+' || c == '.' || c == ':'

/-- A word at the front of a text.  A date and a time may stand with a blank between them. -/
def readWord (cs : List Char) : Option (Toml × List Char) :=
  let word := cs.takeWhile isWordChar
  let rest := cs.dropWhile isWordChar
  match rest with
  | ' ' :: d :: more =>
    if isDate word && d.isDigit then
      (word? (word ++ ' ' :: (d :: more).takeWhile isWordChar)).map fun value =>
        (value, (d :: more).dropWhile isWordChar)
    else (word? word).map fun value => (value, rest)
  | _ => (word? word).map fun value => (value, rest)

/-! ## §5 Values -/

def ofString (read : List Char × List Char) : Toml × List Char :=
  (.string (String.ofList read.1), read.2)

mutual

/-- A value at the front of a text, with so many levels of arrays and tables inside each other.  Every level
of nesting and every item takes a character, so the length of the text bounds the recursion. -/
def readValue : Nat → Nat → List Char → Option (Toml × List Char)
  | 0, _, _ => none
  | bound + 1, levels, cs =>
    match levels, cs with
    | _, '"' :: '"' :: '"' :: rest =>
      (readLines '"' true (rest.length + 1) (dropFirstLineEnd rest)).map ofString
    | _, '\'' :: '\'' :: '\'' :: rest =>
      (readLines '\'' false (rest.length + 1) (dropFirstLineEnd rest)).map ofString
    | _, '"' :: rest => (readString (rest.length + 1) rest).map ofString
    | _, '\'' :: rest => (readRaw rest).map ofString
    | 0, '[' :: _ => none
    | levels + 1, '[' :: rest =>
      (readItems bound levels rest).map fun (items, rest) => (.array items, rest)
    | 0, '\x7b' :: _ => none
    | levels + 1, '\x7b' :: rest =>
      match skipBlanks rest with
      | '\x7d' :: rest => some (.table [], rest)
      | rest => (readEntries bound levels [] rest).map fun (slots, rest) => (.table (finishAll slots), rest)
    | _, cs => readWord cs

/-- The items of an array up to its closing bracket.  Line ends may stand between them, and a comma after
the last. -/
def readItems : Nat → Nat → List Char → Option (List Toml × List Char)
  | 0, _, _ => none
  | bound + 1, levels, cs =>
    match skipLines (cs.length + 1) cs with
    | ']' :: rest => some ([], rest)
    | cs => do
      let (item, rest) ← readValue bound levels cs
      match skipLines (rest.length + 1) rest with
      | ']' :: rest => pure ([item], rest)
      | ',' :: rest =>
        let (items, rest) ← readItems bound levels rest
        pure (item :: items, rest)
      | _ => none

/-- The entries of a table on one line up to its closing brace, at least one. -/
def readEntries : Nat → Nat → Slots → List Char → Option (Slots × List Char)
  | 0, _, _, _ => none
  | bound + 1, levels, slots, cs => do
    let (keys, rest) ← readPath maxLevels cs
    match rest with
    | '=' :: rest =>
      let (value, rest) ← readValue bound levels (skipBlanks rest)
      let slots ← slots.put? keys value
      match skipBlanks rest with
      | '\x7d' :: rest => pure (slots, rest)
      | ',' :: rest => readEntries bound levels slots rest
      | _ => none
    | _ => none

end

/-! ## §6 Documents -/

namespace Document

/-- The document after a line with a key and a value, and the text after it. -/
def readEntry (d : Document) (cs : List Char) : Option (Document × List Char) := do
  let (keys, rest) ← readPath maxLevels cs
  match rest with
  | '=' :: rest =>
    let (value, rest) ← readValue (2 * rest.length + 1) maxLevels (skipBlanks rest)
    let rest ← finishLine rest
    let d ← d.put? keys value
    pure (d, rest)
  | _ => none

/-- The document after the header of a table, read after its opening bracket. -/
def readHeader (d : Document) (cs : List Char) : Option (Document × List Char) := do
  let (path, rest) ← readPath maxLevels cs
  match rest with
  | ']' :: rest =>
    let rest ← finishLine rest
    let d ← d.openTable? path
    pure (d, rest)
  | _ => none

/-- The document after the header of a further table in an array of tables, read after its opening
brackets. -/
def readItemHeader (d : Document) (cs : List Char) : Option (Document × List Char) := do
  let (path, rest) ← readPath maxLevels cs
  match rest with
  | ']' :: ']' :: rest =>
    let rest ← finishLine rest
    let d ← d.openItem? path
    pure (d, rest)
  | _ => none

/-- The document after all lines of a text, of which there may be so many. -/
def readAll : Nat → Document → List Char → Option Document
  | 0, _, _ => none
  | bound + 1, d, cs =>
    match skipLines (cs.length + 1) cs with
    | [] => some d
    | '[' :: '[' :: rest => do
      let (d, rest) ← d.readItemHeader rest
      readAll bound d rest
    | '[' :: rest => do
      let (d, rest) ← d.readHeader rest
      readAll bound d rest
    | rest => do
      let (d, rest) ← d.readEntry rest
      readAll bound d rest

end Document

def dropMark : List Char → List Char
  | '\ufeff' :: cs => cs
  | cs => cs

def parse? (text : String) : Option (List (String × Toml)) :=
  let cs := dropMark text.toList
  (Document.start.readAll (cs.length + 1) cs).map Document.entries

end CatalogFilter.Toml
