import CatalogFilter.Text.Blank
import CatalogFilter.Text.Letter
import CatalogFilter.Text.Numeral
import CatalogFilter.Text.Quoted
import CatalogFilter.Token.Basic

/-!
# Reading tokens

The reader works on the characters that are still to be read.  Reading is lenient: text that is neither
a keyword nor a quoted literal nor a name becomes a bare literal, and the only faults are delimiters
that are opened and never closed.  Each reader answers what it read together with the rest of the text.

Names may be written in parts joined by points, each part plain or quoted in one of three styles:
`"…"`, `` `…` `` and `[…]`.  The name that is read is the parts without their quotes, joined by points.
-/

namespace CatalogFilter

open Text

/-- What is opened and never closed. -/
inductive Unclosed where
  | stringLiteral
  | regexLiteral
  | quotedIdentifier
  | bracketedIdentifier
  deriving DecidableEq, Repr, Inhabited

def Unclosed.message : Unclosed → String
  | .stringLiteral => "Unterminated string literal"
  | .regexLiteral => "Unterminated regex literal"
  | .quotedIdentifier => "Unterminated quoted identifier"
  | .bracketedIdentifier => "Unterminated bracketed identifier"

namespace Lexer

/-- What was read, or what was never closed, and the text that is left. -/
abbrev Reading (α : Type) := Except Unclosed α × List Char

/-! ## §1 Classes of characters and words -/

/-- The characters of which comparison symbols are made. -/
def isSymbolChar (c : Char) : Bool := c == '=' || c == '<' || c == '>' || c == '!'

def opensName (c : Char) : Bool := c == '"' || c == '\x60' || c == '['

/-- The characters before which a word ends. -/
def isWordBreak (c : Char) : Bool :=
  isBlank c || isSymbolChar c || c == '(' || c == ')' || c == '\'' || opensName c

def startsPlain (c : Char) : Bool := isAlphabetic c || c == '_'

/-- The characters that may follow in a word that is a name. -/
def continuesName (c : Char) : Bool := isAlphanumeric c || c == '_' || c == '.' || c == '$'

/-- Is a word a name: a first character of its own class, no other character than those of names, and
no point at the end? -/
def isName : List Char → Bool
  | [] => false
  | c :: cs => startsPlain c && cs.all continuesName && (c :: cs).getLast? != some '.'

/-! ## §2 Literals -/

/-- A literal whose delimiter is doubled inside it, read after its opening delimiter. -/
def readDelimited (delimiter : Char) (unclosed : Unclosed) (cs : List Char) : Reading (List Char) :=
  match readDoubled delimiter cs with
  | (some value, rest) => (.ok value, rest)
  | (none, rest) => (.error unclosed, rest)

/-- A regular expression, read after its opening slash.  An escaped slash is a slash; every other
escape belongs to the expression and keeps its backslash. -/
def readRegex : List Char → Reading (List Char)
  | [] => (.error .regexLiteral, [])
  | '/' :: cs => (.ok [], cs)
  | '\\' :: '/' :: cs =>
    let (value, rest) := readRegex cs
    (value.map ('/' :: ·), rest)
  | '\\' :: c :: cs =>
    let (value, rest) := readRegex cs
    (value.map ('\\' :: c :: ·), rest)
  | c :: cs =>
    let (value, rest) := readRegex cs
    (value.map (c :: ·), rest)

/-! ## §3 Names -/

/-- A part of a name in brackets, read after the opening bracket. -/
def readBracketed : List Char → Reading (List Char)
  | [] => (.error .bracketedIdentifier, [])
  | c :: cs =>
    if c = ']' then (.ok [], cs)
    else
      let (value, rest) := readBracketed cs
      (value.map (c :: ·), rest)

/-- The word at the front of a text. -/
def word (cs : List Char) : List Char := cs.takeWhile fun c => !isWordBreak c

/-- What follows the word at the front of a text. -/
def afterWord (cs : List Char) : List Char := cs.dropWhile fun c => !isWordBreak c

/-- One part of a name: quoted in one of the three styles, or a word. -/
def readPart : List Char → Reading (List Char)
  | '"' :: cs => readDelimited '"' .quotedIdentifier cs
  | '\x60' :: cs => readDelimited '\x60' .quotedIdentifier cs
  | '[' :: cs => readBracketed cs
  | cs => (.ok (word cs), afterWord cs)

def startsPart : List Char → Bool
  | [] => false
  | c :: _ => opensName c || startsPlain c

theorem length_readDelimited_le (delimiter : Char) (unclosed : Unclosed) (cs : List Char) :
    (readDelimited delimiter unclosed cs).2.length ≤ cs.length := by
  have h := length_readDoubled_le delimiter cs
  unfold readDelimited
  split <;> simp_all

theorem length_readRegex_le (cs : List Char) : (readRegex cs).2.length ≤ cs.length := by
  fun_induction readRegex cs <;> simp_all <;> omega

theorem length_readBracketed_le (cs : List Char) : (readBracketed cs).2.length ≤ cs.length := by
  fun_induction readBracketed cs <;> simp_all
  omega

theorem length_afterWord_le (cs : List Char) : (afterWord cs).length ≤ cs.length :=
  (List.dropWhile_sublist _).length_le

theorem length_readPart_le (cs : List Char) : (readPart cs).2.length ≤ cs.length := by
  unfold readPart
  split
  next cs => exact Nat.le_succ_of_le (length_readDelimited_le ..)
  next cs => exact Nat.le_succ_of_le (length_readDelimited_le ..)
  next cs => exact Nat.le_succ_of_le (length_readBracketed_le ..)
  next => exact length_afterWord_le _

/-- A name of one or more parts.  A point continues the name when a quoted or plain part follows it. -/
def readName (cs : List Char) : Reading (List Char) :=
  match _h : readPart cs with
  | (.ok part, '.' :: next) =>
    if startsPart next then
      let (parts, rest) := readName next
      (parts.map (part ++ '.' :: ·), rest)
    else (.ok part, '.' :: next)
  | reading => reading
-- a part may be empty, but the point before the next one is a character
termination_by cs.length
decreasing_by
  have := length_readPart_le cs
  simp [_h] at this
  omega

theorem length_readName_le (cs : List Char) : (readName cs).2.length ≤ cs.length := by
  fun_induction readName cs with
  | case1 cs part next h hs parts rest hr ih =>
    have := length_readPart_le cs
    simp_all
    omega
  | case2 cs part next h hs =>
    have := length_readPart_le cs
    simp_all
  | case3 cs _ => exact length_readPart_le cs

/-! ## §4 Symbols and words -/

/-- A symbol of two characters if there is one, else of one; a symbol character that begins no symbol
is a bare literal. -/
def readSymbol (c : Char) (cs : List Char) : Token × List Char :=
  let single :=
    match Keyword.ofChars? [c] with
    | some keyword => (Token.operator keyword, cs)
    | none => (Token.literal .bare [c], cs)
  match cs with
  | [] => single
  | d :: rest =>
    match Keyword.ofChars? [c, d] with
    | some keyword => (Token.operator keyword, rest)
    | none => single

def wordToken (w : List Char) : Token :=
  match Keyword.ofChars? w with
  -- a keyword in any case, but a literal with one spelling
  | some .null => Token.literal .null "NULL".toList
  | some keyword => Token.operator keyword
  | none =>
    if isNumber w then Token.literal .number w
    else if isName w then Token.identifier w
    else Token.literal .bare w

/-- Is a word a name and a point, so that a quoted part right after it continues the name? -/
def isNameWithPoint (w : List Char) : Bool :=
  w.getLast? == some '.' && isName w.dropLast

/-- Does a quoted part of a name stand at the front of the text? -/
def opensQuoted : List Char → Bool
  | [] => false
  | c :: _ => opensName c

/-- A word, together with the quoted parts that continue it. -/
def readWord (cs : List Char) : Reading Token :=
  let w := word cs
  let rest := afterWord cs
  if isNameWithPoint w && opensQuoted rest then
    let (parts, rest) := readName rest
    (parts.map fun parts => Token.identifier (w ++ parts), rest)
  else (.ok (wordToken w), rest)

/-! ## §5 Tokens -/

/-- The next token of a text that begins with the given character, which is no blank. -/
def readToken (c : Char) (cs : List Char) : Reading Token :=
  if c = '(' then (.ok Token.openParen, cs)
  else if c = ')' then (.ok Token.closeParen, cs)
  else if c = '\'' then
    let (value, rest) := readDelimited '\'' .stringLiteral cs
    (value.map (Token.literal .string), rest)
  else if c = '/' then
    let (value, rest) := readRegex cs
    (value.map (Token.literal .regex), rest)
  else if opensName c then
    let (name, rest) := readName (c :: cs)
    (name.map Token.identifier, rest)
  -- a symbol never has a fault, whatever its characters
  else if isSymbolChar c then
    let (token, rest) := readSymbol c cs
    (.ok token, rest)
  else readWord (c :: cs)

def next (cs : List Char) : Reading (Option Token) :=
  match skipBlank cs with
  | [] => (.ok none, [])
  | c :: cs =>
    let (token, rest) := readToken c cs
    (token.map some, rest)

/-! ## §6 Progress -/

theorem length_readSymbol_le (c : Char) (cs : List Char) : (readSymbol c cs).2.length ≤ cs.length := by
  unfold readSymbol
  cases cs with
  | nil => simp only; split <;> simp
  | cons d rest =>
    simp only
    -- two characters are taken if they make a keyword, one otherwise
    cases Keyword.ofChars? [c, d] with
    | some keyword => simp
    | none => simp only; split <;> simp

theorem length_readPart_of_opensName {c : Char} (h : opensName c = true) (cs : List Char) :
    (readPart (c :: cs)).2.length ≤ cs.length := by
  simp only [opensName, Bool.or_eq_true, beq_iff_eq] at h
  rcases h with (rfl | rfl) | rfl
  · exact length_readDelimited_le ..
  · exact length_readDelimited_le ..
  · exact length_readBracketed_le ..

theorem length_readName_of_opensName {c : Char} (h : opensName c = true) (cs : List Char) :
    (readName (c :: cs)).2.length ≤ cs.length := by
  have hp := length_readPart_of_opensName h cs
  unfold readName
  split
  next part next hr =>
    have := length_readName_le next
    rw [hr] at hp
    split
    · simp only [List.length_cons] at hp ⊢; omega
    · exact hp
  next => exact hp

theorem length_afterWord_of_not_isWordBreak {c : Char} (h : isWordBreak c = false)
    (cs : List Char) : (afterWord (c :: cs)).length ≤ cs.length := by
  simpa [afterWord, List.dropWhile_cons, h] using length_afterWord_le cs

theorem length_readWord_of_not_isWordBreak {c : Char} (h : isWordBreak c = false)
    (cs : List Char) : (readWord (c :: cs)).2.length ≤ cs.length := by
  have hw := length_afterWord_of_not_isWordBreak h cs
  unfold readWord
  simp only
  split
  · exact Nat.le_trans (length_readName_le _) hw
  · exact hw

/-- Reading a token consumes its first character at least. -/
theorem length_readToken_le {c : Char} (h : isBlank c = false) (cs : List Char) :
    (readToken c cs).2.length ≤ cs.length := by
  unfold readToken
  split
  · simp
  split
  · simp
  split
  · exact length_readDelimited_le ..
  split
  · exact length_readRegex_le _
  split
  next hn => exact length_readName_of_opensName hn _
  split
  · exact length_readSymbol_le ..
  · apply length_readWord_of_not_isWordBreak
    simp_all [isWordBreak]

theorem length_next_lt {cs rest : List Char} {t : Token} (h : next cs = (.ok (some t), rest)) :
    rest.length < cs.length := by
  unfold next at h
  have hle := length_skipBlank_le cs
  split at h
  · simp at h
  next c cs' hs =>
    -- blanks have been skipped, so the token begins with no blank
    have hc : isBlank c = false := by
      have := List.head?_dropWhile_not isBlank cs
      rw [show cs.dropWhile isBlank = c :: cs' from hs] at this
      exact this
    have := length_readToken_le hc cs'
    rw [hs] at hle
    simp only [Prod.mk.injEq] at h
    rw [← h.2]
    simp only [List.length_cons] at hle
    omega

/-! ## §7 Whole texts -/

def tokenize (cs : List Char) : Except Unclosed (List Token) :=
  match _h : next cs with
  | (.error unclosed, _) => .error unclosed
  | (.ok none, _) => .ok []
  | (.ok (some token), rest) => (tokenize rest).map (token :: ·)
termination_by cs.length
decreasing_by exact length_next_lt _h

def tokens (s : String) : Except Unclosed (List Token) := tokenize s.toList

end Lexer
end CatalogFilter
