import CatalogFilter.Expr.Printer
import CatalogFilter.Proofs.Token.Separation

/-!
# What written pieces are read as

The pieces of which filter texts are written are each read as one token: a quoted string as the string,
a plain number as the number, and a keyword as the keyword.  A part of a name that needs no quotes is a word
of its own class, which is neither a number nor broken by any character.

**Main statements**: `tokenize_string`, `tokenize_number` and `tokenize_keyword`.
-/

namespace CatalogFilter

open Text

namespace Lexer

/-! ## §1 Words -/

theorem tokenize_nil : tokenize [] = .ok [] := by
  rw [tokenize]
  rfl

/-- A text that begins with no blank begins with its first token. -/
theorem next_of_readToken {c : Char} {cs rest : List Char} {token : Token} (hc : isBlank c = false)
    (h : readToken c cs = (.ok token, rest)) : next (c :: cs) = (.ok (some token), rest) := by
  have hs : skipBlank (c :: cs) = c :: cs := by simp [skipBlank, hc]
  rw [next_eq_readToken hs, h]
  rfl

/-- A first token that takes the whole text. -/
theorem tokenize_of_next_nil {cs : List Char} {token : Token} (h : next cs = (.ok (some token), [])) :
    tokenize cs = .ok [token] := by
  rw [tokenize_of_next h, tokenize_nil]
  rfl

theorem tokenize_single {c : Char} {cs : List Char} {token : Token} (hc : isBlank c = false)
    (h : readToken c cs = (.ok token, [])) : tokenize (c :: cs) = .ok [token] :=
  tokenize_of_next_nil (next_of_readToken hc h)

/-- Is no character of a text one before which a word ends? -/
def Unbroken (cs : List Char) : Prop := ∀ c ∈ cs, isWordBreak c = false

theorem Unbroken.append {cs ds : List Char} (hc : Unbroken cs) (hd : Unbroken ds) :
    Unbroken (cs ++ ds) := by
  intro c h
  rcases List.mem_append.1 h with h | h
  · exact hc c h
  · exact hd c h

theorem unbroken_point : Unbroken ['.'] := by
  intro c h
  obtain rfl : c = '.' := List.mem_singleton.1 h
  rfl

theorem word_of_unbroken {cs : List Char} (h : Unbroken cs) (rest : List Char) :
    word (cs ++ rest) = cs ++ word rest := by
  unfold word
  exact List.takeWhile_append_of_pos fun c hc => by simp [h c hc]

theorem afterWord_of_unbroken {cs : List Char} (h : Unbroken cs) (rest : List Char) :
    afterWord (cs ++ rest) = afterWord rest := by
  unfold afterWord
  exact List.dropWhile_append_of_pos fun c hc => by simp [h c hc]

theorem word_self {cs : List Char} (h : Unbroken cs) : word cs = cs := by
  simpa [word] using word_of_unbroken h []

theorem afterWord_self {cs : List Char} (h : Unbroken cs) : afterWord cs = [] := by
  simpa [afterWord] using afterWord_of_unbroken h []

/-- A character that ends no word and is no slash begins a word. -/
theorem readToken_of_not_isWordBreak {c : Char} (h : isWordBreak c = false) (hs : c ≠ '/')
    (cs : List Char) : readToken c cs = readWord (c :: cs) := by
  simp only [isWordBreak, Bool.or_eq_false_iff, beq_eq_false_iff_ne] at h
  obtain ⟨⟨⟨⟨⟨_, hsym⟩, hopen⟩, hclose⟩, hquote⟩, hname⟩ := h
  simp [readToken, hsym, hopen, hclose, hquote, hname, hs]

theorem isBlank_of_not_isWordBreak {c : Char} (h : isWordBreak c = false) : isBlank c = false := by
  simp only [isWordBreak, Bool.or_eq_false_iff] at h
  exact h.1.1.1.1.1

theorem next_word {c : Char} {cs : List Char} (h : Unbroken (c :: cs)) (hs : c ≠ '/') :
    next (c :: cs) = (.ok (some (wordToken (c :: cs))), []) := by
  have hc : isWordBreak c = false := h c (by simp)
  apply next_of_readToken (isBlank_of_not_isWordBreak hc)
  rw [readToken_of_not_isWordBreak hc hs]
  simp [readWord, word_self h, afterWord_self h, opensQuoted]

theorem tokenize_word {c : Char} {cs : List Char} (h : Unbroken (c :: cs)) (hs : c ≠ '/') :
    tokenize (c :: cs) = .ok [wordToken (c :: cs)] :=
  tokenize_of_next_nil (next_word h hs)

/-! ## §2 Strings and numbers -/

theorem readDelimited_quoted {d : Char} {unclosed : Unclosed} (cs : List Char) {rest : List Char}
    (h : rest.head? ≠ some d) :
    readDelimited d unclosed (doubled d cs ++ d :: rest) = (.ok cs, rest) := by
  simp [readDelimited, readDoubled_doubled d cs rest h]

/-- A quoted string is read up to its closing quote, unless a further quote follows that. -/
theorem next_string (cs : List Char) {rest : List Char} (h : rest.head? ≠ some '\'') :
    next (Sql.string cs ++ rest) = (.ok (some (Token.literal .string cs)), rest) := by
  have hr : readDelimited '\'' .stringLiteral (doubled '\'' cs ++ '\'' :: rest) = (.ok cs, rest) :=
    readDelimited_quoted cs h
  have hform : Sql.string cs ++ rest = '\'' :: (doubled '\'' cs ++ '\'' :: rest) := by
    simp [Sql.string, quoted]
  rw [hform]
  apply next_of_readToken (by decide)
  simp [readToken, hr, Except.map]

/-- A quoted string is read as the string. -/
theorem tokenize_string (cs : List Char) :
    tokenize (Sql.string cs) = .ok [Token.literal .string cs] := by
  have hn : next (Sql.string cs ++ []) = (.ok (some (Token.literal .string cs)), []) :=
    next_string cs (by simp)
  rw [List.append_nil] at hn
  exact tokenize_of_next_nil hn

/-- The characters of plain numbers. -/
def inNumber (c : Char) : Bool := c.isDigit || c == '.' || c == '+' || c == '-'

theorem toNat_of_isDigit {c : Char} (h : c.isDigit = true) : 48 ≤ c.toNat ∧ c.toNat ≤ 57 := by
  simp only [Char.isDigit, Bool.and_eq_true, decide_eq_true_eq] at h
  exact h

theorem toNat_le_of_inNumber {c : Char} (h : inNumber c = true) : c.toNat ≤ 57 := by
  simp only [inNumber, Bool.or_eq_true, beq_iff_eq] at h
  rcases h with ((h | rfl) | rfl) | rfl
  · exact (toNat_of_isDigit h).2
  -- the point and the signs stand before the digits
  all_goals decide

theorem isWordBreak_of_inNumber {c : Char} (h : inNumber c = true) : isWordBreak c = false := by
  -- no break has the code of a digit
  have hall : ∀ n ∈ breakPoints, ¬ (48 ≤ n ∧ n ≤ 57) := by decide
  simp only [inNumber, Bool.or_eq_true, beq_iff_eq] at h
  rcases h with ((h | rfl) | rfl) | rfl
  · exact Bool.eq_false_iff.2 fun hb => hall c.toNat (mem_breakPoints hb) (toNat_of_isDigit h)
  all_goals rfl

theorem inNumber_of_isFraction {cs : List Char} (h : isFraction cs = true) :
    ∀ c ∈ cs, inNumber c = true := by
  unfold isFraction at h
  split at h
  next => simp
  next ds =>
    intro c hc
    -- the point, or a digit after it
    rcases List.mem_cons.1 hc with rfl | hc
    · decide
    · have hd : c.isDigit = true := by
        simp only [Bool.and_eq_true, List.all_eq_true] at h
        exact h.2 c hc
      simp [inNumber, hd]
  next => simp at h

theorem inNumber_of_isNumber {cs : List Char} (h : isNumber cs = true) :
    ∀ c ∈ cs, inNumber c = true := by
  simp only [isNumber, Bool.and_eq_true] at h
  -- a sign, digits, and a fraction
  have hsplit : leadingDigits (dropSign cs) ++ afterDigits (dropSign cs) = dropSign cs :=
    List.takeWhile_append_dropWhile
  have hdrop : ∀ c ∈ dropSign cs, inNumber c = true := by
    intro c hc
    rw [← hsplit] at hc
    rcases List.mem_append.1 hc with hc | hc
    · have hd : c.isDigit = true := List.all_eq_true.1 List.all_takeWhile c hc
      simp [inNumber, hd]
    · exact inNumber_of_isFraction h.2 c hc
  intro c hc
  unfold dropSign at hdrop
  split at hdrop
  next =>
    rcases List.mem_cons.1 hc with rfl | hc
    · decide
    · exact hdrop c hc
  next =>
    rcases List.mem_cons.1 hc with rfl | hc
    · decide
    · exact hdrop c hc
  next => exact hdrop c hc

theorem unbroken_of_isNumber {cs : List Char} (h : isNumber cs = true) : Unbroken cs :=
  fun c hc => isWordBreak_of_inNumber (inNumber_of_isNumber h c hc)

/-- No keyword begins as a number does. -/
theorem ofChars?_of_inNumber {c : Char} (h : inNumber c = true) (cs : List Char) :
    Keyword.ofChars? (c :: cs) = none := by
  cases hk : Keyword.ofChars? (c :: cs) with
  | none => rfl
  | some k =>
    have htext : c.toUpper :: upperCase cs = k.text.toList := Keyword.ofChars?_eq_some_iff.1 hk
    have hsmall : ¬ ('a'.val ≤ c.val ∧ c.val ≤ 'z'.val) := by
      intro hsmall
      have ha : 97 ≤ c.toNat := hsmall.1
      have hc := toNat_le_of_inNumber h
      omega
    -- the keyword would begin with the character itself, and none of them does
    rw [toUpper_of_not_small hsmall] at htext
    cases k <;> simp [Keyword.text] at htext <;> obtain ⟨rfl, _⟩ := htext <;> revert h <;> decide

/-- A plain number is read as the number. -/
theorem tokenize_number {cs : List Char} (h : isNumber cs = true) :
    tokenize cs = .ok [Token.literal .number cs] := by
  cases cs with
  | nil => simp [isNumber, dropSign, leadingDigits] at h
  | cons c cs =>
    have hc : inNumber c = true := inNumber_of_isNumber h c (by simp)
    have hs : c ≠ '/' := by
      rintro rfl
      revert hc
      decide
    rw [tokenize_word (unbroken_of_isNumber h) hs]
    simp [wordToken, ofChars?_of_inNumber hc, h]

/-! ## §3 Keywords -/

/-- A keyword is read as an operator, except for the one that stands for the missing value. -/
theorem tokenize_keyword {k : Keyword} (h : k ≠ .null) :
    tokenize k.text.toList = .ok [Token.operator k] := by
  cases k <;> first | exact absurd rfl h | exact tokenize_single rfl rfl

theorem tokenize_null : tokenize "NULL".toList = .ok [Token.literal .null "NULL".toList] :=
  tokenize_single rfl rfl

/-! ## §4 Parts of names -/

/-- The characters of parts of names that need no quotes. -/
def inPlainPart (c : Char) : Bool := isAlphanumeric c || c == '_' || c == '$'

theorem inPlainPart_of_isPlainPart {cs : List Char} (h : Sql.isPlainPart cs = true) :
    ∀ c ∈ cs, inPlainPart c = true := by
  cases cs with
  | nil => simp
  | cons c cs =>
    simp only [Sql.isPlainPart, Bool.and_eq_true, List.all_eq_true] at h
    intro d hd
    rcases List.mem_cons.1 hd with rfl | hd
    · rcases Bool.or_eq_true_iff.1 h.1 with ha | hu
      · simp [inPlainPart, isAlphanumeric, ha]
      · simp [inPlainPart, hu]
    · exact h.2 d hd

theorem isWordBreak_of_inPlainPart {c : Char} (h : inPlainPart c = true) : isWordBreak c = false := by
  simp only [inPlainPart, Bool.or_eq_true, beq_iff_eq] at h
  -- a letter or numeral, an underscore, or a dollar sign
  rcases h with (h | rfl) | rfl
  · exact Bool.eq_false_iff.2 fun hb => by simp [isAlphanumeric_of_isWordBreak hb] at h
  · decide
  · decide

theorem unbroken_of_isPlainPart {cs : List Char} (h : Sql.isPlainPart cs = true) : Unbroken cs :=
  fun c hc => isWordBreak_of_inPlainPart (inPlainPart_of_isPlainPart h c hc)

theorem continuesName_of_inPlainPart {c : Char} (h : inPlainPart c = true) :
    continuesName c = true := by
  simp only [inPlainPart, Bool.or_eq_true] at h
  rcases h with (h | h) | h <;> simp [continuesName, h]

theorem startsPlain_of_isPlainPart {c : Char} {cs : List Char}
    (h : Sql.isPlainPart (c :: cs) = true) : startsPlain c = true := by
  simp only [Sql.isPlainPart, Bool.and_eq_true] at h
  exact h.1

/-- A part without quotes has no point in it. -/
theorem point_not_mem_of_isPlainPart {cs : List Char} (h : Sql.isPlainPart cs = true) : '.' ∉ cs := by
  intro hmem
  have hpoint : inPlainPart '.' = true := inPlainPart_of_isPlainPart h '.' hmem
  revert hpoint
  decide +kernel

theorem getLast?_of_isPlainPart {cs : List Char} (h : Sql.isPlainPart cs = true) :
    cs.getLast? ≠ some '.' :=
  fun hl => point_not_mem_of_isPlainPart h (List.mem_of_getLast? hl)

theorem ne_nil_of_isPlainPart {cs : List Char} (h : Sql.isPlainPart cs = true) : cs ≠ [] := by
  rintro rfl
  simp [Sql.isPlainPart] at h

theorem opensQuoted_of_unbroken {cs : List Char} (h : Unbroken cs) : opensQuoted cs = false := by
  cases cs with
  | nil => rfl
  | cons c cs =>
    have hc := h c (by simp)
    simp only [isWordBreak, Bool.or_eq_false_iff] at hc
    exact hc.2

theorem not_inNumber_of_startsPlain {c : Char} (h : startsPlain c = true) : inNumber c = false := by
  have hall : ∀ n < 0x41, inRanges n alphabeticRanges = false := by decide +kernel
  apply Bool.eq_false_iff.2
  intro hn
  have hc := toNat_le_of_inNumber hn
  -- no letter stands so early, so only the underscore is left
  have ha : isAlphabetic c = false := hall c.toNat (by omega)
  have hu : c = '_' := by simpa [startsPlain, ha] using h
  subst hu
  revert hn
  decide

theorem ofChars?_of_mem_point {cs : List Char} (h : '.' ∈ cs) : Keyword.ofChars? cs = none := by
  cases hk : Keyword.ofChars? cs with
  | none => rfl
  | some k =>
    -- the keyword would have a point in it
    have htext : upperCase cs = k.text.toList := Keyword.ofChars?_eq_some_iff.1 hk
    have hmem : '.' ∈ k.text.toList := by
      rw [← htext]
      exact List.mem_map.2 ⟨'.', h, by decide⟩
    revert hmem
    cases k <;> decide

theorem isName_of_isPlainPart {cs : List Char} (h : Sql.isPlainPart cs = true) :
    isName cs = true := by
  cases cs with
  | nil => simp [Sql.isPlainPart] at h
  | cons c cs =>
    have hall : ∀ d ∈ cs, continuesName d = true := fun d hd =>
      continuesName_of_inPlainPart (inPlainPart_of_isPlainPart h d (by simp [hd]))
    have hlast := getLast?_of_isPlainPart h
    simp only [isName, startsPlain_of_isPlainPart h, Bool.true_and, Bool.and_eq_true,
      List.all_eq_true, bne_iff_ne]
    exact ⟨hall, hlast⟩

/-- A word that begins as a name does is no number. -/
theorem isNumber_of_startsPlain {c : Char} (h : startsPlain c = true) (cs : List Char) :
    isNumber (c :: cs) = false := by
  apply Bool.eq_false_iff.2
  intro hn
  have hc := inNumber_of_isNumber hn c (by simp)
  simp [not_inNumber_of_startsPlain h] at hc

theorem ne_slash_of_startsPlain {c : Char} (h : startsPlain c = true) : c ≠ '/' := by
  rintro rfl
  revert h
  decide +kernel

end Lexer
end CatalogFilter
