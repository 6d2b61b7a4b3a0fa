import CatalogFilter.Proofs.Token.Margins

/-!
# Progress in a text

The reader of tokens may be called again and again on one text, each time on what the call before has left.
Every reader leaves an end of the text that it was given, so there is always a place in the text at which it
stands; and a fault leaves nothing.  A token moves the place forward.  Any other answer is the last one: the
reader then stands at the end of the text, where every later call finds the end.

**Main definitions**: `Lexer.Leaves`, `Lexer.left` and `Lexer.place`.  **Main statement**:
`Lexer.next_progress`.
-/

namespace CatalogFilter

open Text

namespace Lexer

/-! ## §1 What readers leave -/

/-- What is left after reading is an end of the text, and nothing after a fault. -/
structure Leaves {α : Type} (cs : List Char) (reading : Reading α) : Prop where
  /-- What is left is an end of what was given. -/
  suffix : reading.2 <:+ cs
  /-- After a fault nothing is left. -/
  fault : ∀ unclosed, reading.1 = .error unclosed → reading.2 = []

namespace Leaves

variable {α β : Type} {cs ds rest : List Char}

theorem ok (value : α) (h : rest <:+ cs) : Leaves cs (.ok value, rest) :=
  ⟨h, by simp⟩

theorem error (unclosed : Unclosed) : Leaves cs ((.error unclosed, []) : Reading α) :=
  ⟨List.nil_suffix, fun _ _ => rfl⟩

theorem map {found : Except Unclosed α} (h : Leaves cs (found, rest)) (f : α → β) :
    Leaves cs (found.map f, rest) :=
  ⟨h.suffix, fun unclosed hf => h.fault unclosed (map_eq_error.1 hf)⟩

/-- What is read behind some characters leaves an end of the text before them. -/
theorem behind {reading : Reading α} (h : Leaves cs reading) (hs : cs <:+ ds) : Leaves ds reading :=
  ⟨h.suffix.trans hs, h.fault⟩

end Leaves

theorem leaves_readDoubled (delimiter : Char) (cs : List Char) :
    (readDoubled delimiter cs).2 <:+ cs ∧
      ((readDoubled delimiter cs).1 = none → (readDoubled delimiter cs).2 = []) := by
  -- case by case as the text is read, one or two characters at a time
  fun_induction readDoubled delimiter cs with
  | case1 => simp
  | case2 => simp
  | case3 => simp
  | case4 cs found left hr ih =>
    obtain ⟨hsuffix, hnone⟩ := ih
    rw [hr] at hsuffix hnone
    exact ⟨hsuffix.trans (List.suffix_append [delimiter, delimiter] cs), by simpa using hnone⟩
  | case5 c cs _ => exact ⟨List.suffix_cons .., by simp⟩
  | case6 c d cs _ found left hr ih =>
    obtain ⟨hsuffix, hnone⟩ := ih
    rw [hr] at hsuffix hnone
    exact ⟨hsuffix.trans (List.suffix_cons ..), by simpa using hnone⟩

theorem leaves_readDelimited (delimiter : Char) (unclosed : Unclosed) (cs : List Char) :
    Leaves cs (readDelimited delimiter unclosed cs) := by
  obtain ⟨hsuffix, hnone⟩ := leaves_readDoubled delimiter cs
  unfold readDelimited
  split
  next value rest hr =>
    rw [hr] at hsuffix
    exact .ok value hsuffix
  next rest hr =>
    rw [hr] at hnone
    obtain rfl : rest = [] := hnone rfl
    exact .error unclosed

theorem leaves_readRegex (cs : List Char) : Leaves cs (readRegex cs) := by
  fun_induction readRegex cs with
  | case1 => exact .error .regexLiteral
  | case2 cs => exact .ok [] (List.suffix_cons ..)
  | case3 cs found rest hr ih =>
    rw [hr] at ih
    exact (ih.map _).behind (List.suffix_append ['\\', '/'] cs)
  | case4 c cs _ found rest hr ih =>
    rw [hr] at ih
    exact (ih.map _).behind (List.suffix_append ['\\', c] cs)
  | case5 c cs _ _ _ found rest hr ih =>
    rw [hr] at ih
    exact (ih.map _).behind (List.suffix_cons ..)

theorem leaves_readBracketed (cs : List Char) : Leaves cs (readBracketed cs) := by
  fun_induction readBracketed cs with
  | case1 => exact .error .bracketedIdentifier
  | case2 cs => exact .ok [] (List.suffix_cons ..)
  | case3 c cs _ found rest hr ih =>
    rw [hr] at ih
    exact (ih.map _).behind (List.suffix_cons ..)

theorem afterWord_suffix (cs : List Char) : afterWord cs <:+ cs := List.dropWhile_suffix _

theorem leaves_readPart (cs : List Char) : Leaves cs (readPart cs) := by
  unfold readPart
  split
  next cs => exact (leaves_readDelimited ..).behind (List.suffix_cons ..)
  next cs => exact (leaves_readDelimited ..).behind (List.suffix_cons ..)
  next cs => exact (leaves_readBracketed cs).behind (List.suffix_cons ..)
  next => exact .ok (word cs) (afterWord_suffix cs)

theorem leaves_readName (cs : List Char) : Leaves cs (readName cs) := by
  fun_induction readName cs with
  | case1 cs part next hp hn parts rest hr ih =>
    -- behind the part and its point the name goes on
    have hpart := leaves_readPart cs
    rw [hp] at hpart
    rw [hr] at ih
    exact (ih.map _).behind ((List.suffix_cons '.' next).trans hpart.suffix)
  | case2 cs part next hp hn =>
    have hpart := leaves_readPart cs
    rwa [hp] at hpart
  | case3 cs _ => exact leaves_readPart cs

theorem readSymbol_suffix (c : Char) (cs : List Char) : (readSymbol c cs).2 <:+ cs := by
  unfold readSymbol
  -- a symbol takes its second character only if both make an operator
  cases cs with
  | nil => cases Keyword.ofChars? [c] <;> exact List.suffix_rfl
  | cons d cs =>
    simp only
    cases Keyword.ofChars? [c, d] with
    | some keyword => exact List.suffix_cons ..
    | none => cases Keyword.ofChars? [c] <;> exact List.suffix_rfl

theorem leaves_readWord (cs : List Char) : Leaves cs (readWord cs) := by
  unfold readWord
  simp only
  split
  next => exact ((leaves_readName _).map _).behind (afterWord_suffix cs)
  next => exact .ok (wordToken (word cs)) (afterWord_suffix cs)

theorem leaves_readToken (c : Char) (cs : List Char) : Leaves (c :: cs) (readToken c cs) := by
  have hbehind : cs <:+ c :: cs := List.suffix_cons c cs
  unfold readToken
  -- one case for each class of first characters
  split
  · exact .ok Token.openParen hbehind
  split
  · exact .ok Token.closeParen hbehind
  split
  · exact ((leaves_readDelimited ..).map _).behind hbehind
  split
  · exact ((leaves_readRegex cs).map _).behind hbehind
  split
  · exact (leaves_readName (c :: cs)).map _
  split
  · exact .ok (readSymbol c cs).1 ((readSymbol_suffix c cs).trans hbehind)
  · exact leaves_readWord (c :: cs)

/-! ## §2 The loops -/

/-- The word at a place of a text is the slice from there to a place further on, where reading goes on. -/
theorem exists_word_eq_extract {text : List Char} {start : Nat} (h : start ≤ text.length) :
    ∃ stop, start ≤ stop ∧ stop ≤ text.length ∧ word (text.drop start) = text.extract start stop ∧
      afterWord (text.drop start) = text.drop stop := by
  generalize hrest : text.drop start = rest
  have hrestLength : rest.length = text.length - start := by rw [← hrest, List.length_drop]
  have hlength : (word rest).length + (afterWord rest).length = rest.length := by
    rw [← List.length_append, word, afterWord, List.takeWhile_append_dropWhile]
  -- the word and what follows it are the two parts of the rest
  have hword : word rest = rest.take (word rest).length :=
    List.prefix_iff_eq_take.1 (List.takeWhile_prefix _)
  have hafter : afterWord rest = rest.drop (rest.length - (afterWord rest).length) :=
    List.suffix_iff_eq_drop.1 (afterWord_suffix rest)
  refine ⟨start + (word rest).length, Nat.le_add_right .., by omega, ?_, ?_⟩
  · rw [List.extract_eq_take_drop, Nat.add_sub_cancel_left, hrest]
    exact hword
  · rw [← List.drop_drop, hrest, ← Nat.sub_eq_of_eq_add hlength.symm]
    exact hafter

/-- A part that continues a name has a character at least. -/
theorem length_readPart_lt {cs : List Char} (h : startsPart cs = true) :
    (readPart cs).2.length < cs.length := by
  cases cs with
  | nil => simp [startsPart] at h
  | cons c cs =>
    -- a part in quotes takes its opening quote, any other its first character
    cases hq : opensName c with
    | true => exact Nat.lt_succ_of_le (length_readPart_of_opensName hq cs)
    | false =>
      have hplain : startsPlain c = true := by simpa [startsPart, hq] using h
      -- neither a letter nor an underscore ends a word
      have hword : isWordBreak c = false := by
        apply Bool.eq_false_iff.2
        intro hbreak
        have hletter := isAlphanumeric_of_isWordBreak hbreak
        rw [startsPlain, Bool.or_eq_true, beq_iff_eq] at hplain
        rcases hplain with halpha | rfl
        · simp [isAlphanumeric, halpha] at hletter
        · revert hbreak
          decide
      rw [readPart_of_not_opensQuoted (by simpa [opensQuoted] using hq)]
      exact Nat.lt_succ_of_le (length_afterWord_of_not_isWordBreak hword cs)

/-- The loops of the reader stop within the text that they are started on. -/
structure LoopsStop (cs : List Char) : Prop where
  blanks : skipBlank cs <:+ cs
  delimited : ∀ delimiter unclosed, Leaves cs (readDelimited delimiter unclosed cs)
  regex : Leaves cs (readRegex cs)
  bracketed : Leaves cs (readBracketed cs)
  name : Leaves cs (readName cs)
  /-- Each further part of a name takes a character. -/
  part : startsPart cs = true → (readPart cs).2.length < cs.length

theorem loopsStop (cs : List Char) : LoopsStop cs where
  blanks := List.dropWhile_suffix _
  delimited delimiter unclosed := leaves_readDelimited delimiter unclosed cs
  regex := leaves_readRegex cs
  bracketed := leaves_readBracketed cs
  name := leaves_readName cs
  part := length_readPart_lt

/-! ## §3 One call -/

theorem next_nil : next [] = (.ok none, []) := rfl

theorem leaves_next (cs : List Char) : Leaves cs (next cs) := by
  have hskip : skipBlank cs <:+ cs := List.dropWhile_suffix _
  cases hs : skipBlank cs with
  | nil =>
    simp only [next, hs]
    exact .ok none List.nil_suffix
  | cons c rest =>
    rw [next_eq_readToken hs]
    rw [hs] at hskip
    exact ((leaves_readToken c rest).map some).behind hskip

/-- An answer that is no token leaves nothing. -/
theorem rest_eq_nil_of_not_token {cs : List Char} (h : ∀ token, (next cs).1 ≠ .ok (some token)) :
    (next cs).2 = [] := by
  -- a fault leaves nothing, and so does the end
  cases hn : (next cs).1 with
  | error unclosed => exact (leaves_next cs).fault unclosed hn
  | ok found =>
    cases found with
    | some token => exact absurd hn (h token)
    | none =>
      have hblank : skipBlank cs = [] := skipBlank_of_next_none (Prod.ext hn rfl)
      simp [next, hblank]

/-! ## §4 Calls one after the other -/

/-- What is left of a text after so many calls. -/
def left (text : List Char) : Nat → List Char
  | 0 => text
  | calls + 1 => (next (left text calls)).2

/-- How many characters of a text have been passed after so many calls. -/
def place (text : List Char) (calls : Nat) : Nat := text.length - (left text calls).length

variable {text : List Char}

theorem left_suffix (text : List Char) (calls : Nat) : left text calls <:+ text := by
  -- on the number of calls: each leaves an end of what the one before has left
  induction calls with
  | zero => exact List.suffix_rfl
  | succ calls ih => exact (leaves_next _).suffix.trans ih

/-- What is left stands at a place of the text. -/
theorem left_eq_drop (text : List Char) (calls : Nat) : left text calls = text.drop (place text calls) :=
  List.suffix_iff_eq_drop.1 (left_suffix text calls)

/-- A token moves the place forward. -/
theorem place_lt_succ {calls : Nat} {token : Token} (h : (next (left text calls)).1 = .ok (some token)) :
    place text calls < place text (calls + 1) := by
  have hlt : (left text (calls + 1)).length < (left text calls).length := length_next_lt (Prod.ext h rfl)
  have hle := (left_suffix text calls).length_le
  unfold place
  omega

theorem left_eq_nil_of_le {calls later : Nat} (h : left text calls = []) (hle : calls ≤ later) :
    left text later = [] := by
  induction hle with
  | refl => exact h
  | step _ ih => rw [left, ih, next_nil]

/-- Any other answer than a token is the last one. -/
theorem next_left_of_not_token {calls later : Nat}
    (h : ∀ token, (next (left text calls)).1 ≠ .ok (some token)) (hlt : calls < later) :
    next (left text later) = (.ok none, []) := by
  have hend : left text (calls + 1) = [] := rest_eq_nil_of_not_token h
  rw [left_eq_nil_of_le hend hlt, next_nil]

/-! ## §5 Whole texts -/

theorem length_tokenize_le {found : List Token} (h : tokenize text = .ok found) :
    found.length ≤ text.length := by
  fun_induction tokenize text generalizing found with
  | case1 => simp at h
  | case2 =>
    obtain rfl : [] = found := by simpa using h
    exact Nat.zero_le _
  | case3 text token rest hn ih =>
    cases hr : tokenize rest with
    | error unclosed => simp [hr, Except.map] at h
    | ok more =>
      obtain rfl : token :: more = found := by simpa [hr, Except.map] using h
      -- a token takes a character at least
      have hlt := length_next_lt hn
      have hle := ih hr
      simp only [List.length_cons]
      omega

/-- A text without tokens is nothing but blanks. -/
theorem tokenize_eq_nil_iff : tokenize text = .ok [] ↔ IsMargin text := by
  constructor
  · intro h
    obtain ⟨front, back, htext, hfront, hback⟩ := exists_margins text
    rw [trim_of_tokenize_nil h] at htext
    intro c hc
    rw [htext] at hc
    rcases List.mem_append.1 hc with hc | hc
    · exact hfront c hc
    · exact hback c hc
  · exact tokenize_margin

/-- **The reader of tokens moves on, and stops for good.**  However often it is called on a text, it stands
at a place of the text.  A call that answers a token moves the place forward.  A call that answers a fault or
the end leaves the place at the end of the text, and every later call answers the end.  The loops of the
reader stop within the text wherever they are started, and what is cut out as a word is a slice of the text.
So a text has no more tokens than characters, and it has none without a fault exactly if it is blank. -/
theorem next_progress (text : List Char) :
    (∀ calls, place text calls ≤ text.length ∧ left text calls = text.drop (place text calls) ∧
      (∀ token, (next (left text calls)).1 = .ok (some token) →
        place text calls < place text (calls + 1)) ∧
      ((∀ token, (next (left text calls)).1 ≠ .ok (some token)) →
        place text (calls + 1) = text.length ∧
          ∀ later, calls < later → next (left text later) = (.ok none, []))) ∧
    (∀ start, start ≤ text.length → LoopsStop (text.drop start) ∧
      ∃ stop, start ≤ stop ∧ stop ≤ text.length ∧ word (text.drop start) = text.extract start stop ∧
        afterWord (text.drop start) = text.drop stop) ∧
    (∀ found, tokenize text = .ok found → found.length ≤ text.length) ∧
    (tokenize text = .ok [] ↔ ∀ c ∈ text, isBlank c = true) := by
  refine ⟨fun calls => ?_, fun start h => ⟨loopsStop _, exists_word_eq_extract h⟩,
    fun _ => length_tokenize_le, tokenize_eq_nil_iff⟩
  refine ⟨Nat.sub_le .., left_eq_drop text calls, fun _ => place_lt_succ, fun hlast => ⟨?_, ?_⟩⟩
  · have hend : left text (calls + 1) = [] := rest_eq_nil_of_not_token hlast
    simp [place, hend]
  · exact fun later => next_left_of_not_token hlast

/-- A quote that is never closed takes all that follows it. -/
example :
    next (left "x 'y z".toList 1) = (.error .stringLiteral, []) ∧ place "x 'y z".toList 2 = 6 ∧
      next (left "x 'y z".toList 2) = (.ok none, []) := by decide +kernel

end Lexer
end CatalogFilter
