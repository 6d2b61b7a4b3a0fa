import CatalogFilter.Token.Lexer

/-!
# Reading at a separation

A blank and a parenthesis end whatever token stands before them.  So a text that is read without a fault
is read the same when it is followed by such a character: the tokens of the longer text are those of the
first part, and then those of the second.

**Main statement**: `tokenize_append`.  It goes reader by reader.  Each reader looks at most one character
beyond what it takes, and a separating character answers every such look as the end of the text does.
-/

namespace CatalogFilter

open Text

namespace Lexer

/-! ## §1 Characters that separate -/

/-- Begins a text with a character that ends every token before it?  The empty text does so as well. -/
def Separates (cs : List Char) : Prop := ∀ c ∈ cs.head?, isBlank c = true ∨ c = '(' ∨ c = ')'

theorem separates_cons_of_isBlank {c : Char} (h : isBlank c = true) (cs : List Char) :
    Separates (c :: cs) := by
  intro d hd
  obtain rfl : c = d := by simpa using hd
  exact .inl h

theorem separates_space (cs : List Char) : Separates (' ' :: cs) :=
  separates_cons_of_isBlank (by decide) cs

theorem separates_closing (cs : List Char) : Separates (')' :: cs) := by
  intro d hd
  obtain rfl : ')' = d := by simpa using hd
  exact .inr (.inr rfl)

/-- The code points of the characters before which a word ends. -/
def breakPoints : List Nat :=
  [0x09, 0x0A, 0x0B, 0x0C, 0x0D, 0x20, 0x85, 0xA0, 0x1680, 0x2000, 0x2001, 0x2002, 0x2003, 0x2004,
    0x2005, 0x2006, 0x2007, 0x2008, 0x2009, 0x200A, 0x2028, 0x2029, 0x202F, 0x205F, 0x3000] ++
  ['=', '<', '>', '!', '(', ')', '\'', '"', '\x60', '['].map Char.toNat

theorem mem_breakPoints {c : Char} (h : isWordBreak c = true) : c.toNat ∈ breakPoints := by
  simp only [isWordBreak, isSymbolChar, opensName, Bool.or_eq_true, beq_iff_eq] at h
  rcases h with ((((h | h) | h) | h) | h) | h
  · simp only [isBlank, Bool.or_eq_true, Bool.and_eq_true, decide_eq_true_eq, beq_iff_eq] at h
    simp only [breakPoints, List.mem_append, List.mem_cons, List.not_mem_nil, or_false]
    left
    omega
  · rcases h with ((rfl | rfl) | rfl) | rfl <;> decide
  · subst h; decide
  · subst h; decide
  · subst h; decide
  · rcases h with (rfl | rfl) | rfl <;> decide

/-- No letter and no numeral character ends a word. -/
theorem isAlphanumeric_of_isWordBreak {c : Char} (h : isWordBreak c = true) :
    isAlphanumeric c = false := by
  have hall : ∀ n ∈ breakPoints, (inRanges n alphabeticRanges || inRanges n numeralRanges) = false := by
    decide +kernel
  exact hall c.toNat (mem_breakPoints h)

theorem isWordBreak_of_separates {c : Char} {cs : List Char} (h : Separates (c :: cs)) :
    isWordBreak c = true := by
  rcases h c (by simp) with hb | rfl | rfl
  · simp [isWordBreak, hb]
  · decide
  · decide

theorem head?_ne_of_separates {cs : List Char} (h : Separates cs) {c : Char}
    (hc : isWordBreak c = false) : cs.head? ≠ some c := by
  intro he
  cases cs with
  | nil => simp at he
  | cons d cs =>
    obtain rfl : d = c := by simpa using he
    simp [isWordBreak_of_separates h] at hc

theorem head?_ne_quote_of_separates {cs : List Char} (h : Separates cs) {c : Char}
    (hc : c = '\'' ∨ opensName c = true) : cs.head? ≠ some c := by
  intro he
  have hs := h c he
  simp only [opensName, Bool.or_eq_true, beq_iff_eq] at hc
  -- no quote is a blank or a parenthesis
  rcases hc with rfl | (rfl | rfl) | rfl <;> revert hs <;> decide

/-- No further part of a name begins at a separation. -/
theorem startsPart_of_separates {cs : List Char} (h : Separates cs) : startsPart cs = false := by
  cases cs with
  | nil => rfl
  | cons c cs =>
    have hb := isWordBreak_of_separates h
    have ha := isAlphanumeric_of_isWordBreak hb
    have hq : opensName c = false :=
      Bool.eq_false_iff.2 fun hq => head?_ne_quote_of_separates h (.inr hq) rfl
    have hu : c ≠ '_' := by
      rintro rfl
      revert hb
      decide
    -- it is neither a quote nor a letter nor an underscore
    simp only [isAlphanumeric, Bool.or_eq_false_iff] at ha
    simp [startsPart, startsPlain, hq, ha.1, hu]

/-! ## §2 Literals -/

/-- A result that was changed after reading was read without a fault. -/
theorem reading_map_eq_ok {α β : Type} {f : α → β} {found : Except Unclosed α} {left rest : List Char}
    {value : β} (h : (found.map f, left) = (.ok value, rest)) :
    left = rest ∧ ∃ inner, found = .ok inner ∧ f inner = value := by
  cases found with
  | error unclosed => simp [Except.map] at h
  | ok inner =>
    obtain ⟨hv, hr⟩ : f inner = value ∧ left = rest := by simpa [Except.map] using h
    exact ⟨hr, inner, rfl, hv⟩

theorem readDoubled_append {d : Char} {cs value rest tail : List Char}
    (h : readDoubled d cs = (some value, rest)) (ht : tail.head? ≠ some d) :
    readDoubled d (cs ++ tail) = (some value, rest ++ tail) := by
  fun_induction readDoubled d cs generalizing value rest with
  | case1 => simp at h
  | case2 =>
    -- the closing delimiter ends the text, and what follows must not double it
    obtain ⟨rfl, rfl⟩ : [] = value ∧ [] = rest := by simpa using h
    cases tail with
    | nil => simp [readDoubled]
    | cons c tail =>
      have hc : c ≠ d := by simpa using ht
      simp [readDoubled, hc]
  | case3 => simp at h
  | case4 cs found left hr ih =>
    -- a doubled delimiter stands for one
    obtain ⟨⟨inner, rfl, rfl⟩, rfl⟩ : (∃ v, found = some v ∧ d :: v = value) ∧ left = rest := by
      simpa using h
    simp [readDoubled, ih hr]
  | case5 c cs hne =>
    obtain ⟨rfl, rfl⟩ : [] = value ∧ c :: cs = rest := by simpa using h
    simp [readDoubled, hne]
  | case6 c e cs hne found left hr ih =>
    obtain ⟨⟨inner, rfl, rfl⟩, rfl⟩ : (∃ v, found = some v ∧ c :: v = value) ∧ left = rest := by
      simpa using h
    have hi := ih hr
    simp only [List.cons_append] at hi ⊢
    simp [readDoubled, hne, hi]

theorem readDelimited_append {d : Char} {unclosed : Unclosed} {cs value rest tail : List Char}
    (h : readDelimited d unclosed cs = (.ok value, rest)) (ht : tail.head? ≠ some d) :
    readDelimited d unclosed (cs ++ tail) = (.ok value, rest ++ tail) := by
  unfold readDelimited at h
  split at h
  next found left hr =>
    obtain ⟨rfl, rfl⟩ : found = value ∧ left = rest := by simpa using h
    simp [readDelimited, readDoubled_append hr ht]
  next => simp at h

theorem readRegex_append {cs value rest : List Char} (h : readRegex cs = (.ok value, rest))
    (tail : List Char) : readRegex (cs ++ tail) = (.ok value, rest ++ tail) := by
  fun_induction readRegex cs generalizing value rest with
  | case1 => simp at h
  | case2 cs =>
    -- the closing slash
    obtain ⟨rfl, rfl⟩ : [] = value ∧ cs = rest := by simpa using h
    simp [readRegex]
  | case3 cs found left hr ih =>
    obtain ⟨rfl, inner, rfl, rfl⟩ := reading_map_eq_ok h
    simp [readRegex, ih hr, Except.map]
  | case4 c cs _ found left hr ih =>
    obtain ⟨rfl, inner, rfl, rfl⟩ := reading_map_eq_ok h
    simp [readRegex, ih hr, Except.map]
  | case5 c cs _ _ hother found left hr ih =>
    obtain ⟨rfl, inner, rfl, rfl⟩ := reading_map_eq_ok h
    -- a backslash at the very end would have been a fault
    have hc : c ≠ '\\' := by
      rintro rfl
      cases cs with
      | nil => simp [readRegex] at hr
      | cons d cs => exact hother d cs rfl rfl
    simp [readRegex, hc, ih hr, Except.map]

/-! ## §3 Names -/

theorem readBracketed_append {cs value rest : List Char}
    (h : readBracketed cs = (.ok value, rest)) (tail : List Char) :
    readBracketed (cs ++ tail) = (.ok value, rest ++ tail) := by
  fun_induction readBracketed cs generalizing value rest with
  | case1 => simp at h
  | case2 cs =>
    obtain ⟨rfl, rfl⟩ : [] = value ∧ cs = rest := by simpa using h
    simp [readBracketed]
  | case3 c cs hne found left hr ih =>
    obtain ⟨rfl, inner, rfl, rfl⟩ := reading_map_eq_ok h
    simp [readBracketed, hne, ih hr, Except.map]

theorem word_append {tail : List Char} (h : Separates tail) (cs : List Char) :
    word (cs ++ tail) = word cs := by
  -- the tail has no word at its front
  have ht : word tail = [] := by
    cases tail with
    | nil => rfl
    | cons c tail => simp [word, isWordBreak_of_separates h]
  unfold word at ht ⊢
  rw [List.takeWhile_append, ht, List.append_nil]
  split
  next hl => exact ((List.takeWhile_sublist _).eq_of_length hl).symm
  next => rfl

theorem afterWord_append {tail : List Char} (h : Separates tail) (cs : List Char) :
    afterWord (cs ++ tail) = afterWord cs ++ tail := by
  have ht : afterWord tail = tail := by
    cases tail with
    | nil => rfl
    | cons c tail => simp [afterWord, isWordBreak_of_separates h]
  unfold afterWord at ht ⊢
  rw [List.dropWhile_append, ht]
  split <;> simp_all

theorem opensQuoted_append {tail : List Char} (h : Separates tail) (cs : List Char) :
    opensQuoted (cs ++ tail) = opensQuoted cs := by
  cases cs with
  | nil =>
    cases tail with
    | nil => rfl
    | cons c tail =>
      -- what separates does not open quotes either
      exact Bool.eq_false_iff.2 fun hq => head?_ne_quote_of_separates h (.inr hq) rfl
  | cons c cs => rfl

/-- A part that does not begin with a quote is a word. -/
theorem readPart_of_not_opensQuoted {cs : List Char} (h : opensQuoted cs = false) :
    readPart cs = (.ok (word cs), afterWord cs) := by
  unfold readPart
  split
  next => simp [opensQuoted, opensName] at h
  next => simp [opensQuoted, opensName] at h
  next => simp [opensQuoted, opensName] at h
  next => rfl

theorem readPart_append {cs part rest tail : List Char} (h : readPart cs = (.ok part, rest))
    (ht : Separates tail) : readPart (cs ++ tail) = (.ok part, rest ++ tail) := by
  cases hq : opensQuoted cs with
  | false =>
    -- a word, which the tail ends as the end of the text would
    have hq' : opensQuoted (cs ++ tail) = false := by rw [opensQuoted_append ht, hq]
    rw [readPart_of_not_opensQuoted hq] at h
    obtain ⟨rfl, rfl⟩ : word cs = part ∧ afterWord cs = rest := by simpa using h
    rw [readPart_of_not_opensQuoted hq', word_append ht, afterWord_append ht]
  | true =>
    cases cs with
    | nil => simp [opensQuoted] at hq
    | cons c cs =>
      -- quotes, with one reader for each kind of them
      simp only [opensQuoted, opensName, Bool.or_eq_true, beq_iff_eq] at hq
      rcases hq with (rfl | rfl) | rfl
      · exact readDelimited_append h (head?_ne_quote_of_separates ht (.inr rfl))
      · exact readDelimited_append h (head?_ne_quote_of_separates ht (.inr rfl))
      · exact readBracketed_append h tail

/-- Does a name go on after one of its parts? -/
def goesOn (cs : List Char) : Bool := cs.head? == some '.' && startsPart cs.tail

theorem goesOn_append {tail : List Char} (h : Separates tail) (cs : List Char) :
    goesOn (cs ++ tail) = goesOn cs := by
  cases cs with
  | nil =>
    have hp : tail.head? ≠ some '.' := head?_ne_of_separates h (by decide)
    simp [goesOn, hp]
  | cons c cs =>
    have hs : startsPart (cs ++ tail) = startsPart cs := by
      cases cs with
      | nil => exact startsPart_of_separates h
      | cons d cs => rfl
    simp [goesOn, hs]

theorem readName_of_goesOn {cs part next : List Char} (h : readPart cs = (.ok part, '.' :: next))
    (hn : startsPart next = true) :
    readName cs = ((readName next).1.map (part ++ '.' :: ·), (readName next).2) := by
  rw [readName]
  split
  next part' next' h' =>
    obtain ⟨rfl, rfl⟩ : part = part' ∧ next = next' := by simpa [h] using h'
    simp [hn]
  next hne => exact absurd h (hne part next)

theorem readName_of_not_goesOn {cs part rest : List Char} (h : readPart cs = (.ok part, rest))
    (hr : goesOn rest = false) : readName cs = (.ok part, rest) := by
  rw [readName]
  split
  next part' next' h' =>
    obtain ⟨rfl, rfl⟩ : part = part' ∧ rest = '.' :: next' := by simpa [h] using h'
    have hn : startsPart next' = false := by simpa [goesOn] using hr
    simp [hn]
  next => exact h

theorem readName_append {cs name rest tail : List Char} (h : readName cs = (.ok name, rest))
    (ht : Separates tail) : readName (cs ++ tail) = (.ok name, rest ++ tail) := by
  fun_induction readName cs generalizing name rest with
  | case1 cs part next hp hn parts left hr ih =>
    -- a point and a further part
    obtain ⟨rfl, inner, rfl, rfl⟩ := reading_map_eq_ok h
    have hp' : readPart (cs ++ tail) = (.ok part, '.' :: (next ++ tail)) := readPart_append hp ht
    have hn' : startsPart (next ++ tail) = true := by
      cases next with
      | nil => simp [startsPart] at hn
      | cons c next => exact hn
    rw [readName_of_goesOn hp' hn', ih hr]
    rfl
  | case2 cs part next hp hn =>
    -- a point after which no part begins, so the name ends before it
    obtain ⟨rfl, rfl⟩ : part = name ∧ '.' :: next = rest := by simpa using h
    apply readName_of_not_goesOn (readPart_append hp ht)
    rw [goesOn_append ht]
    simpa [goesOn] using hn
  | case3 cs hne =>
    apply readName_of_not_goesOn (readPart_append h ht)
    rw [goesOn_append ht]
    cases rest with
    | nil => rfl
    | cons c rest =>
      have hc : c ≠ '.' := by
        rintro rfl
        exact hne name rest h
      simp [goesOn, hc]

/-! ## §4 Symbols and words -/

theorem toUpper_of_not_small {c : Char} (h : ¬ ('a'.val ≤ c.val ∧ c.val ≤ 'z'.val)) :
    c.toUpper = c :=
  dif_neg h

theorem toUpper_of_isWordBreak {c : Char} (h : isWordBreak c = true) : c.toUpper = c := by
  have hall : ∀ n ∈ breakPoints, ¬ (97 ≤ n ∧ n ≤ 122) := by decide
  exact toUpper_of_not_small (hall c.toNat (mem_breakPoints h))

/-- No keyword is two characters the second of which separates. -/
theorem ofChars?_pair_of_separates {c d : Char} {cs : List Char} (h : Separates (d :: cs)) :
    Keyword.ofChars? [c, d] = none := by
  cases hk : Keyword.ofChars? [c, d] with
  | none => rfl
  | some k =>
    have hd : d.toUpper = d := toUpper_of_isWordBreak (isWordBreak_of_separates h)
    have htext : [c.toUpper, d] = k.text.toList := by
      simpa [upperCase, hd] using Keyword.ofChars?_eq_some_iff.1 hk
    have hs := h d rfl
    -- of the keywords that have two characters, none ends with a blank or a parenthesis
    cases k <;> simp [Keyword.text] at htext <;> obtain ⟨_, rfl⟩ := htext <;> revert hs <;> decide

theorem readSymbol_append {c : Char} {cs rest tail : List Char} {token : Token}
    (h : readSymbol c cs = (token, rest)) (ht : Separates tail) :
    readSymbol c (cs ++ tail) = (token, rest ++ tail) := by
  unfold readSymbol at h ⊢
  cases cs with
  | nil =>
    cases tail with
    | nil => simpa using h
    | cons d tail =>
      -- the symbol ends the text: it must not make a pair with what follows
      simp only [List.nil_append, ofChars?_pair_of_separates ht]
      simp only at h
      split at h
      next keyword hk =>
        obtain ⟨rfl, rfl⟩ : Token.operator keyword = token ∧ [] = rest := by simpa using h
        rfl
      next hk =>
        obtain ⟨rfl, rfl⟩ : Token.literal .bare [c] = token ∧ [] = rest := by simpa using h
        rfl
  | cons d cs =>
    -- both characters of a pair stand in the first part
    simp only [List.cons_append] at h ⊢
    cases hp : Keyword.ofChars? [c, d] with
    | some keyword =>
      obtain ⟨rfl, rfl⟩ : Token.operator keyword = token ∧ cs = rest := by simpa [hp] using h
      rfl
    | none =>
      simp only [hp] at h ⊢
      split at h
      next keyword hk =>
        obtain ⟨rfl, rfl⟩ : Token.operator keyword = token ∧ d :: cs = rest := by simpa using h
        rfl
      next hk =>
        obtain ⟨rfl, rfl⟩ : Token.literal .bare [c] = token ∧ d :: cs = rest := by simpa using h
        rfl

theorem readWord_append {cs rest tail : List Char} {token : Token}
    (h : readWord cs = (.ok token, rest)) (ht : Separates tail) :
    readWord (cs ++ tail) = (.ok token, rest ++ tail) := by
  unfold readWord at h ⊢
  simp only [word_append ht, afterWord_append ht, opensQuoted_append ht] at h ⊢
  split at h
  next hq =>
    -- the word runs into quotes and goes on as a name
    obtain ⟨rfl, parts, hp, rfl⟩ := reading_map_eq_ok h
    rw [if_pos hq]
    have hr : readName (afterWord cs) = (.ok parts, (readName (afterWord cs)).2) := by
      rw [← hp]
    rw [readName_append hr ht]
    rfl
  next hq =>
    rw [if_neg hq]
    obtain ⟨rfl, rfl⟩ : wordToken (word cs) = token ∧ afterWord cs = rest := by simpa using h
    rfl

/-! ## §5 Tokens -/

theorem readToken_append {c : Char} {cs rest tail : List Char} {token : Token}
    (h : readToken c cs = (.ok token, rest)) (ht : Separates tail) :
    readToken c (cs ++ tail) = (.ok token, rest ++ tail) := by
  unfold readToken at h ⊢
  -- one case for each class of first characters
  split at h
  · obtain ⟨rfl, rfl⟩ : Token.openParen = token ∧ cs = rest := by simpa using h
    rw [if_pos ‹_›]
  rw [if_neg ‹_›]
  split at h
  · obtain ⟨rfl, rfl⟩ : Token.closeParen = token ∧ cs = rest := by simpa using h
    rw [if_pos ‹_›]
  rw [if_neg ‹_›]
  split at h
  · obtain ⟨rfl, value, hv, rfl⟩ := reading_map_eq_ok h
    have hr := readDelimited_append (Prod.ext hv rfl) (head?_ne_quote_of_separates ht (.inl rfl))
    rw [if_pos ‹_›, hr]
    rfl
  rw [if_neg ‹_›]
  split at h
  · obtain ⟨rfl, value, hv, rfl⟩ := reading_map_eq_ok h
    have hr := readRegex_append (Prod.ext hv rfl) tail
    rw [if_pos ‹_›, hr]
    rfl
  rw [if_neg ‹_›]
  split at h
  · obtain ⟨rfl, name, hv, rfl⟩ := reading_map_eq_ok h
    have hr := readName_append (Prod.ext hv rfl) ht
    rw [if_pos ‹_›, ← List.cons_append, hr]
    rfl
  rw [if_neg ‹_›]
  split at h
  · obtain ⟨hv, rfl⟩ : (readSymbol c cs).1 = token ∧ (readSymbol c cs).2 = rest := by simpa using h
    have hr := readSymbol_append (Prod.ext hv rfl) ht
    rw [if_pos ‹_›, hr]
  · rw [if_neg ‹_›, ← List.cons_append]
    exact readWord_append h ht

theorem next_eq_readToken {cs rest : List Char} {c : Char} (h : skipBlank cs = c :: rest) :
    next cs = ((readToken c rest).1.map some, (readToken c rest).2) := by
  unfold next
  rw [h]

theorem next_append {cs rest tail : List Char} {token : Token}
    (h : next cs = (.ok (some token), rest)) (ht : Separates tail) :
    next (cs ++ tail) = (.ok (some token), rest ++ tail) := by
  cases hs : skipBlank cs with
  | nil => simp [next, hs] at h
  | cons c left =>
    rw [next_eq_readToken hs] at h
    obtain ⟨rfl, found, hf, he⟩ := reading_map_eq_ok h
    obtain rfl : found = token := by simpa using he
    -- the blanks that are skipped end within the first part
    have hs' : skipBlank (cs ++ tail) = c :: (left ++ tail) := by
      unfold skipBlank at hs ⊢
      simp [List.dropWhile_append, hs]
    rw [next_eq_readToken hs', readToken_append (Prod.ext hf rfl) ht]
    rfl

/-- A text that is blank changes nothing for what follows. -/
theorem next_append_of_blank {cs : List Char} (h : skipBlank cs = []) (tail : List Char) :
    next (cs ++ tail) = next tail := by
  have hs : skipBlank (cs ++ tail) = skipBlank tail := by
    unfold skipBlank at h ⊢
    simp [List.dropWhile_append, h]
  simp only [next, hs]

theorem skipBlank_of_next_none {cs rest : List Char} (h : next cs = (.ok none, rest)) :
    skipBlank cs = [] := by
  cases hs : skipBlank cs with
  | nil => rfl
  | cons c left =>
    rw [next_eq_readToken hs] at h
    obtain ⟨_, found, _, he⟩ := reading_map_eq_ok h
    simp at he

/-! ## §6 Whole texts -/

/-- The tokens of a text are settled by its first token and what follows that. -/
theorem tokenize_congr {cs ds : List Char} (h : next cs = next ds) : tokenize cs = tokenize ds := by
  rw [tokenize, tokenize]
  split <;> split <;> simp_all

theorem tokenize_of_next {cs rest : List Char} {token : Token}
    (h : next cs = (.ok (some token), rest)) : tokenize cs = (tokenize rest).map (token :: ·) := by
  rw [tokenize]
  split <;> simp_all

/-- **Reading at a separation**: after a text without a fault, a text that separates is read as if it
stood alone. -/
theorem tokenize_append {cs tail : List Char} {tokens : List Token} (h : tokenize cs = .ok tokens)
    (ht : Separates tail) : tokenize (cs ++ tail) = (tokenize tail).map (tokens ++ ·) := by
  fun_induction tokenize cs generalizing tokens with
  | case1 => simp at h
  | case2 cs rest hn =>
    obtain rfl : [] = tokens := by simpa using h
    have hb := next_append_of_blank (skipBlank_of_next_none hn) tail
    rw [tokenize_congr hb]
    cases tokenize tail <;> rfl
  | case3 cs token rest hn ih =>
    cases hr : tokenize rest with
    | error unclosed => simp [hr, Except.map] at h
    | ok left =>
      obtain rfl : token :: left = tokens := by simpa [hr, Except.map] using h
      rw [tokenize_of_next (next_append hn ht), ih hr]
      cases tokenize tail <;> rfl

/-- Two texts that are read without a fault, the second of which separates. -/
theorem tokenize_append_ok {cs ds : List Char} {tokens more : List Token}
    (h : tokenize cs = .ok tokens) (hs : Separates ds) (hd : tokenize ds = .ok more) :
    tokenize (cs ++ ds) = .ok (tokens ++ more) := by
  rw [tokenize_append h hs, hd]
  rfl

theorem tokenize_cons_of_isBlank {c : Char} (h : isBlank c = true) (cs : List Char) :
    tokenize (c :: cs) = tokenize cs := by
  apply tokenize_congr
  have hs : skipBlank (c :: cs) = skipBlank cs := by simp [skipBlank, h]
  simp only [next, hs]

theorem tokenize_openParen (cs : List Char) :
    tokenize ('(' :: cs) = (tokenize cs).map (Token.openParen :: ·) :=
  tokenize_of_next rfl

theorem tokenize_closeParen (cs : List Char) :
    tokenize (')' :: cs) = (tokenize cs).map (Token.closeParen :: ·) :=
  tokenize_of_next rfl

end Lexer
end CatalogFilter
