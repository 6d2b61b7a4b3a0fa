import CatalogFilter.Expr.Parser
import CatalogFilter.Proofs.Token.Spelling
import Mathlib.Data.List.TakeWhile

/-!
# Blanks around a text

A text means the same with and without the blanks at its two ends.  At the front they are skipped.  At the
end they separate, so a text without a fault is read as before; and a text with a fault keeps it, because
what is opened and never closed is not closed by a blank.

**Main statements**: `Lexer.tokenize_trim`, `Expr.ofString_trimmed` and `Expr.ofString_eq_empty_iff`.
-/

namespace CatalogFilter

open Text

namespace Lexer

/-! ## §1 Blanks close nothing -/

/-- Nothing but blanks. -/
def IsMargin (cs : List Char) : Prop := ∀ c ∈ cs, isBlank c = true

theorem IsMargin.separates {cs : List Char} (h : IsMargin cs) : Separates cs :=
  fun c hc => .inl (h c (List.mem_of_mem_head? hc))

theorem IsMargin.not_mem {cs : List Char} (h : IsMargin cs) {c : Char} (hc : isBlank c = false) :
    c ∉ cs := by
  intro hmem
  simp [h c hmem] at hc

theorem readDoubled_of_not_mem {d : Char} {cs : List Char} (h : d ∉ cs) :
    (readDoubled d cs).1 = none := by
  fun_induction readDoubled d cs with
  | case1 => rfl
  | case2 => simp at h
  | case3 => rfl
  | case4 => simp at h
  | case5 => simp at h
  | case6 c e cs _ found left hr ih =>
    have hnone : found = none := by simpa [hr] using ih fun hm => h (List.mem_cons_of_mem c hm)
    simp [hnone]

theorem readDoubled_append_none {d : Char} {cs tail : List Char} (h : (readDoubled d cs).1 = none)
    (ht : d ∉ tail) : (readDoubled d (cs ++ tail)).1 = none := by
  -- case by case as the text is read: only its end can look different with more behind it
  fun_induction readDoubled d cs with
  | case1 => exact readDoubled_of_not_mem ht
  | case2 => simp at h
  | case3 c hc => exact readDoubled_of_not_mem (by simp [Ne.symm hc, ht])
  | case4 cs found left hr ih =>
    have hnone : (readDoubled d (cs ++ tail)).1 = none := ih (by simpa [hr] using h)
    simp [readDoubled, hnone]
  | case5 => simp at h
  | case6 c e cs hc found left hr ih =>
    have hnone : (readDoubled d (e :: cs ++ tail)).1 = none := ih (by simpa [hr] using h)
    rw [List.cons_append] at hnone
    simp [readDoubled, hc, hnone]

theorem readDelimited_append_error {d : Char} {unclosed fault : Unclosed} {cs tail : List Char}
    (h : (readDelimited d unclosed cs).1 = .error fault) (ht : d ∉ tail) :
    (readDelimited d unclosed (cs ++ tail)).1 = .error fault := by
  unfold readDelimited at h
  split at h
  next => simp at h
  next left hr =>
    obtain rfl : unclosed = fault := by simpa using h
    -- the one fault is that nothing closes, and nothing in the tail does
    have hnone : (readDoubled d (cs ++ tail)).1 = none := readDoubled_append_none (by rw [hr]) ht
    unfold readDelimited
    split
    next hr' => simp [hr'] at hnone
    next => rfl

theorem map_eq_error {α β : Type} {f : α → β} {found : Except Unclosed α} {fault : Unclosed} :
    found.map f = .error fault ↔ found = .error fault := by
  cases found <;> simp [Except.map]

theorem readRegex_of_not_mem {cs : List Char} (h : '/' ∉ cs) :
    (readRegex cs).1 = .error .regexLiteral := by
  fun_induction readRegex cs with
  | case1 => rfl
  | case2 => simp at h
  | case3 => simp at h
  | case4 c cs _ found left hr ih =>
    have hrest : found = .error .regexLiteral := by
      simpa [hr] using ih fun hm => h (by simp [hm])
    simp [hrest, Except.map]
  | case5 c cs _ _ _ found left hr ih =>
    have hrest : found = .error .regexLiteral := by
      simpa [hr] using ih fun hm => h (by simp [hm])
    simp [hrest, Except.map]

theorem readRegex_append_error {cs tail : List Char} {fault : Unclosed}
    (h : (readRegex cs).1 = .error fault) (ht : '/' ∉ tail) :
    (readRegex (cs ++ tail)).1 = .error fault := by
  -- the fault of a regular expression comes from its end, so each case hands it on
  fun_induction readRegex cs with
  | case1 =>
    obtain rfl : Unclosed.regexLiteral = fault := by simpa using h
    exact readRegex_of_not_mem ht
  | case2 => simp at h
  | case3 cs found left hr ih =>
    have hrest := ih (by rw [hr]; exact map_eq_error.1 h)
    simp [readRegex, hrest, Except.map]
  | case4 c cs hc found left hr ih =>
    have hrest := ih (by rw [hr]; exact map_eq_error.1 h)
    simp [readRegex, hrest, Except.map]
  | case5 c cs hslash _ hother found left hr ih =>
    have hrest := ih (by rw [hr]; exact map_eq_error.1 h)
    by_cases hc : c = '\\'
    · -- a backslash at the very end, which may now stand before a blank
      subst hc
      cases cs with
      | nil =>
        obtain rfl : Unclosed.regexLiteral = fault := by
          have hend : found = .error .regexLiteral := by simpa [readRegex] using (Prod.mk.inj hr).1.symm
          simpa [hend] using map_eq_error.1 h
        exact readRegex_of_not_mem (by simp [ht])
      | cons d cs => exact absurd rfl (hother d cs rfl)
    · simp [readRegex, hc, hrest, Except.map]

theorem readBracketed_of_not_mem {cs : List Char} (h : ']' ∉ cs) :
    (readBracketed cs).1 = .error .bracketedIdentifier := by
  fun_induction readBracketed cs with
  | case1 => rfl
  | case2 => simp at h
  | case3 c cs _ found left hr ih =>
    have hrest : found = .error .bracketedIdentifier := by
      simpa [hr] using ih fun hm => h (by simp [hm])
    simp [hrest, Except.map]

theorem readBracketed_append_error {cs tail : List Char} {fault : Unclosed}
    (h : (readBracketed cs).1 = .error fault) (ht : ']' ∉ tail) :
    (readBracketed (cs ++ tail)).1 = .error fault := by
  fun_induction readBracketed cs with
  | case1 =>
    obtain rfl : Unclosed.bracketedIdentifier = fault := by simpa using h
    exact readBracketed_of_not_mem ht
  | case2 => simp at h
  | case3 c cs hc found left hr ih =>
    have hrest := ih (by rw [hr]; exact map_eq_error.1 h)
    simp [readBracketed, hc, hrest, Except.map]

/-! ## §2 A fault stays where blanks follow -/

variable {cs tail : List Char} {fault : Unclosed}

theorem readPart_append_error (h : (readPart cs).1 = .error fault) (ht : IsMargin tail) :
    (readPart (cs ++ tail)).1 = .error fault := by
  unfold readPart at h
  split at h
  next cs => exact readDelimited_append_error h (ht.not_mem (by decide))
  next cs => exact readDelimited_append_error h (ht.not_mem (by decide))
  next cs => exact readBracketed_append_error h (ht.not_mem (by decide))
  next => simp at h

theorem readName_of_error (h : (readPart cs).1 = .error fault) : (readName cs).1 = .error fault := by
  rw [readName]
  split
  next hr => simp [hr] at h
  next => exact h

theorem readName_append_error (h : (readName cs).1 = .error fault) (ht : IsMargin tail) :
    (readName (cs ++ tail)).1 = .error fault := by
  fun_induction readName cs with
  | case1 cs part next hp hn parts left hr ih =>
    -- the fault is in a part further on
    have hp' : readPart (cs ++ tail) = (.ok part, '.' :: (next ++ tail)) :=
      readPart_append hp ht.separates
    have hn' : startsPart (next ++ tail) = true := by
      cases next with
      | nil => simp [startsPart] at hn
      | cons c next => exact hn
    have hrest := ih (by rw [hr]; exact map_eq_error.1 h)
    rw [readName_of_goesOn hp' hn', hrest]
    rfl
  | case2 => simp at h
  | case3 cs hne => exact readName_of_error (readPart_append_error h ht)

theorem readWord_append_error (h : (readWord cs).1 = .error fault) (ht : IsMargin tail) :
    (readWord (cs ++ tail)).1 = .error fault := by
  unfold readWord at h ⊢
  simp only [word_append ht.separates, afterWord_append ht.separates,
    opensQuoted_append ht.separates] at h ⊢
  split at h
  next hq =>
    rw [if_pos hq]
    exact map_eq_error.2 (readName_append_error (map_eq_error.1 h) ht)
  next => simp at h

theorem readToken_append_error {c : Char} (h : (readToken c cs).1 = .error fault)
    (ht : IsMargin tail) : (readToken c (cs ++ tail)).1 = .error fault := by
  unfold readToken at h ⊢
  -- one case for each class of first characters
  split at h
  · simp at h
  rw [if_neg ‹_›]
  split at h
  · simp at h
  rw [if_neg ‹_›]
  split at h
  · rw [if_pos ‹_›]
    exact map_eq_error.2 (readDelimited_append_error (map_eq_error.1 h) (ht.not_mem (by decide)))
  rw [if_neg ‹_›]
  split at h
  · rw [if_pos ‹_›]
    exact map_eq_error.2 (readRegex_append_error (map_eq_error.1 h) (ht.not_mem (by decide)))
  rw [if_neg ‹_›]
  split at h
  · rw [if_pos ‹_›]
    exact map_eq_error.2 (readName_append_error (map_eq_error.1 h) ht)
  rw [if_neg ‹_›]
  split at h
  · simp at h
  · rw [if_neg ‹_›]
    exact readWord_append_error h ht

theorem next_append_error (h : (next cs).1 = .error fault) (ht : IsMargin tail) :
    (next (cs ++ tail)).1 = .error fault := by
  cases hs : skipBlank cs with
  | nil => simp [next, hs] at h
  | cons c left =>
    rw [next_eq_readToken hs] at h
    have hs' : skipBlank (cs ++ tail) = c :: (left ++ tail) := by
      unfold skipBlank at hs ⊢
      simp [List.dropWhile_append, hs]
    rw [next_eq_readToken hs']
    exact map_eq_error.2 (readToken_append_error (map_eq_error.1 h) ht)

theorem tokenize_of_next_error (h : (next cs).1 = .error fault) : tokenize cs = .error fault := by
  rw [tokenize]
  split <;> simp_all

theorem tokenize_append_error (h : tokenize cs = .error fault) (ht : IsMargin tail) :
    tokenize (cs ++ tail) = .error fault := by
  -- up to the token that is at fault, every token is read as before
  fun_induction tokenize cs with
  | case1 cs unclosed rest hn =>
    obtain rfl : unclosed = fault := by simpa using h
    exact tokenize_of_next_error (next_append_error (by rw [hn]) ht)
  | case2 => simp at h
  | case3 cs token rest hn ih =>
    rw [tokenize_of_next (next_append hn ht.separates), ih (map_eq_error.1 h)]
    rfl

/-! ## §3 Both ends -/

theorem tokenize_margin {margin : List Char} (h : IsMargin margin) : tokenize margin = .ok [] := by
  induction margin with
  | nil => exact tokenize_nil
  | cons c margin ih =>
    rw [tokenize_cons_of_isBlank (h c (by simp))]
    exact ih fun d hd => h d (by simp [hd])

theorem tokenize_append_margin (cs : List Char) (ht : IsMargin tail) :
    tokenize (cs ++ tail) = tokenize cs := by
  -- a fault stays, and the last token is separated from nothing else
  cases h : tokenize cs with
  | error fault => exact tokenize_append_error h ht
  | ok tokens =>
    rw [tokenize_append_ok h ht.separates (tokenize_margin ht), List.append_nil]

theorem tokenize_margin_append (cs : List Char) {margin : List Char} (h : IsMargin margin) :
    tokenize (margin ++ cs) = tokenize cs := by
  induction margin with
  | nil => rfl
  | cons c margin ih =>
    rw [List.cons_append, tokenize_cons_of_isBlank (h c (by simp))]
    exact ih fun d hd => h d (by simp [hd])

/-- A text is its trimmed form between two margins. -/
theorem exists_margins (cs : List Char) :
    ∃ front back, cs = front ++ (trim cs ++ back) ∧ IsMargin front ∧ IsMargin back := by
  refine ⟨cs.takeWhile isBlank, ((skipBlank cs).reverse.takeWhile isBlank).reverse, ?_, ?_, ?_⟩
  · have hback : trim cs ++ ((skipBlank cs).reverse.takeWhile isBlank).reverse = skipBlank cs := by
      rw [trim, dropBlankEnd, ← List.reverse_append, List.takeWhile_append_dropWhile,
        List.reverse_reverse]
    rw [hback]
    exact List.takeWhile_append_dropWhile.symm
  · intro c hc
    exact List.mem_takeWhile_imp hc
  · intro c hc
    exact List.mem_takeWhile_imp (List.mem_reverse.1 hc)

/-- **Blanks around a text change no token of it.** -/
theorem tokenize_trim (cs : List Char) : tokenize (trim cs) = tokenize cs := by
  obtain ⟨front, back, hcs, hfront, hback⟩ := exists_margins cs
  calc tokenize (trim cs)
      = tokenize (trim cs ++ back) := (tokenize_append_margin (trim cs) hback).symm
    _ = tokenize (front ++ (trim cs ++ back)) := (tokenize_margin_append _ hfront).symm
    _ = tokenize cs := by rw [← hcs]

/-- A text without tokens is blank. -/
theorem trim_of_tokenize_nil (h : tokenize cs = .ok []) : trim cs = [] := by
  have hblank : skipBlank cs = [] := by
    rw [tokenize] at h
    split at h
    next => simp at h
    next rest hn => exact skipBlank_of_next_none hn
    next token rest hn =>
      obtain ⟨left, _, hcons⟩ : ∃ left, tokenize rest = .ok left ∧ token :: left = [] := by
        cases hr : tokenize rest <;> simp [hr, Except.map] at h
      cases hcons
  rw [trim, hblank]
  rfl

end Lexer

namespace Expr

/-- **Blanks around a filter change nothing of what it is read as.** -/
theorem ofString_trimmed (text : String) : ofString (trimmed text) = ofString text := by
  unfold ofString parse
  rw [trimmed, String.toList_ofList, Lexer.tokenize_trim]

theorem ofTokens_eq_empty_iff {tokens : List Token} : ofTokens tokens = .error .empty ↔ tokens = [] := by
  unfold ofTokens parseAt
  cases tokens with
  | nil => simp
  | cons token tokens =>
    simp only [List.isEmpty_cons, Bool.false_eq_true, if_false, reduceCtorEq, iff_false]
    split <;> simp

/-- A filter is empty exactly if it is blank. -/
theorem ofString_eq_empty_iff {text : String} : ofString text = .error .empty ↔ trimmed text = "" := by
  have hblank : trimmed text = "" ↔ trim text.toList = [] := by
    rw [← String.toList_inj, trimmed, String.toList_ofList, String.toList_empty]
  rw [hblank, ofString, parse]
  constructor
  · -- a filter is empty if it has no tokens, and a text without tokens is blank
    intro h
    cases ht : Lexer.tokenize text.toList with
    | error unclosed => simp [ht] at h
    | ok tokens =>
      rw [ht] at h
      obtain rfl : tokens = [] := ofTokens_eq_empty_iff.1 h
      exact Lexer.trim_of_tokenize_nil ht
  · intro h
    rw [← Lexer.tokenize_trim, h, Lexer.tokenize_nil]
    exact ofTokens_eq_empty_iff.2 rfl

end Expr

end CatalogFilter
