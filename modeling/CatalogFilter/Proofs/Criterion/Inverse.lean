import CatalogFilter.Proofs.Catalog.Resolution
import CatalogFilter.Proofs.Criterion.Terms

/-!
# The criterion of a predicate

Each predicate has one criterion, which has no blanks but those of a value, a pattern or a text.  Blanks
around a symbol are lost, and with them a border that only they made: in `> =5` a value that begins with an
equals sign stands after a greater-than sign, and without the blank these two are one symbol.  Everything
else that a criterion says is said by the criterion of its predicate.

**Main definition**: `Predicate.RunsTogether`.  **Main statement**: `Predicate.ofCriterion?_criterion_iff`.
-/

namespace CatalogFilter

open Text

/-! ## §1 Numbers in criteria -/

theorem inNumber_of_isNumeric {cs : List Char} (h : isNumeric cs = true) :
    ∀ c ∈ cs, Lexer.inNumber c = true := by
  simp only [isNumeric, Bool.and_eq_true] at h
  exact Lexer.inNumber_of_isNumber h.1

theorem trimmedEnds_of_isNumeric {cs : List Char} (h : isNumeric cs = true) : TrimmedEnds cs := by
  have hblank : ∀ c ∈ cs, isBlank c = false := fun c hc =>
    Lexer.isBlank_of_not_isWordBreak (Lexer.isWordBreak_of_inNumber (inNumber_of_isNumeric h c hc))
  exact ⟨fun c hc => hblank c (List.mem_of_mem_head? hc),
    fun c hc => hblank c (List.mem_of_getLast? hc)⟩

namespace Predicate

/-- Two numbers around a `~` are a range. -/
theorem range?_numbers {low high : List Char} (hl : isNumeric low = true) (hh : isNumeric high = true) :
    range? (low ++ '~' :: high) = some (.between (String.ofList low) (String.ofList high)) := by
  have hno : '~' ∉ low := by
    intro hmem
    have htilde := inNumber_of_isNumeric hl '~' hmem
    revert htilde
    decide
  -- a number has no `~`, so the text is cut between the two
  have hcut : splitFirst '~' (low ++ '~' :: high) = some (low, high) :=
    splitFirst_eq_some_iff.2 ⟨rfl, hno⟩
  simp [range?, hcut, trim_of_trimmedEnds (trimmedEnds_of_isNumeric hl),
    trim_of_trimmedEnds (trimmedEnds_of_isNumeric hh), hl, hh]

/-- A text that does not begin as a number does is no range. -/
theorem range?_eq_none {c : Char} (hblank : isBlank c = false) (hc : Lexer.inNumber c = false)
    (cs : List Char) : range? (c :: cs) = none := by
  unfold range?
  split
  next low high hcut =>
    obtain ⟨htext, _⟩ := splitFirst_eq_some_iff.1 hcut
    -- what stands before the `~` begins as the text does
    have hlow : isNumeric (trim low) = false := by
      apply Bool.eq_false_iff.2
      intro hnumeric
      cases low with
      | nil => simp [trim, skipBlank, dropBlankEnd, isNumeric, isNumber, dropSign, leadingDigits] at hnumeric
      | cons d low =>
        obtain ⟨rfl, _⟩ : c = d ∧ _ := by simpa using htext
        obtain ⟨ds, hds⟩ := exists_trim_cons hblank low
        rw [hds] at hnumeric
        simp [inNumber_of_isNumeric hnumeric c (by simp)] at hc
    simp [hlow]
  next => rfl

end Predicate

/-! ## §2 Symbols and what follows them -/

namespace Comparison

theorem eq_of_leading? {text rest : List Char} {c : Comparison} (h : leading? text = some (c, rest)) :
    text = c.symbol.toList ++ rest := by
  obtain ⟨c', _, hafter⟩ := List.exists_of_findSome?_eq_some h
  obtain ⟨rest', hrest, heq⟩ := Option.map_eq_some_iff.1 hafter
  obtain ⟨rfl, rfl⟩ : c' = c ∧ rest' = rest := by simpa using heq
  unfold after? at hrest
  split at hrest
  next hprefix =>
    obtain rfl : text.drop c'.symbol.toList.length = rest' := by simpa using hrest
    obtain ⟨tail, rfl⟩ := List.isPrefixOf_iff_prefix.1 hprefix
    simp
  next => simp at hrest

/-- A symbol is read as itself, unless the text goes on with the rest of a longer one. -/
theorem leading?_symbol {c : Comparison} {value : List Char}
    (h : ∀ d ∈ value.head?, ∀ longer : Comparison, longer.symbol.toList ≠ c.symbol.toList ++ [d]) :
    leading? (c.symbol.toList ++ value) = some (c, value) := by
  cases value with
  | nil => cases c <;> decide
  | cons d value =>
    have hd := h d rfl
    cases c with
    -- only `>` and `<` are the beginning of longer symbols
    | gt =>
      have hequal : '=' ≠ d := by
        rintro rfl
        exact hd .ge rfl
      simp [leading?, all, after?, symbol, hequal]
    | lt =>
      have hequal : '=' ≠ d := by
        rintro rfl
        exact hd .le rfl
      have hgreater : '>' ≠ d := by
        rintro rfl
        exact hd .ne rfl
      simp [leading?, all, after?, symbol, hequal, hgreater]
    | eq | ne | le | ge => simp [leading?, all, after?, symbol]

/-- A longer symbol is read instead of a shorter one. -/
theorem leading?_longer {c longer : Comparison} {d : Char}
    (h : longer.symbol.toList = c.symbol.toList ++ [d]) (value : List Char) :
    leading? (c.symbol.toList ++ d :: value) = some (longer, value) := by
  have hform : c.symbol.toList ++ d :: value = longer.symbol.toList ++ value := by simp [h]
  rw [hform]
  apply leading?_symbol
  -- no symbol has three characters
  intro e _ longest hlongest
  have hlength := congrArg List.length hlongest
  rw [h] at hlength
  cases c <;> cases longest <;> simp [symbol] at hlength

theorem exists_symbol_cons (c : Comparison) :
    ∃ d ds, c.symbol.toList = d :: ds ∧ isBlank d = false ∧ Lexer.inNumber d = false ∧ d ≠ '/' := by
  cases c <;> exact ⟨_, _, rfl, by decide⟩

end Comparison

namespace Predicate

/-- A text that begins with a symbol is a comparison. -/
theorem ofTrimmed_of_leading? {text rest : List Char} {c : Comparison}
    (h : Comparison.leading? text = some (c, rest)) :
    ofTrimmed text = ofComparison c (trim rest) := by
  obtain ⟨d, ds, hsymbol, hblank, hnumber, hslash⟩ := c.exists_symbol_cons
  have htext : text = d :: (ds ++ rest) := by
    rw [Comparison.eq_of_leading? h, hsymbol]
    rfl
  have hrange : range? text = none := by
    rw [htext]
    exact range?_eq_none hblank hnumber _
  have hregexp : regexp? text = none := by
    rw [htext]
    simp [regexp?, hslash]
  simp [ofTrimmed, hrange, hregexp, comparison?, h]

theorem ofComparison_eq_compare {c c' : Comparison} {value : List Char} {value' : String}
    (h : ofComparison c value = .compare c' value') : c = c' ∧ String.ofList value = value' := by
  unfold ofComparison at h
  split at h
  · cases c <;> simp at h <;> simp [h]
  · simpa using h

/-- A comparison with a value asks for no value, for some value, or for the comparison. -/
theorem ofComparison_cases (c : Comparison) (value : List Char) :
    ofComparison c value = .isNull ∨ ofComparison c value = .isNotNull ∨
      ofComparison c value = .compare c (String.ofList value) := by
  unfold ofComparison
  split
  · cases c <;> simp
  · simp

/-! ## §3 What criteria are -/

/-- A criterion is a range or a comparison, or it is the criterion of its predicate. -/
theorem ofTrimmed_cases (text : List Char) :
    (∃ low high, isNumeric low = true ∧ isNumeric high = true ∧
      ofTrimmed text = .between (String.ofList low) (String.ofList high)) ∨
    (∃ c rest, ofTrimmed text = ofComparison c (trim rest)) ∨
    (ofTrimmed text).criterion = String.ofList text ∧ ∀ c value, ofTrimmed text ≠ .compare c value := by
  -- in the order in which the forms are tried
  cases hrange : range? text with
  | some p =>
    have hp : ofTrimmed text = p := by simp [ofTrimmed, hrange]
    obtain ⟨low, high, hl, hh, rfl⟩ := exists_of_range? hrange
    exact .inl ⟨low, high, hl, hh, hp⟩
  | none =>
    cases hregexp : regexp? text with
    | some p =>
      have hp : ofTrimmed text = p := by simp [ofTrimmed, hrange, hregexp]
      obtain ⟨pattern, rfl, rfl⟩ := exists_of_regexp? hregexp
      rw [hp]
      refine .inr (.inr ⟨?_, by simp⟩)
      rw [← String.toList_inj]
      simp [criterion]
    | none =>
      cases hleading : Comparison.leading? text with
      | some found =>
        obtain ⟨c, rest⟩ := found
        exact .inr (.inl ⟨c, rest, ofTrimmed_of_leading? hleading⟩)
      | none =>
        have hp : ofTrimmed text = ofPatternText text := by
          simp [ofTrimmed, hrange, hregexp, comparison?, hleading]
        rw [hp, ofPatternText]
        split <;> exact .inr (.inr ⟨rfl, by simp⟩)

theorem ofCriterion?_of_trimmedEnds {criterion : String} (h : TrimmedEnds criterion.toList)
    (hne : criterion.toList ≠ []) : ofCriterion? criterion = some (ofTrimmed criterion.toList) := by
  obtain ⟨c, cs, hcs⟩ := List.exists_cons_of_ne_nil hne
  rw [ofCriterion?, classify?, trim_of_trimmedEnds h, hcs]

theorem exists_ofTrimmed {text : String} {p : Predicate} (h : ofCriterion? text = some p) :
    trim text.toList ≠ [] ∧ ofTrimmed (trim text.toList) = p := by
  unfold ofCriterion? classify? at h
  split at h
  next => simp at h
  next c cs hcs =>
    rw [hcs]
    exact ⟨List.cons_ne_nil c cs, by simpa using h⟩

theorem ofCriterion?_trim {cs : List Char} (h : trim cs ≠ []) :
    ofCriterion? (String.ofList (trim cs)) = some (ofTrimmed (trim cs)) := by
  have htrim : TrimmedEnds (String.ofList (trim cs)).toList := by
    rw [String.toList_ofList]
    exact trimmedEnds_trim cs
  rw [ofCriterion?_of_trimmedEnds htrim (by simpa using h), String.toList_ofList]

/-! ## §4 Criteria that are read as their predicates -/

/-- Does the value of a comparison go on with its symbol, so that the two make a longer symbol? -/
def RunsTogether : Predicate → Prop
  | .compare comparison value =>
    ∃ d ∈ value.toList.head?, ∃ longer : Comparison,
      longer.symbol.toList = comparison.symbol.toList ++ [d]
  | _ => False

/-- The criterion of a range is read as the range. -/
theorem ofCriterion?_criterion_between {low high : List Char} (hl : isNumeric low = true)
    (hh : isNumeric high = true) :
    ofCriterion? (criterion (.between (String.ofList low) (String.ofList high))) =
      some (.between (String.ofList low) (String.ofList high)) := by
  have hform : (criterion (.between (String.ofList low) (String.ofList high))).toList =
      low ++ '~' :: high := by simp [criterion]
  have htrim : TrimmedEnds (low ++ '~' :: high) := by
    have htilde : TrimmedEnds ['~'] := by decide
    have hall := (trimmedEnds_of_isNumeric hl).append (htilde.append (trimmedEnds_of_isNumeric hh))
    simpa using hall
  rw [ofCriterion?_of_trimmedEnds (by rwa [hform]) (by simp [hform]), hform]
  simp [ofTrimmed, range?_numbers hl hh]

theorem trimmedEnds_symbol (c : Comparison) : TrimmedEnds c.symbol.toList := by
  cases c <;> decide

theorem ofCriterion?_criterion_compare {c : Comparison} {value : String}
    (htrim : TrimmedEnds value.toList)
    (hof : ofComparison c value.toList = .compare c value) :
    ofCriterion? (criterion (.compare c value)) = some (.compare c value) ↔
      ¬ RunsTogether (.compare c value) := by
  have htext : (criterion (.compare c value)).toList = c.symbol.toList ++ value.toList := by
    simp [criterion]
  have hread : ofCriterion? (criterion (.compare c value)) =
      some (ofTrimmed (c.symbol.toList ++ value.toList)) := by
    obtain ⟨d, ds, hsymbol, _⟩ := c.exists_symbol_cons
    rw [← htext]
    apply ofCriterion?_of_trimmedEnds
    · rw [htext]
      exact (trimmedEnds_symbol c).append htrim
    · simp [htext, hsymbol]
  rw [hread, Option.some.injEq]
  constructor
  · rintro hsame ⟨d, hd, longer, hlonger⟩
    obtain ⟨rest, hrest⟩ := List.head?_eq_some_iff.1 hd
    rw [hrest, ofTrimmed_of_leading? (Comparison.leading?_longer hlonger rest)] at hsame
    -- the symbol would be longer than itself
    obtain ⟨rfl, _⟩ := ofComparison_eq_compare hsame
    simp at hlonger
  · -- the symbol ends where it was written, so the value is what follows
    intro hapart
    have hleading := Comparison.leading?_symbol fun d hd longer hlonger =>
      hapart ⟨d, hd, longer, hlonger⟩
    rw [ofTrimmed_of_leading? hleading, trim_of_trimmedEnds htrim, hof]

/-- **A predicate's criterion is read as the predicate**, unless it is a comparison whose value goes on with
its symbol. -/
theorem ofCriterion?_criterion_iff {text : String} {p : Predicate} (h : ofCriterion? text = some p) :
    ofCriterion? p.criterion = some p ↔ ¬ p.RunsTogether := by
  obtain ⟨hne, rfl⟩ := exists_ofTrimmed h
  rcases ofTrimmed_cases (trim text.toList) with ⟨low, high, hl, hh, hp⟩ | ⟨c, rest, hp⟩ | ⟨htext, hp⟩
  · -- a range, written without blanks
    rw [hp, ofCriterion?_criterion_between hl hh]
    simp [RunsTogether]
  · -- a comparison, whose value is trimmed
    rw [hp]
    rcases ofComparison_cases c (trim rest) with hnull | hnotNull | hcompare
    · rw [hnull]
      simp only [RunsTogether, not_false_eq_true, iff_true]
      decide
    · rw [hnotNull]
      simp only [RunsTogether, not_false_eq_true, iff_true]
      decide
    · rw [hcompare]
      apply ofCriterion?_criterion_compare
      · rw [String.toList_ofList]
        exact trimmedEnds_trim rest
      · rwa [String.toList_ofList]
  · -- anything else is written as it was read
    have hapart : ¬ (ofTrimmed (trim text.toList)).RunsTogether := by
      intro htogether
      cases hform : ofTrimmed (trim text.toList) with
      | compare c value => exact hp c value hform
      | between | regexp | isNull | isNotNull | like | contains => simp [hform, RunsTogether] at htogether
    rw [htext, ofCriterion?_trim hne]
    simp [hapart]

/-- A range with blanks around its numbers. -/
theorem ofCriterion?_criterion_range :
    ofCriterion? " 10 ~ 20 " = some (.between "10" "20") ∧
      (ofCriterion? (criterion (.between "10" "20")) = some (.between "10" "20") ↔
        ¬ RunsTogether (.between "10" "20")) := by
  have hread : ofCriterion? " 10 ~ 20 " = some (.between "10" "20") := by decide
  exact ⟨hread, ofCriterion?_criterion_iff hread⟩

/-- Without its blank, `> =5` is another comparison. -/
theorem ofCriterion?_criterion_greater :
    ofCriterion? "> =5" = some (.compare .gt "=5") ∧
      criterion (.compare .gt "=5") = ">=5" ∧ ofCriterion? ">=5" = some (.compare .ge "5") := by
  decide

end Predicate
end CatalogFilter
