import CatalogFilter.Proofs.Like.Patterns

/-!
# What a LIKE text spells

A LIKE text spells a pattern, sign by sign.  Without an escape character every percent sign is a wildcard and
every other character stands for itself.  With the backslash as the escape character, a backslash or a percent
sign after a backslash stands for itself, and a backslash before anything else spells nothing.  No other
escape character is understood.

Not every pattern has a criterion text: a backslash right before a wildcard cannot be written there.  The
others have one each, and every text is the text of one of them.

**Main definitions**: `Pattern.Spells`, `Pattern.WellEscaped` and `Pattern.Writable`.
**Main statements**: `Pattern.ofLike?_eq_some_iff`, `Pattern.toCriterion?_isSome_iff` and
`Pattern.criterion_bijection`.
-/

namespace CatalogFilter
namespace Pattern

variable {escaped : Bool} {cs text : List Char} {p : Pattern}

/-! ## §1 Spelling -/

/-- What a LIKE text spells, with the backslash as its escape character or without one. -/
inductive Spells (escaped : Bool) : List Char → Pattern → Prop
  | nil : Spells escaped [] []
  | wildcard {cs : List Char} {p : Pattern} (rest : Spells escaped cs p) :
      Spells escaped ('%' :: cs) (.wildcard :: p)
  | plain {c : Char} {cs : List Char} {p : Pattern} (percent : c ≠ '%') (back : escaped = true → c ≠ '\\')
      (rest : Spells escaped cs p) : Spells escaped (c :: cs) (.char c :: p)
  | escape {c : Char} {cs : List Char} {p : Pattern} (on : escaped = true) (special : c = '\\' ∨ c = '%')
      (rest : Spells escaped cs p) : Spells escaped ('\\' :: c :: cs) (.char c :: p)

/-- Is every escape sequence, read from the left, a backslash before a backslash or a percent sign? -/
inductive WellEscaped : List Char → Prop
  | nil : WellEscaped []
  | plain {c : Char} {cs : List Char} (back : c ≠ '\\') (rest : WellEscaped cs) : WellEscaped (c :: cs)
  | escape {c : Char} {cs : List Char} (special : c = '\\' ∨ c = '%') (rest : WellEscaped cs) :
      WellEscaped ('\\' :: c :: cs)

theorem spells_ofPlainLike (cs : List Char) : Spells false cs (ofPlainLike cs) := by
  fun_induction ofPlainLike cs with
  | case1 => exact .nil
  | case2 cs ih => exact .wildcard ih
  | case3 c cs hpercent ih => exact .plain hpercent (by simp) ih

theorem ofPlainLike_eq_of_spells (h : Spells false cs p) : ofPlainLike cs = p := by
  induction h with
  | nil => rfl
  | wildcard _ ih => simp [ofPlainLike, ih]
  | plain percent _ _ ih => simp [ofPlainLike, ih]
  -- there is no escape character
  | escape on => simp at on

theorem spells_of_ofEscapedLike? (h : ofEscapedLike? cs = some p) : Spells true cs p := by
  fun_induction ofEscapedLike? cs generalizing p with
  | case1 =>
    obtain rfl : [] = p := by simpa using h
    exact .nil
  | case2 cs ih =>
    obtain ⟨q, hq, rfl⟩ := Option.map_eq_some_iff.1 h
    exact .escape rfl (.inl rfl) (ih hq)
  | case3 cs ih =>
    obtain ⟨q, hq, rfl⟩ := Option.map_eq_some_iff.1 h
    exact .escape rfl (.inr rfl) (ih hq)
  | case4 => simp at h
  | case5 cs ih =>
    obtain ⟨q, hq, rfl⟩ := Option.map_eq_some_iff.1 h
    exact .wildcard (ih hq)
  | case6 c cs _ _ hback hpercent ih =>
    obtain ⟨q, hq, rfl⟩ := Option.map_eq_some_iff.1 h
    exact .plain hpercent (fun _ => hback) (ih hq)

theorem ofEscapedLike?_eq_of_spells (h : Spells true cs p) : ofEscapedLike? cs = some p := by
  induction h with
  | nil => rfl
  | wildcard _ ih => simp [ofEscapedLike?, ih]
  | plain percent back _ ih => simp [ofEscapedLike?, back, ih]
  | escape _ special _ ih => rcases special with rfl | rfl <;> simp [ofEscapedLike?, ih]

/-- **A LIKE text is read as what it spells**, with the backslash as its escape character or without one. -/
theorem ofLike?_eq_some_iff {escape : Option (List Char)} :
    ofLike? text escape = some p ↔
      (escape = none ∨ escape = some ['\\']) ∧ Spells escape.isSome text p := by
  unfold ofLike?
  split
  next =>
    simp only [Option.some.injEq, true_or, true_and, Option.isSome_none]
    constructor
    · rintro rfl
      exact spells_ofPlainLike text
    · exact ofPlainLike_eq_of_spells
  next =>
    simp only [reduceCtorEq, or_true, true_and, Option.isSome_some]
    exact ⟨spells_of_ofEscapedLike?, ofEscapedLike?_eq_of_spells⟩
  next other hother =>
    have hne : other ≠ ['\\'] := hother
    simp [hne]

theorem exists_spells_iff : (∃ p, Spells true text p) ↔ WellEscaped text := by
  constructor
  · rintro ⟨p, h⟩
    induction h with
    | nil => exact .nil
    | wildcard _ ih => exact .plain (by decide) ih
    | plain _ back _ ih => exact .plain (back rfl) ih
    | escape _ special _ ih => exact .escape special ih
  · intro h
    induction h with
    | nil => exact ⟨[], .nil⟩
    | @plain c cs back _ ih =>
      obtain ⟨p, hp⟩ := ih
      by_cases hpercent : c = '%'
      · subst hpercent
        exact ⟨.wildcard :: p, .wildcard hp⟩
      · exact ⟨.char c :: p, .plain hpercent (fun _ => back) hp⟩
    | @escape c cs special _ ih =>
      obtain ⟨p, hp⟩ := ih
      exact ⟨.char c :: p, .escape rfl special hp⟩

/-- A LIKE text spells nothing only for another escape character, or for an escape sequence that is none. -/
theorem ofLike?_isSome_iff {escape : Option (List Char)} :
    (ofLike? text escape).isSome ↔ escape = none ∨ escape = some ['\\'] ∧ WellEscaped text := by
  simp only [Option.isSome_iff_exists, ofLike?_eq_some_iff, exists_and_left]
  constructor
  · rintro ⟨rfl | rfl, h⟩
    · exact .inl rfl
    · exact .inr ⟨rfl, exists_spells_iff.1 h⟩
  · rintro (rfl | ⟨rfl, h⟩)
    · exact ⟨.inl rfl, _, spells_ofPlainLike text⟩
    · exact ⟨.inr rfl, exists_spells_iff.2 h⟩

/-! ## §2 Patterns with a criterion text -/

/-- No backslash of the pattern stands right before a wildcard. -/
def Writable (p : Pattern) : Prop := ∀ before after, p ≠ before ++ .char '\\' :: .wildcard :: after

theorem writable_cons_iff {part : PatternPart} :
    Writable (part :: p) ↔ (part = .char '\\' → p.head? ≠ some .wildcard) ∧ Writable p := by
  constructor
  · -- a backslash at the head, or one further on
    intro h
    constructor
    · intro hpart hhead
      obtain ⟨after, rfl⟩ := List.head?_eq_some_iff.1 hhead
      exact h [] after (by simp [hpart])
    · rintro before after rfl
      exact h (part :: before) after rfl
  · rintro ⟨hhead, hp⟩ before after heq
    cases before with
    | nil =>
      -- the two would be the head and the first of the rest
      obtain ⟨hpart, rfl⟩ := List.cons.inj heq
      exact hhead hpart rfl
    | cons first before =>
      -- both stand in the rest
      obtain ⟨-, htail⟩ := List.cons.inj heq
      exact hp before after htail

/-- **A pattern has a criterion text exactly if no backslash stands right before a wildcard.** -/
theorem toCriterion?_isSome_iff : (toCriterion? p).isSome ↔ Writable p := by
  fun_induction toCriterion? p with
  | case1 => simp [Writable]
  | case2 p ih => simp [writable_cons_iff, ih]
  | case3 p ih => simp [writable_cons_iff, ih]
  -- the only case without a text: a backslash before a wildcard
  | case4 p => simp [writable_cons_iff]
  | case5 c p hpercent hback ih =>
    -- any other sign is written, since it is no such backslash
    have hhead : c = '\\' → p.head? ≠ some .wildcard := by
      intro hc hhead
      obtain ⟨after, rfl⟩ := List.head?_eq_some_iff.1 hhead
      exact hback after rfl hc
    simpa [writable_cons_iff, ih] using fun _ => hhead

/-- What has no wildcard has a criterion text. -/
theorem writable_of_not_hasWildcard (h : p.hasWildcard = false) : Writable p := by
  rintro before after rfl
  simp [hasWildcard] at h

/-- What is read from a criterion text has a criterion text, for it has the one from which it was read. -/
theorem writable_ofCriterion (cs : List Char) : Writable (ofCriterion cs) := by
  rw [← toCriterion?_isSome_iff, toCriterion?_ofCriterion]
  rfl

/-- A pattern has no other criterion text than the one of which it is the pattern. -/
theorem toCriterion?_eq_some_iff : toCriterion? p = some text ↔ ofCriterion text = p := by
  constructor
  · exact ofCriterion_of_toCriterion?
  · rintro rfl
    exact toCriterion?_ofCriterion text

/-- **Criterion texts and writable patterns correspond one to one.**  Every text is the text of its pattern,
which has no backslash right before a wildcard.  And a pattern has a text exactly if it has no such backslash,
and then it is the pattern of that text and of no other. -/
theorem criterion_bijection :
    (∀ text, toCriterion? (ofCriterion text) = some text ∧ Writable (ofCriterion text)) ∧
    ∀ p, ((∃ text, toCriterion? p = some text) ↔ Writable p) ∧
      ∀ text, toCriterion? p = some text ↔ ofCriterion text = p := by
  refine ⟨fun text => ⟨toCriterion?_ofCriterion text, writable_ofCriterion text⟩, fun p => ⟨?_, ?_⟩⟩
  · rw [← Option.isSome_iff_exists, toCriterion?_isSome_iff]
  · exact fun text => toCriterion?_eq_some_iff

end Pattern
end CatalogFilter
