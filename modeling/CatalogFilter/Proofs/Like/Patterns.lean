import CatalogFilter.Like.Pattern

/-!
# Patterns and their texts

A pattern has two written forms, and both are read back: the criterion text as the text it came from, the
LIKE text as the pattern.  A criterion text is cut into parts wherever no escape stands across the cut.

**Main statements**: `Pattern.toCriterion?_ofCriterion`, `Pattern.ofCriterion_of_toCriterion?` and
`Pattern.ofLike?_likeText`.
-/

namespace CatalogFilter
namespace Pattern

/-! ## §1 LIKE texts are read back -/

theorem ofPlainLike_likeText {p : Pattern} (h : PatternPart.char '%' ∉ p) :
    ofPlainLike (p.flatMap (partText false)) = p := by
  induction p with
  | nil => rfl
  | cons part p ih =>
    have hrest := ih fun hm => h (List.mem_cons_of_mem part hm)
    cases part with
    | wildcard => simp [partText, ofPlainLike, hrest]
    | char c =>
      have hc : c ≠ '%' := by
        rintro rfl
        exact h List.mem_cons_self
      simp [partText, ofPlainLike, hrest]

theorem ofEscapedLike?_likeText (p : Pattern) :
    ofEscapedLike? (p.flatMap (partText true)) = some p := by
  induction p with
  | nil => rfl
  | cons part p ih =>
    cases part with
    | wildcard => simp [partText, ofEscapedLike?, ih]
    | char c =>
      -- an escaped backslash, an escaped percent sign, or any other character
      by_cases hback : c = '\\'
      · subst hback
        simp [partText, ofEscapedLike?, ih]
      · by_cases hpercent : c = '%'
        · subst hpercent
          simp [partText, ofEscapedLike?, ih]
        · simp [partText, ofEscapedLike?, hback, hpercent, ih]

/-- **A LIKE text with the `ESCAPE` clause that it needs is read as its pattern.** -/
theorem ofLike?_likeText (p : Pattern) : ofLike? p.likeText p.likeEscape = some p := by
  unfold likeText likeEscape
  cases h : p.needsEscape with
  | true => exact ofEscapedLike?_likeText p
  | false =>
    have hnot : PatternPart.char '%' ∉ p := by simpa [needsEscape] using h
    simp [ofLike?, ofPlainLike_likeText hnot]

/-! ## §2 Criterion texts are read back -/

theorem ofCriterion_cons {c : Char} {cs : List Char} (hpercent : c ≠ '%')
    (hback : c = '\\' → cs.head? ≠ some '%') :
    ofCriterion (c :: cs) = .char c :: ofCriterion cs := by
  rw [ofCriterion.eq_4 c cs (fun ds hc hds => hback hc (by simp [hds])) hpercent]

/-- No backslash is left before a wildcard: before a percent sign it is read with it. -/
theorem head?_ofCriterion_ne {cs : List Char} (h : cs.head? ≠ some '%') :
    (ofCriterion cs).head? ≠ some .wildcard := by
  fun_cases ofCriterion cs with
  | case1 => simp
  | case2 cs => simp
  | case3 cs => simp at h
  | case4 c cs _ _ => simp

theorem toCriterion?_cons {c : Char} {p : Pattern} (hpercent : c ≠ '%')
    (h : c = '\\' → p.head? ≠ some .wildcard) :
    toCriterion? (.char c :: p) = (toCriterion? p).map (c :: ·) := by
  by_cases hc : c = '\\'
  · subst hc
    cases p with
    | nil => rfl
    | cons part p =>
      cases part with
      | wildcard => exact absurd rfl (h rfl)
      | char d => simp [toCriterion?]
  · simp [toCriterion?, hc]

/-- **A criterion text is the text of its pattern.** -/
theorem toCriterion?_ofCriterion (cs : List Char) : toCriterion? (ofCriterion cs) = some cs := by
  fun_induction ofCriterion cs with
  | case1 => rfl
  | case2 cs ih => simp [toCriterion?, ih]
  | case3 cs ih => simp [toCriterion?, ih]
  | case4 c cs hback hpercent ih =>
    have hhead : c = '\\' → (ofCriterion cs).head? ≠ some .wildcard := by
      intro hc
      apply head?_ofCriterion_ne
      intro h
      obtain ⟨ds, rfl⟩ := List.head?_eq_some_iff.1 h
      exact hback ds hc rfl
    rw [toCriterion?_cons hpercent hhead, ih]
    rfl

/-- **A pattern that has a criterion text is the pattern of that text.** -/
theorem ofCriterion_of_toCriterion? {p : Pattern} {text : List Char} (h : toCriterion? p = some text) :
    ofCriterion text = p := by
  fun_induction toCriterion? p generalizing text with
  | case1 =>
    obtain rfl : [] = text := by simpa using h
    rfl
  | case2 p ih =>
    obtain ⟨rest, hrest, rfl⟩ := Option.map_eq_some_iff.1 h
    show .wildcard :: ofCriterion rest = .wildcard :: p
    rw [ih hrest]
  | case3 p ih =>
    obtain ⟨rest, hrest, rfl⟩ := Option.map_eq_some_iff.1 h
    show .char '%' :: ofCriterion rest = .char '%' :: p
    rw [ih hrest]
  | case4 => simp at h
  | case5 c p hpercent hback ih =>
    obtain ⟨rest, hrest, rfl⟩ := Option.map_eq_some_iff.1 h
    have hpattern := ih hrest
    -- an unescaped percent sign after the backslash would have come from a wildcard
    have hhead : c = '\\' → rest.head? ≠ some '%' := by
      intro hc hp
      obtain ⟨ds, rfl⟩ := List.head?_eq_some_iff.1 hp
      exact hback (ofCriterion ds) hpattern.symm hc
    rw [ofCriterion_cons hpercent hhead, hpattern]

theorem ofCriterion_ne_nil {cs : List Char} (h : cs ≠ []) : ofCriterion cs ≠ [] := by
  intro hnil
  have htext := toCriterion?_ofCriterion cs
  rw [hnil] at htext
  exact h (by simpa [toCriterion?] using htext.symm)

/-! ## §3 Cutting criterion texts -/

/-- A criterion text may be cut wherever no escaped percent sign stands across the cut. -/
theorem ofCriterion_append {cs ds : List Char}
    (h : cs.getLast? ≠ some '\\' ∨ ds.head? ≠ some '%') :
    ofCriterion (cs ++ ds) = ofCriterion cs ++ ofCriterion ds := by
  fun_induction ofCriterion cs with
  | case1 => rfl
  | case2 cs ih =>
    have hrest := ih (h.imp_left fun hl he => hl (by simp [List.getLast?_cons, he]))
    simp [ofCriterion, hrest]
  | case3 cs ih =>
    have hrest := ih (h.imp_left fun hl he => hl (by simp [List.getLast?_cons, he]))
    simp [ofCriterion, hrest]
  | case4 c cs hback hpercent ih =>
    have hrest := ih (h.imp_left fun hl he => hl (by simp [List.getLast?_cons, he]))
    -- the character is a backslash before the cut: no percent sign may follow
    have hhead : c = '\\' → (cs ++ ds).head? ≠ some '%' := by
      intro hc
      cases cs with
      | nil => exact h.resolve_left fun hl => hl (by simp [hc])
      | cons d cs =>
        have hd : d ≠ '%' := fun hd => hback cs hc (by rw [hd])
        simpa using hd
    rw [List.cons_append, ofCriterion_cons hpercent hhead, hrest]
    rfl

/-! ## §4 Texts between two wildcards -/

/-- A criterion text that begins and ends with a wildcard, with something between them that has no further
one.  A percent sign after a backslash is no wildcard. -/
def Enclosed (cs : List Char) : Prop :=
  ∃ inner, cs = '%' :: (inner ++ ['%']) ∧ inner ≠ [] ∧ inner.getLast? ≠ some '\\' ∧
    ∀ before after, inner = before ++ '%' :: after → before.getLast? = some '\\'

/-- A pattern that ends with a wildcard has a text that does. -/
theorem exists_of_ofCriterion_append {cs : List Char} {p : Pattern}
    (h : ofCriterion cs = p ++ [.wildcard]) :
    ∃ inner, cs = inner ++ ['%'] ∧ inner.getLast? ≠ some '\\' ∧ ofCriterion inner = p := by
  rcases List.eq_nil_or_concat cs with rfl | ⟨inner, c, rfl⟩
  · simp [ofCriterion] at h
  rw [List.concat_eq_append] at h ⊢
  by_cases hc : c = '%'
  · subst hc
    by_cases hl : inner.getLast? = some '\\'
    · -- the percent sign belongs to the backslash before it
      obtain ⟨front, rfl⟩ := List.getLast?_eq_some_iff.1 hl
      have hcut : ofCriterion (front ++ ['\\', '%']) = ofCriterion front ++ [.char '%'] :=
        ofCriterion_append (.inr (by simp))
      have happend : front ++ ['\\'] ++ ['%'] = front ++ ['\\', '%'] := by simp
      rw [happend, hcut] at h
      exact absurd (List.append_inj_right' h rfl) (by simp)
    · have hcut : ofCriterion (inner ++ ['%']) = ofCriterion inner ++ [.wildcard] :=
        ofCriterion_append (.inl hl)
      rw [hcut] at h
      exact ⟨inner, rfl, hl, List.append_cancel_right h⟩
  · have hcut : ofCriterion (inner ++ [c]) = ofCriterion inner ++ [.char c] := by
      rw [ofCriterion_append (.inr (by simpa using hc)), ofCriterion_cons hc (by simp)]
      rfl
    rw [hcut] at h
    exact absurd (List.append_inj_right' h rfl) (by simp)

theorem getLast?_of_no_wildcard {before after : List Char}
    (h : (ofCriterion (before ++ '%' :: after)).hasWildcard = false) :
    before.getLast? = some '\\' := by
  apply Decidable.of_not_not
  intro hl
  rw [ofCriterion_append (.inl hl)] at h
  simp [hasWildcard, ofCriterion] at h

theorem contained?_eq_some_iff {p q : Pattern} :
    contained? q = some p ↔ q = p.anywhere ∧ p ≠ [] ∧ p.hasWildcard = false := by
  constructor
  · intro h
    unfold contained? at h
    split at h
    next ps =>
      simp only at h
      split at h
      next hinner =>
        obtain ⟨hlast, hne, hno⟩ := hinner
        obtain ⟨front, rfl⟩ := List.getLast?_eq_some_iff.1 hlast
        obtain rfl : front = p := by simpa using h
        exact ⟨rfl, by simpa using hne, by simpa using hno⟩
      next => simp at h
    next => simp at h
  · rintro ⟨rfl, hne, hno⟩
    simp [anywhere, contained?, hne, hno]

/-- A pattern asks for a contained text only if its own text is one between two wildcards. -/
theorem enclosed_of_contained? {cs : List Char} {p : Pattern}
    (h : (ofCriterion cs).contained? = some p) : Enclosed cs := by
  obtain ⟨hanywhere, hne, hno⟩ := contained?_eq_some_iff.1 h
  -- the first wildcard is the first character of the text
  obtain ⟨ds, rfl, hds⟩ : ∃ ds, cs = '%' :: ds ∧ ofCriterion ds = p ++ [.wildcard] := by
    unfold anywhere at hanywhere
    fun_cases ofCriterion cs with
    | case1 => simp [ofCriterion] at hanywhere
    | case2 ds => simp [ofCriterion] at hanywhere
    | case3 ds => exact ⟨ds, rfl, by simpa [ofCriterion] using hanywhere⟩
    | case4 c ds hback hpercent =>
      rw [ofCriterion.eq_4 c ds hback hpercent] at hanywhere
      simp at hanywhere
  obtain ⟨inner, rfl, hlast, rfl⟩ := exists_of_ofCriterion_append hds
  refine ⟨inner, rfl, fun hnil => hne (by simp [hnil, ofCriterion]), hlast, ?_⟩
  rintro before after rfl
  exact getLast?_of_no_wildcard hno

/-- A wildcard comes from a percent sign that does not stand after a backslash. -/
theorem exists_of_wildcard_mem {cs : List Char} (h : .wildcard ∈ ofCriterion cs) :
    ∃ before after, cs = before ++ '%' :: after ∧ before.getLast? ≠ some '\\' := by
  fun_induction ofCriterion cs with
  | case1 => simp at h
  | case2 cs ih =>
    obtain ⟨before, after, rfl, hlast⟩ := ih (by simpa using h)
    refine ⟨'\\' :: '%' :: before, after, rfl, ?_⟩
    cases before with
    | nil => simp
    | cons b before => simpa [List.getLast?_cons] using hlast
  | case3 cs => exact ⟨[], cs, rfl, by simp⟩
  | case4 c cs hback hpercent ih =>
    obtain ⟨before, after, rfl, hlast⟩ := ih (by simpa using h)
    refine ⟨c :: before, after, rfl, ?_⟩
    cases before with
    | nil =>
      intro hc
      exact hback after (by simpa using hc) rfl
    | cons b before => simpa [List.getLast?_cons] using hlast

/-- The pattern of a text between two wildcards asks for what stands between them. -/
theorem contained?_of_enclosed {inner : List Char} (h : Enclosed ('%' :: (inner ++ ['%']))) :
    (ofCriterion ('%' :: (inner ++ ['%']))).contained? = some (ofCriterion inner) := by
  obtain ⟨inner', heq, hne, hlast, hescaped⟩ := h
  obtain rfl : inner = inner' := by simpa using heq
  have hpattern : ofCriterion ('%' :: (inner ++ ['%'])) = (ofCriterion inner).anywhere := by
    show .wildcard :: ofCriterion (inner ++ ['%']) = _
    rw [ofCriterion_append (.inl hlast)]
    rfl
  have hno : (ofCriterion inner).hasWildcard = false := by
    apply Bool.eq_false_iff.2
    intro hw
    obtain ⟨before, after, hinner, hb⟩ := exists_of_wildcard_mem (by simpa [hasWildcard] using hw)
    exact hb (hescaped before after hinner)
  exact contained?_eq_some_iff.2 ⟨hpattern, ofCriterion_ne_nil hne, hno⟩

end Pattern
end CatalogFilter
