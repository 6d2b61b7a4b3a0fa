/-!
# Cutting a text at a separator

Two ways to cut a text in two: at the first and at the last place where a separator stands.  Both
answer nothing when the separator does not occur.
-/

namespace CatalogFilter.Text

def splitFirst (sep : Char) : List Char → Option (List Char × List Char)
  | [] => none
  | c :: cs =>
    if c = sep then some ([], cs)
    else (splitFirst sep cs).map fun (before, after) => (c :: before, after)

def splitLast (sep : Char) : List Char → Option (List Char × List Char)
  | [] => none
  | c :: cs =>
    match splitLast sep cs with
    | some (before, after) => some (c :: before, after)
    | none => if c = sep then some ([], cs) else none

/-! ## §1 The cut at the first separator -/

theorem splitFirst_eq_none_iff {sep : Char} {cs : List Char} :
    splitFirst sep cs = none ↔ sep ∉ cs := by
  induction cs with
  | nil => simp [splitFirst]
  | cons c cs ih =>
    by_cases h : c = sep
    · simp [splitFirst, h]
    · simp [splitFirst, h, ih, Ne.symm h]

/-- A cut at the first separator puts the text back together, and its first part has none. -/
theorem splitFirst_eq_some_iff {sep : Char} {cs before after : List Char} :
    splitFirst sep cs = some (before, after) ↔ cs = before ++ sep :: after ∧ sep ∉ before := by
  induction cs generalizing before with
  | nil => simp [splitFirst]
  | cons c cs ih =>
    by_cases h : c = sep
    · cases before with
      | nil => simp [splitFirst, h]
      | cons b bs => simp [splitFirst, h]; rintro rfl; simp
    · cases before with
      | nil => simp [splitFirst, h]
      | cons b bs =>
        simp only [splitFirst, if_neg h, Option.map_eq_some_iff, Prod.exists, Prod.mk.injEq,
          List.cons.injEq, List.cons_append, List.mem_cons, not_or]
        constructor
        · rintro ⟨x, y, hxy, ⟨rfl, rfl⟩, rfl⟩
          obtain ⟨rfl, hx⟩ := ih.1 hxy
          exact ⟨⟨rfl, rfl⟩, Ne.symm h, hx⟩
        · rintro ⟨⟨rfl, rfl⟩, _, hb⟩
          exact ⟨bs, after, ih.2 ⟨rfl, hb⟩, ⟨rfl, rfl⟩, rfl⟩

/-! ## §2 The cut at the last separator -/

theorem splitLast_eq_none_iff {sep : Char} {cs : List Char} :
    splitLast sep cs = none ↔ sep ∉ cs := by
  induction cs with
  | nil => simp [splitLast]
  | cons c cs ih =>
    unfold splitLast
    split
    next before after hs =>
      have : sep ∈ cs := Decidable.of_not_not fun hn => by simp [ih.2 hn] at hs
      simp [this]
    next hs =>
      have := ih.1 hs
      by_cases h : c = sep
      · simp [h]
      · simp [h, this, Ne.symm h]

/-- A cut at the last separator puts the text back together, and its second part has none. -/
theorem splitLast_eq_some_iff {sep : Char} {cs before after : List Char} :
    splitLast sep cs = some (before, after) ↔ cs = before ++ sep :: after ∧ sep ∉ after := by
  induction cs generalizing before after with
  | nil => simp [splitLast]
  | cons c cs ih =>
    unfold splitLast
    split
    next x y hs =>
      obtain ⟨rfl, hy⟩ := ih.1 hs
      cases before with
      | nil =>
        simp only [Option.some.injEq, Prod.mk.injEq, List.nil_append, List.cons.injEq]
        constructor
        · rintro ⟨h, _⟩; cases h
        · rintro ⟨⟨_, rfl⟩, h⟩; simp at h
      | cons b bs =>
        simp only [Option.some.injEq, Prod.mk.injEq, List.cons.injEq, List.cons_append]
        constructor
        · rintro ⟨⟨rfl, rfl⟩, rfl⟩; exact ⟨⟨rfl, rfl⟩, hy⟩
        · rintro ⟨⟨rfl, he⟩, ha⟩
          have := ih.2 ⟨he, ha⟩
          rw [hs] at this
          simpa using this
    next hs =>
      have hn := splitLast_eq_none_iff.1 hs
      cases before with
      | nil =>
        by_cases h : c = sep
        · subst h
          simp only [ite_true, Option.some.injEq, Prod.mk.injEq, true_and, List.nil_append,
            List.cons.injEq]
          constructor
          · rintro rfl; exact ⟨rfl, hn⟩
          · rintro ⟨rfl, _⟩; rfl
        · simp [h]
      | cons b bs =>
        constructor
        · intro h; split at h <;> simp at h
        · rintro ⟨h, _⟩
          simp only [List.cons_append, List.cons.injEq] at h
          exact absurd (h.2 ▸ by simp) hn

end CatalogFilter.Text
