import CatalogFilter.Proofs.Criterion.Terms
import CatalogFilter.Proofs.Like.Spelling

/-!
# Predicates of LIKE comparisons

A comparison with LIKE has a predicate if its text spells a pattern with a wildcard that can be written as a
criterion.  What stands between two wildcards is written without them, so a backslash may stand before the
second.  The term of the predicate may be another LIKE text with another `ESCAPE` clause, but it spells the
same pattern.

**Main definition**: `Expr.like?`.  **Main statement**:
`Predicate.ofLike?_keeps_pattern`.
-/

namespace CatalogFilter

/-! ## §1 Terms of patterns -/

/-- What a LIKE compares, its text and the text of its `ESCAPE` clause, if it has one. -/
def Expr.like? : Expr → Option (Expr × List Char × Option (List Char))
  | .node .like [field, .literal .string like] => some (field, like.toList, none)
  | .node .escape [.node .like [field, .literal .string like], .literal .string escape] =>
    some (field, like.toList, some escape.toList)
  | _ => none

namespace Pattern

theorem like?_expr (field : Expr) (p : Pattern) :
    (p.expr field).like? = some (field, p.likeText, p.likeEscape) := by
  unfold expr likeEscape
  split <;> simp [Expr.binary, Expr.like?]

/-- The term of a pattern is read as a LIKE, whatever the field. -/
theorem ofString_likeSql (p : Pattern) (ref : FieldRef) :
    Expr.ofString (String.ofList (p.likeSql ref.render)) = .ok (p.expr ref.expr) :=
  (reads_likeSql ref.reads_render p).ofString

end Pattern

/-! ## §2 Patterns that are predicates -/

namespace Predicate

variable {p : Pattern} {q : Predicate}

/-- **A pattern is a predicate** if it has a wildcard, and can be written as it is or without the wildcards at
its ends. -/
theorem ofPattern?_isSome_iff :
    (ofPattern? p).isSome ↔ .wildcard ∈ p ∧
      (p.Writable ∨ ∃ middle, p = .wildcard :: (middle ++ [.wildcard]) ∧ middle ≠ [] ∧
        .wildcard ∉ middle) := by
  have hhas : p.hasWildcard = true ↔ .wildcard ∈ p := by simp [Pattern.hasWildcard]
  unfold ofPattern?
  split
  next middle hcontained =>
    obtain ⟨hp, hne, hno⟩ := Pattern.contained?_eq_some_iff.1 hcontained
    -- between two wildcards, a text without wildcards can always be written
    have hwritten : middle.toCriterion?.isSome :=
      Pattern.toCriterion?_isSome_iff.2 (Pattern.writable_of_not_hasWildcard hno)
    have hmiddle : .wildcard ∉ middle := by simpa [Pattern.hasWildcard] using hno
    have hmem : .wildcard ∈ p := by simp [hp, Pattern.anywhere]
    simp only [Option.isSome_map, hwritten, true_iff]
    exact ⟨hmem, .inr ⟨middle, hp, hne, hmiddle⟩⟩
  next hnone =>
    -- otherwise the pattern stands as it is, if that can be written
    have hnot : ¬ ∃ middle, p = .wildcard :: (middle ++ [.wildcard]) ∧ middle ≠ [] ∧ .wildcard ∉ middle := by
      rintro ⟨middle, hp, hne, hmiddle⟩
      have hno : Pattern.hasWildcard middle = false := by simpa [Pattern.hasWildcard] using hmiddle
      have hsome : p.contained? = some middle := Pattern.contained?_eq_some_iff.2 ⟨hp, hne, hno⟩
      simp [hnone] at hsome
    simp only [hnot, or_false]
    split
    next hw => simp [hhas.1 hw, Pattern.toCriterion?_isSome_iff]
    next hw => simp [mt hhas.2 hw]

/-- The predicate of a pattern stands for the comparison with that pattern. -/
theorem render_of_ofPattern? (h : ofPattern? p = some q) (field : List Char) :
    q.render field = p.likeSql field := by
  unfold ofPattern? at h
  split at h
  next middle hcontained =>
    -- the wildcards that were taken away are put back when the text is rendered
    obtain ⟨hp, -, -⟩ := Pattern.contained?_eq_some_iff.1 hcontained
    obtain ⟨text, htext, rfl⟩ := Option.map_eq_some_iff.1 h
    simp [render, Pattern.ofCriterion_of_toCriterion? htext, hp]
  next =>
    split at h
    next =>
      obtain ⟨text, htext, rfl⟩ := Option.map_eq_some_iff.1 h
      simp [render, Pattern.ofCriterion_of_toCriterion? htext]
    next => simp at h

/-! ## §3 LIKE comparisons -/

theorem ofLike?_eq_some_iff {text : List Char} {escape : Option (List Char)} :
    ofLike? text escape = some q ↔
      ∃ parts, Pattern.ofLike? text escape = some parts ∧ ofPattern? parts = some q := by
  simp [ofLike?, Option.bind_eq_some_iff]

/-- **LIKE is translated without a change to its pattern.**  The term of a pattern is read back as a LIKE whose
text and `ESCAPE` clause spell this very pattern.  A LIKE text has a predicate exactly if there is no escape
character, or this is the backslash and every escape sequence stands for a backslash or a percent sign; if
the pattern that is spelled has a wildcard; and if no backslash stands right before a wildcard in it, unless
nothing but a text without wildcards stands between two wildcards.  The term of the predicate spells the
pattern that the LIKE text spells. -/
theorem ofLike?_keeps_pattern :
    (∀ (p : Pattern) (ref : FieldRef), ∃ term text escape,
      Expr.ofString (String.ofList (p.likeSql ref.render)) = .ok term ∧
      term.like? = some (ref.expr, text, escape) ∧ Pattern.ofLike? text escape = some p) ∧
    ∀ (text : List Char) (escape : Option (List Char)),
      ((ofLike? text escape).isSome ↔
        (escape = none ∨ escape = some ['\\'] ∧ Pattern.WellEscaped text) ∧
        ∃ parts : Pattern, Pattern.Spells escape.isSome text parts ∧ .wildcard ∈ parts ∧
          (parts.Writable ∨ ∃ middle, parts = .wildcard :: (middle ++ [.wildcard]) ∧ middle ≠ [] ∧
            .wildcard ∉ middle)) ∧
      ∀ q, ofLike? text escape = some q → ∀ ref : FieldRef, ∃ parts term text' escape',
        Pattern.Spells escape.isSome text parts ∧ Pattern.ofLike? text escape = some parts ∧
        Expr.ofString (q.sql ref) = .ok term ∧ term.like? = some (ref.expr, text', escape') ∧
        Pattern.ofLike? text' escape' = some parts := by
  refine ⟨fun p ref => ⟨_, _, _, p.ofString_likeSql ref, p.like?_expr ref.expr, p.ofLike?_likeText⟩,
    fun text escape => ⟨?_, fun q hq ref => ?_⟩⟩
  · rw [← Pattern.ofLike?_isSome_iff]
    constructor
    · intro hsome
      obtain ⟨q, hq⟩ := Option.isSome_iff_exists.1 hsome
      obtain ⟨parts, hparts, hpredicate⟩ := ofLike?_eq_some_iff.1 hq
      have hform := ofPattern?_isSome_iff.1 (Option.isSome_of_mem hpredicate)
      exact ⟨Option.isSome_of_mem hparts, parts, (Pattern.ofLike?_eq_some_iff.1 hparts).2, hform⟩
    · rintro ⟨hread, parts, hspells, hform⟩
      obtain ⟨read, hread⟩ := Option.isSome_iff_exists.1 hread
      -- a text spells one pattern only
      have hparts : Pattern.ofLike? text escape = some parts :=
        Pattern.ofLike?_eq_some_iff.2 ⟨(Pattern.ofLike?_eq_some_iff.1 hread).1, hspells⟩
      obtain ⟨q, hq⟩ := Option.isSome_iff_exists.1 (ofPattern?_isSome_iff.2 hform)
      exact Option.isSome_of_mem (ofLike?_eq_some_iff.2 ⟨parts, hparts, hq⟩)
  · obtain ⟨parts, hparts, hpredicate⟩ := ofLike?_eq_some_iff.1 hq
    -- the term of the predicate is the term of its pattern, of which the first part speaks
    have hsql : q.sql ref = String.ofList (parts.likeSql ref.render) := by
      rw [sql, render_of_ofPattern? hpredicate]
    refine ⟨parts, _, _, _, (Pattern.ofLike?_eq_some_iff.1 hparts).2, hparts, ?_,
      parts.like?_expr ref.expr, parts.ofLike?_likeText⟩
    rw [hsql]
    exact parts.ofString_likeSql ref

/-- A backslash that is escaped right before the last wildcard needs no escape in the term. -/
theorem ofLike?_keeps_pattern_backslash :
    let text := "%a\\\\%".toList
    let escape := some ['\\']
    let ref : FieldRef := ⟨"Games", "name"⟩
    ofLike? text escape = some (.contains "a\\") ∧ (contains "a\\").sql ref = "Games.name LIKE '%a\\%'" ∧
    ∃ parts term text' escape',
      Pattern.Spells escape.isSome text parts ∧ Pattern.ofLike? text escape = some parts ∧
      Expr.ofString ((contains "a\\").sql ref) = .ok term ∧
      term.like? = some (ref.expr, text', escape') ∧ Pattern.ofLike? text' escape' = some parts := by
  intro text escape ref
  have hread : ofLike? text escape = some (.contains "a\\") := by decide +kernel
  have hsql : (contains "a\\").sql ref = "Games.name LIKE '%a\\%'" := by decide +kernel
  exact ⟨hread, hsql, (ofLike?_keeps_pattern.2 text escape).2 _ hread ref⟩

end Predicate
end CatalogFilter
