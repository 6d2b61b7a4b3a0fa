import CatalogFilter.Proofs.Criterion.Terms
import CatalogFilter.Proofs.Like.Matching

/-!
# Texts that contain a criterion

A criterion that has none of the other forms asks for the texts that contain what it stands for.  Its term is
a LIKE between two wildcards: the backslashes and percent signs of the criterion are escaped where they have
to be, and the quotes are doubled, but the underscores are left as they are, and stand for any character.  So
the term accepts every text that contains what the criterion stands for; it accepts no other text exactly if
the criterion has no underscore.

**Main definition**: `Expr.likeTest?`.  **Main statement**: `Predicate.likeTest?_contains`.
-/

namespace CatalogFilter

open Text

/-- What a LIKE compares, and which texts it accepts.  The text of an `ESCAPE` clause is one character. -/
def Expr.likeTest? : Expr → Option (Expr × (List Char → Bool))
  | .node .like [field, .literal .string like] => some (field, likeAccepts none like.toList)
  | .node .escape [.node .like [field, .literal .string like], .literal .string escape] =>
    match escape.toList with
    | [c] => some (field, likeAccepts (some c) like.toList)
    | _ => none
  | _ => none

/-- The comparison with a pattern accepts what its LIKE text accepts with the escape character that it
needs. -/
theorem Pattern.likeTest?_expr (field : Expr) (p : Pattern) :
    (p.expr field).likeTest? = some (field, likeAccepts p.escapeChar p.likeText) := by
  unfold expr escapeChar
  split <;> simp [Expr.binary, Expr.likeTest?]

namespace Predicate

/-- **What a criterion accepts that asks for a contained text.**  Its term is read as a LIKE on its field,
which accepts the texts that have a part that the characters of the criterion cover, with an escaped percent
sign for a percent sign.  These are all the texts that contain what the criterion stands for, in either case,
and no others exactly if it has no underscore. -/
theorem likeTest?_contains {criterion v : String} (h : ofCriterion? criterion = some (.contains v))
    (ref : FieldRef) :
    ∃ term accepts, Expr.ofString ((contains v).sql ref) = .ok term ∧
      term.likeTest? = some (ref.expr, accepts) ∧
      (∀ text, accepts text = true ↔
        ∃ part, part <:+: text ∧ List.Forall₂ Pattern.Covers (Pattern.literalText v.toList) part) ∧
      (∀ text, upperCase (Pattern.literalText v.toList) <:+: upperCase text → accepts text = true) ∧
      ((∀ text, accepts text = true → upperCase (Pattern.literalText v.toList) <:+: upperCase text) ↔
        '_' ∉ v.toList) := by
  have hwell := wellFormed_of_ofCriterion? h
  -- the pattern between the wildcards is one of characters only
  have hpattern : (Pattern.ofCriterion v.toList).anywhere =
      Pattern.anywhere ((Pattern.literalText v.toList).map .char) := by
    rw [Pattern.ofCriterion_eq_map_literalText hwell.2]
  refine ⟨_, _, ofString_sql hwell ref, Pattern.likeTest?_expr ref.expr _, ?_, ?_, ?_⟩
  · exact fun text => Pattern.likeAccepts_anywhere_iff hpattern
  · exact fun text => Pattern.likeAccepts_of_contains hpattern
  · rw [Pattern.contains_of_likeAccepts_iff hpattern, Pattern.underscore_mem_literalText_iff]

/-- A percent sign, a quote and a backslash: nothing but what contains them is accepted. -/
theorem likeTest?_contains_escaped :
    let v := "50\\% o'x\\y"
    let ref : FieldRef := ⟨"Games", "name"⟩
    ofCriterion? "  50\\% o'x\\y " = some (.contains v) ∧
    ∃ term accepts, Expr.ofString ((contains v).sql ref) = .ok term ∧
      term.likeTest? = some (ref.expr, accepts) ∧
      ∀ text, accepts text = true ↔ upperCase "50% o'x\\y".toList <:+: upperCase text := by
  intro v ref
  have hread : ofCriterion? "  50\\% o'x\\y " = some (.contains v) := by decide +kernel
  obtain ⟨term, accepts, hterm, htest, _, hall, honly⟩ := likeTest?_contains hread ref
  have hliteral : Pattern.literalText v.toList = "50% o'x\\y".toList := by decide +kernel
  have hunder : '_' ∉ v.toList := by decide +kernel
  -- the general statement speaks of the literal text, which is computed here
  rw [hliteral] at hall honly
  exact ⟨hread, term, accepts, hterm, htest, fun text => ⟨honly.2 hunder text, hall text⟩⟩

/-- An underscore accepts another character. -/
theorem likeTest?_contains_underscore :
    let ref : FieldRef := ⟨"Games", "name"⟩
    ofCriterion? "a_b" = some (.contains "a_b") ∧
    ∃ term accepts, Expr.ofString ((contains "a_b").sql ref) = .ok term ∧
      term.likeTest? = some (ref.expr, accepts) ∧ accepts "axb".toList = true ∧
      ¬ upperCase (Pattern.literalText "a_b".toList) <:+: upperCase "axb".toList := by
  intro ref
  have hread : ofCriterion? "a_b" = some (.contains "a_b") := by decide +kernel
  have hterm := ofString_sql (wellFormed_of_ofCriterion? hread) ref
  have htest := Pattern.likeTest?_expr ref.expr (Pattern.ofCriterion "a_b".toList).anywhere
  exact ⟨hread, _, _, hterm, htest, by decide +kernel, by decide +kernel⟩

end Predicate
end CatalogFilter
