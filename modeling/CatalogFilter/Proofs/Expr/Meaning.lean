import CatalogFilter.Proofs.Expr.Chains

/-!
# The truth of an expression

An AND holds if all its operands do, an OR if one of them does, and what any other expression says is given.
Merging chains does not change what holds, as long as it leaves the terms alone that chains are built from.

**Main definitions**: `Expr.holds` and `Expr.BuiltFrom`.  **Main statement**:
`Expr.BuiltFrom.holds_flattenChains`.
-/

namespace CatalogFilter
namespace Expr

variable {value : Expr → Bool}

/-! ## §1 Truth -/

mutual

/-- Does an expression hold, if `value` says so for all that is neither an AND nor an OR? -/
def holds (value : Expr → Bool) : Expr → Bool
  | .node .and es => allHold value es
  | .node .or es => anyHolds value es
  | e => value e

def allHold (value : Expr → Bool) : List Expr → Bool
  | [] => true
  | e :: es => holds value e && allHold value es

def anyHolds (value : Expr → Bool) : List Expr → Bool
  | [] => false
  | e :: es => holds value e || anyHolds value es

end

theorem allHold_eq_all (es : List Expr) : allHold value es = es.all (holds value) := by
  induction es with
  | nil => rfl
  | cons e es ih => simp [allHold, ih]

theorem anyHolds_eq_any (es : List Expr) : anyHolds value es = es.any (holds value) := by
  induction es with
  | nil => rfl
  | cons e es ih => simp [anyHolds, ih]

theorem holds_and_iff {es : List Expr} :
    holds value (.node .and es) = true ↔ ∀ e ∈ es, holds value e = true := by
  simp [holds, allHold_eq_all]

theorem holds_or_iff {es : List Expr} :
    holds value (.node .or es) = true ↔ ∃ e ∈ es, holds value e = true := by
  simp [holds, anyHolds_eq_any]

/-- What is no chain holds if it is said to. -/
theorem holds_of_not_chain {e : Expr} (h : ∀ (c : Connective) (es : List Expr), e ≠ .node c.operator es) :
    holds value e = value e := by
  unfold holds
  split
  · exact absurd rfl (h .and _)
  · exact absurd rfl (h .or _)
  · rfl

/-- An expression holds if all operands of the AND that it is do. -/
theorem forall_chainOf_and_iff {e : Expr} :
    (∀ t ∈ chainOf .and e, holds value t = true) ↔ holds value e = true := by
  unfold chainOf
  split
  next op es =>
    split
    next hop =>
      subst hop
      exact holds_and_iff.symm
    next => simp
  next => simp

/-- An expression holds if some operand of the OR that it is does. -/
theorem exists_chainOf_or_iff {e : Expr} :
    (∃ t ∈ chainOf .or e, holds value t = true) ↔ holds value e = true := by
  unfold chainOf
  split
  next op es =>
    split
    next hop =>
      subst hop
      exact holds_or_iff.symm
    next => simp
  next => simp

/-! ## §2 Expressions built from terms -/

/-- Chains of AND and of OR, each over at least one operand, down to given terms. -/
inductive BuiltFrom (P : Expr → Prop) : Expr → Prop
  /-- A given term. -/
  | term {e : Expr} (h : P e) : BuiltFrom P e
  /-- An AND or an OR of at least one operand. -/
  | chain (c : Connective) {es : List Expr} (ne : es ≠ []) (h : ∀ e ∈ es, BuiltFrom P e) :
      BuiltFrom P (.node c.operator es)

/-- Terms that flattening leaves alone: none is a chain, and none has a chain in it to be merged. -/
structure FlatTerms (P : Expr → Prop) : Prop where
  flat : ∀ t, P t → t.flattenChains = t
  notChain : ∀ (c : Connective) (es : List Expr), ¬ P (.node c.operator es)

namespace BuiltFrom

variable {P : Expr → Prop} {e : Expr}

/-- The operands of a chain. -/
theorem operands {c : Connective} {es : List Expr} (hP : FlatTerms P)
    (h : BuiltFrom P (.node c.operator es)) : es ≠ [] ∧ ∀ e ∈ es, BuiltFrom P e := by
  generalize hnode : Expr.node c.operator es = e at h
  -- a chain is no term, so it was built from its operands
  cases h with
  | term h =>
    subst hnode
    exact absurd h (hP.notChain c es)
  | chain _ ne h =>
    injection hnode with _ hes
    subst hes
    exact ⟨ne, h⟩

theorem chainOf (hP : FlatTerms P) (h : BuiltFrom P e) (c : Connective) :
    Expr.chainOf c.operator e ≠ [] ∧ ∀ t ∈ Expr.chainOf c.operator e, BuiltFrom P t := by
  unfold Expr.chainOf
  split
  next op es =>
    split
    next hop =>
      subst hop
      exact h.operands hP
    next => exact ⟨by simp, by simpa using h⟩
  next => exact ⟨by simp, by simpa using h⟩

/-- What is flattened is built from the same terms. -/
theorem flattenChains (hP : FlatTerms P) (h : BuiltFrom P e) : BuiltFrom P e.flattenChains := by
  -- on how the expression is built; the operands that are merged in are built from terms too
  induction h with
  | term h =>
    rw [hP.flat _ h]
    exact .term h
  | @chain c es ne _ ih =>
    rw [flattenChains_chain]
    refine .chain c ?_ ?_
    · obtain ⟨first, rest, rfl⟩ := List.exists_cons_of_ne_nil ne
      have hfirst := ((ih first (by simp)).chainOf hP c).1
      simp [hfirst]
    · intro t ht
      obtain ⟨x, hx, ht⟩ := List.mem_flatMap.1 ht
      exact ((ih x hx).chainOf hP c).2 t ht

/-- **Flattening keeps the truth.** -/
theorem holds_flattenChains (hP : FlatTerms P) (h : BuiltFrom P e) :
    holds value e.flattenChains = true ↔ holds value e = true := by
  induction h with
  | term h => rw [hP.flat _ h]
  | @chain c es _ _ ih =>
    rw [flattenChains_chain]
    -- the operands of the merged chain are those of the chains under it
    cases c with
    | and =>
      simp only [Connective.operator, holds_and_iff, List.mem_flatMap, forall_exists_index, and_imp]
      constructor
      · intro hall x hx
        exact (ih x hx).1 (forall_chainOf_and_iff.1 fun t ht => hall t x hx ht)
      · intro hall t x hx ht
        exact forall_chainOf_and_iff.2 ((ih x hx).2 (hall x hx)) t ht
    | or =>
      simp only [Connective.operator, holds_or_iff, List.mem_flatMap]
      constructor
      · rintro ⟨t, ⟨x, hx, ht⟩, hholds⟩
        exact ⟨x, hx, (ih x hx).1 (exists_chainOf_or_iff.1 ⟨t, ht, hholds⟩)⟩
      · rintro ⟨x, hx, hholds⟩
        obtain ⟨t, ht, htrue⟩ := exists_chainOf_or_iff.2 ((ih x hx).2 hholds)
        exact ⟨t, ⟨x, hx, ht⟩, htrue⟩

end BuiltFrom

end Expr
end CatalogFilter
