import CatalogFilter.Expr.Flatten
import CatalogFilter.Proofs.Expr.Written

/-!
# Chains of AND and of OR

A chain is written the same way and flattens the same way, however its links are grouped.  So chains can be
joined: where one derivation of a chain ends and another begins after a joint, there is a derivation of
both, and its tree has the operands of both.

**Main statement**: `Derives.join`.
-/

namespace CatalogFilter

/-! ## §1 Flattening, one operator at a time -/

namespace Expr

/-- Induction over expressions: what holds of all operands holds of the node over them. -/
theorem operandsInduction {P : Expr → Prop}
    (node : ∀ op es, (∀ e ∈ es, P e) → P (.node op es)) (name : ∀ text, P (.name text))
    (literal : ∀ kind value, P (.literal kind value)) (e : Expr) : P e :=
  @Expr.rec P (fun es => ∀ e ∈ es, P e) node name literal (by simp)
    (fun _ _ he hes => List.forall_mem_cons.2 ⟨he, hes⟩) e

theorem merged_true (op : Operator) (e : Expr) : merged op true e = chainOf op e := by
  cases e <;> simp [merged, chainOf]

theorem merged_false (op : Operator) (e : Expr) : merged op false e = [e] := by
  cases e <;> simp [merged]

theorem flatten_node (target op : Operator) (es : List Expr) :
    flatten target (.node op es) =
      .node op (if op = target then es.flatMap fun e => chainOf target (flatten target e)
        else es.map (flatten target)) := by
  have hmap : (es.flatMap fun e => [flatten target e]) = es.map (flatten target) := by
    induction es with
    | nil => rfl
    | cons e es ih => simp [ih]
  -- merging happens right under the operator itself, and nowhere else
  by_cases h : op = target
  · simp [flatten, flattenAll_eq_flatMap, h, merged_true]
  · simp [flatten, flattenAll_eq_flatMap, h, merged_false, hmap]

/-- Flattening one operator leaves the operands of another where they are. -/
theorem chainOf_flatten {op target : Operator} (h : op ≠ target) (e : Expr) :
    chainOf op (flatten target e) = (chainOf op e).map (flatten target) := by
  cases e with
  | node op' es =>
    rw [flatten_node]
    by_cases hop : op' = op
    · simp [chainOf, hop, h]
    · simp [chainOf, hop, flatten_node]
  | name text => rfl
  | literal kind value => rfl

@[simp] theorem flattenChains_name (text : String) : flattenChains (.name text) = .name text := rfl

@[simp] theorem flattenChains_literal (kind : LiteralKind) (value : String) :
    flattenChains (.literal kind value) = .literal kind value := rfl

/-- A chain has the operands of the chains under it. -/
theorem flattenChains_chain (c : Connective) (es : List Expr) :
    flattenChains (.node c.operator es) =
      .node c.operator (es.flatMap fun e => chainOf c.operator e.flattenChains) := by
  -- AND is merged first, OR after it, and neither touches the other
  cases c with
  | and =>
    simp [flattenChains, Connective.operator, flatten_node, List.map_flatMap, chainOf_flatten]
  | or => simp [flattenChains, Connective.operator, flatten_node, List.flatMap_map]

/-- Any other operator has its own operands. -/
theorem flattenChains_node {op : Operator} (h : ∀ c : Connective, op ≠ c.operator) (es : List Expr) :
    flattenChains (.node op es) = .node op (es.map flattenChains) := by
  have hand : op ≠ .and := h .and
  have hor : op ≠ .or := h .or
  simp [flattenChains, flatten_node, hand, hor]

@[simp] theorem chainOf_self (op : Operator) (es : List Expr) : chainOf op (.node op es) = es := by
  simp [chainOf]

theorem flattenChains_binary (c : Connective) (left right : Expr) :
    flattenChains (.binary c.operator left right) =
      .node c.operator
        (chainOf c.operator left.flattenChains ++ chainOf c.operator right.flattenChains) := by
  simp [binary, flattenChains_chain]

/-- Operands joined by an operator; one alone needs none. -/
def joined (op : Operator) : List Expr → Expr
  | [e] => e
  | es => .node op es

end Expr

/-! ## §2 Joining chains -/

/-- **Chains can be joined.**  The links of the second chain go on with the first, one after the other, and
this is flattened and written as a chain of the two chains would be. -/
theorem Derives.join {c : Connective} {joint : Token} {ts us : List Token} {left right : Expr}
    (hl : Derives (.chain c) ts left) (hj : joint.kind = .operator c.keyword)
    (hr : Derives (.chain c) us right) :
    ∃ l r, Derives (.chain c) (ts ++ joint :: us) (.binary c.operator l r) ∧
      (Expr.binary c.operator l r).flattenChains =
        (Expr.binary c.operator left right).flattenChains ∧
      (Expr.binary c.operator l r).render = (Expr.binary c.operator left right).render := by
  generalize hlevel : Level.chain c = level at hr
  -- by the links of the second chain
  induction hr with
  | first h =>
    cases hlevel
    exact ⟨_, _, hl.joined hj h, rfl, rfl⟩
  | @joined _ joint' rs rs' r r' h hj' hlink ih _ =>
    cases hlevel
    obtain ⟨x, y, hx, hflat, hform⟩ := ih rfl
    refine ⟨.binary c.operator x y, r', ?_, ?_, ?_⟩
    · simpa using hx.joined hj' hlink
    · simp [Expr.flattenChains_binary c (.binary c.operator x y), hflat, Expr.flattenChains_binary]
    · simp [Expr.render_joined c (.binary c.operator x y), Expr.placed_joined, hform,
        Expr.render_joined, joinedBy]
  | name | literal | group | compared | between | operand | test | escaped | plain | negated =>
    cases hlevel

end CatalogFilter
