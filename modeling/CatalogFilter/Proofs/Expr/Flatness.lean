import CatalogFilter.Proofs.Expr.Chains
import Mathlib.Data.List.Basic

/-!
# Flat expressions

An expression is flat for an operator if no node of the operator stands right under another one.  Flattening
makes every expression flat, whatever its operators and however many operands they have, and changes nothing
else: what is flat already stays as it is, the leaves stay in their order, and what is flat for another
operator remains so.  Flattening for two operators can therefore be done in either order.

**Main definitions**: `Expr.Flat` and `Expr.leaves`.  **Main statement**: `Expr.flatten_normal`.
-/

namespace CatalogFilter
namespace Expr

variable {op target : Operator} {e : Expr} {es : List Expr}

/-! ## §1 Flat expressions -/

/-- Does an expression stand in another one, at any depth, or is it the whole of it? -/
inductive Within (e : Expr) : Expr → Prop
  /-- It is the whole of it. -/
  | whole : Within e e
  /-- It stands in an operand. -/
  | operand {op : Operator} {child : Expr} {es : List Expr} (mem : child ∈ es) (inner : Within e child) :
      Within e (.node op es)

/-- No node of an operator has an operand that is a node of the same operator. -/
def Flat (op : Operator) (e : Expr) : Prop :=
  ∀ es, Within (.node op es) e → ∀ child ∈ es, ∀ inner, child ≠ .node op inner

/-- A node is flat if its operands are, and none of them is a node of the operator right under it. -/
theorem flat_node_iff :
    Flat target (.node op es) ↔
      (op = target → ∀ child ∈ es, ∀ inner, child ≠ .node target inner) ∧
        ∀ child ∈ es, Flat target child := by
  constructor
  · intro h
    constructor
    · rintro rfl
      exact h es .whole
    · intro child hc xs hxs
      exact h xs (.operand hc hxs)
  · -- a node within is the node itself, or stands within an operand
    rintro ⟨hunder, hes⟩ xs hxs
    cases hxs with
    | whole => exact hunder rfl
    | operand hc hinner => exact hes _ hc xs hinner

theorem flat_name (op : Operator) (text : String) : Flat op (.name text) := by
  rintro es ⟨⟩

theorem flat_literal (op : Operator) (kind : LiteralKind) (value : String) :
    Flat op (.literal kind value) := by
  rintro es ⟨⟩

/-- What is no node of an operator is a chain of its own. -/
theorem chainOf_eq_self (h : ∀ inner, e ≠ .node op inner) : chainOf op e = [e] := by
  cases e with
  | node op' es =>
    have hop : op' ≠ op := by
      rintro rfl
      exact h es rfl
    simp [chainOf, hop]
  | name text => rfl
  | literal kind value => rfl

/-- The operands of a flat chain are flat, and none of them is a chain again. -/
theorem Flat.chainOf (h : Flat op e) :
    ∀ child ∈ chainOf op e, (∀ inner, child ≠ .node op inner) ∧ Flat op child := by
  by_cases hop : ∃ es, e = .node op es
  · obtain ⟨es, rfl⟩ := hop
    obtain ⟨hunder, hes⟩ := flat_node_iff.1 h
    rw [chainOf_self]
    exact fun child hc => ⟨hunder rfl child hc, hes child hc⟩
  · have hnot : ∀ inner, e ≠ .node op inner := fun inner hinner => hop ⟨inner, hinner⟩
    rw [chainOf_eq_self hnot]
    intro child hc
    obtain rfl : child = e := by simpa using hc
    exact ⟨hnot, h⟩

/-! ## §2 Flattening makes flat -/

/-- **What has been flattened is flat.** -/
theorem flat_flatten (target : Operator) (e : Expr) : Flat target (flatten target e) := by
  induction e using operandsInduction with
  | name text => exact flat_name target text
  | literal kind value => exact flat_literal target kind value
  | node op es ih =>
    rw [flatten_node, flat_node_iff]
    -- the operands of a merged chain were flat where they stood before
    by_cases hop : op = target
    · have hmerged : ∀ child ∈ es.flatMap fun e => chainOf target (flatten target e),
          (∀ inner, child ≠ .node target inner) ∧ Flat target child := by
        intro child hc
        obtain ⟨e, he, hc⟩ := List.mem_flatMap.1 hc
        exact (ih e he).chainOf child hc
      rw [if_pos hop]
      exact ⟨fun _ child hc => (hmerged child hc).1, fun child hc => (hmerged child hc).2⟩
    · rw [if_neg hop]
      refine ⟨fun h => absurd h hop, ?_⟩
      rw [List.forall_mem_map]
      exact ih

/-- **What is flat stays as it is.** -/
theorem flatten_of_flat (h : Flat target e) : flatten target e = e := by
  induction e using operandsInduction with
  | name text => rfl
  | literal kind value => rfl
  | node op es ih =>
    obtain ⟨hunder, hes⟩ := flat_node_iff.1 h
    rw [flatten_node]
    by_cases hop : op = target
    · have hchains : (es.flatMap fun e => Expr.chainOf target (flatten target e)) =
          es.flatMap fun e => [e] := by
        apply List.flatMap_congr
        intro child hc
        rw [ih child hc (hes child hc), chainOf_eq_self (hunder hop child hc)]
      rw [if_pos hop, hchains, List.flatMap_singleton']
    · have hmap : es.map (flatten target) = es.map id :=
        List.map_congr_left fun child hc => ih child hc (hes child hc)
      rw [if_neg hop, hmap, List.map_id]

theorem flatten_eq_self_iff : flatten target e = e ↔ Flat target e := by
  constructor
  · intro h
    rw [← h]
    exact flat_flatten target e
  · exact flatten_of_flat

/-! ## §3 Two operators -/

/-- Operands that can be flattened in either order are merged in either order. -/
theorem flatten_comm_chain (h : op ≠ target)
    (hes : ∀ e ∈ es, flatten op (flatten target e) = flatten target (flatten op e)) :
    flatten op (flatten target (.node op es)) = flatten target (flatten op (.node op es)) := by
  -- the operands that are merged in are the same, flattened for the other operator
  have hoperands : ∀ e ∈ es, Expr.chainOf op (flatten op (flatten target e)) =
      (Expr.chainOf op (flatten op e)).map (flatten target) := by
    intro e he
    rw [hes e he, chainOf_flatten h]
  calc flatten op (flatten target (.node op es))
      = .node op (es.flatMap fun e => Expr.chainOf op (flatten op (flatten target e))) := by
        rw [flatten_node target, if_neg h, flatten_node op, if_pos rfl, List.flatMap_map]
    _ = .node op (es.flatMap fun e => (Expr.chainOf op (flatten op e)).map (flatten target)) := by
        rw [List.flatMap_congr hoperands]
    _ = flatten target (flatten op (.node op es)) := by
        rw [flatten_node op, if_pos rfl, flatten_node target, if_neg h, List.map_flatMap]

/-- **Flattening for one operator and for another can be done in either order.** -/
theorem flatten_comm (h : op ≠ target) (e : Expr) :
    flatten op (flatten target e) = flatten target (flatten op e) := by
  induction e using operandsInduction with
  | name text => rfl
  | literal kind value => rfl
  | node op' es ih =>
    by_cases hop : op' = op
    · rw [hop]
      exact flatten_comm_chain h ih
    · by_cases htarget : op' = target
      · rw [htarget]
        exact (flatten_comm_chain h.symm fun e he => (ih e he).symm).symm
      · -- a node of neither operator is only walked through
        have hall : es.map (fun e => flatten op (flatten target e)) =
            es.map (fun e => flatten target (flatten op e)) := List.map_congr_left ih
        simp only [flatten_node, if_neg hop, if_neg htarget, List.map_map, Function.comp_def, hall]

/-- Flattening leaves flat what is flat for another operator. -/
theorem Flat.flatten (h : op ≠ target) (hflat : Flat op e) : Flat op (flatten target e) := by
  rw [← flatten_eq_self_iff, flatten_comm h, flatten_of_flat hflat]

theorem flat_flattenChains (e : Expr) : Flat .and (flattenChains e) ∧ Flat .or (flattenChains e) :=
  ⟨(flat_flatten .and e).flatten (by decide), flat_flatten .or (Expr.flatten .and e)⟩

theorem flattenChains_eq_self_iff : flattenChains e = e ↔ Flat .and e ∧ Flat .or e := by
  constructor
  · intro h
    rw [← h]
    exact flat_flattenChains e
  · rintro ⟨hand, hor⟩
    rw [flattenChains, flatten_of_flat hand, flatten_of_flat hor]

/-! ## §4 Leaves -/

mutual

/-- The leaves of an expression, from left to right. -/
def leaves : Expr → List Expr
  | .node _ es => leavesOfAll es
  | .name text => [.name text]
  | .literal kind value => [.literal kind value]

/-- The leaves of a list of expressions. -/
def leavesOfAll : List Expr → List Expr
  | [] => []
  | e :: es => leaves e ++ leavesOfAll es

end

theorem leavesOfAll_eq_flatMap (es : List Expr) : leavesOfAll es = es.flatMap leaves := by
  induction es with
  | nil => rfl
  | cons e es ih => simp [leavesOfAll, ih]

theorem leaves_node (op : Operator) (es : List Expr) : leaves (.node op es) = es.flatMap leaves := by
  rw [leaves, leavesOfAll_eq_flatMap]

theorem leaves_chainOf (op : Operator) (e : Expr) : (Expr.chainOf op e).flatMap leaves = leaves e := by
  unfold Expr.chainOf
  split
  · split <;> simp [leaves_node]
  · simp

/-- **Flattening keeps the leaves**, from left to right. -/
theorem leaves_flatten (target : Operator) (e : Expr) : leaves (flatten target e) = leaves e := by
  induction e using operandsInduction with
  | name text => rfl
  | literal kind value => rfl
  | node op es ih =>
    have hall : es.flatMap (fun e => leaves (flatten target e)) = es.flatMap leaves :=
      List.flatMap_congr ih
    rw [flatten_node, leaves_node, leaves_node, ← hall]
    -- merged or not, a chain has the leaves of its operands
    split
    · simp only [List.flatMap_assoc, leaves_chainOf]
    · rw [List.flatMap_map]

theorem leaves_flattenChains (e : Expr) : leaves (flattenChains e) = leaves e := by
  rw [flattenChains, leaves_flatten, leaves_flatten]

/-! ## §5 Normal forms -/

/-- **Flattening brings every expression into a normal form.**  For each operator, what has been flattened
has no node of the operator right under another one, keeps its leaves, and is not changed again; nothing else
is left unchanged.  The same holds for AND and OR together, whichever of them is merged first. -/
theorem flatten_normal (e : Expr) :
    (∀ target, Flat target (flatten target e) ∧
      flatten target (flatten target e) = flatten target e ∧
      (flatten target e = e ↔ Flat target e) ∧
      leaves (flatten target e) = leaves e) ∧
    Flat .and (flattenChains e) ∧ Flat .or (flattenChains e) ∧
    flattenChains (flattenChains e) = flattenChains e ∧
    (flattenChains e = e ↔ Flat .and e ∧ Flat .or e) ∧
    flattenChains e = flatten .and (flatten .or e) ∧
    leaves (flattenChains e) = leaves e := by
  obtain ⟨hand, hor⟩ := flat_flattenChains e
  refine ⟨fun target => ?_, hand, hor, flattenChains_eq_self_iff.2 ⟨hand, hor⟩,
    flattenChains_eq_self_iff, flatten_comm (by decide) e, leaves_flattenChains e⟩
  have hflat := flat_flatten target e
  exact ⟨hflat, flatten_of_flat hflat, flatten_eq_self_iff, leaves_flatten target e⟩

/-- Chains of both kinds inside each other, with operands in any number. -/
example :
    let both := Expr.node .and [.node .and [.name "a"], .name "b"]
    flattenChains (.node .or [.node .or [both, .name "c"], .node .or []]) =
      .node .or [.node .and [.name "a", .name "b"], .name "c"] := by
  decide

end Expr
end CatalogFilter
