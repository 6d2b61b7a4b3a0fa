import CatalogFilter.Proofs.Join.Dependency
import Mathlib.Data.List.Nodup

/-!
# The joins that a table reaches

The tables that a table needs are collected with a stack: a join is taken from it, and unless it has been
visited before, what it depends on goes on top.  What has been visited in the end is what the joins on the
stack need, in zero or more steps, and each of these joins has been visited once.

**Main definition**: `JoinGraph.Visits`.  **Main statements**: `JoinGraph.visit_visits` and
`JoinGraph.mem_reach_iff`.
-/

namespace CatalogFilter
namespace JoinGraph

variable {g : JoinGraph} {visited stack : List JoinSpec}

/-! ## §1 Emptying a stack -/

/-- What has been visited once a stack is empty. -/
structure Visits (g : JoinGraph) (visited stack result : List JoinSpec) : Prop where
  nodup : visited.Nodup → result.Nodup
  kept : ∀ spec ∈ visited, spec ∈ result
  complete : ∀ spec ∈ stack, spec ∈ g.specs → spec ∈ result
  closed : ∀ spec ∈ result, ∀ needed, g.DependsOn spec needed → needed ∈ result
  minimal : ∀ spec ∈ result, spec ∈ visited ∨
    ∃ start ∈ stack, Relation.ReflTransGen g.DependsOn start spec

/-- What a visited join depends on has been visited or is still on the stack. -/
def Pending (g : JoinGraph) (visited stack : List JoinSpec) : Prop :=
  ∀ spec ∈ visited, ∀ needed, g.DependsOn spec needed → needed ∈ visited ∨ needed ∈ stack

/-- A join that has been visited is taken from the stack and left out, and so is one that is not declared. -/
theorem Pending.skip {spec : JoinSpec} (h : Pending g visited (spec :: stack))
    (hold : spec ∈ g.specs → spec ∈ visited) : Pending g visited stack := by
  intro other ho needed hn
  -- what is needed was pending; it may have been just the join that is left out
  rcases h other ho needed hn with hdone | hon
  · exact .inl hdone
  · rcases List.mem_cons.1 hon with rfl | hon
    · exact .inl (hold hn.1)
    · exact .inr hon

theorem Visits.skip {spec : JoinSpec} {result : List JoinSpec} (h : Visits g visited stack result)
    (hold : spec ∈ g.specs → spec ∈ visited) : Visits g visited (spec :: stack) result := by
  refine { h with complete := ?_, minimal := ?_ }
  · intro other ho hmem
    rcases List.mem_cons.1 ho with rfl | ho
    · exact h.kept other (hold hmem)
    · exact h.complete other ho hmem
  · intro other ho
    rcases h.minimal other ho with hdone | ⟨start, hstart, hreach⟩
    · exact .inl hdone
    · exact .inr ⟨start, List.mem_cons_of_mem spec hstart, hreach⟩

/-- A new join is visited, and what it depends on goes on the stack. -/
theorem Pending.enter {spec : JoinSpec} (h : Pending g visited (spec :: stack)) :
    Pending g (spec :: visited) ((dependencies g.specs spec).reverse ++ stack) := by
  intro other ho needed hn
  rcases List.mem_cons.1 ho with rfl | ho
  · -- the new join: all that it needs is on the stack now
    have hdependency : needed ∈ dependencies g.specs other := mem_dependencies_iff.2 hn
    exact .inr (by simp [hdependency])
  · -- an earlier one: what it needs may have been just the new join
    rcases h other ho needed hn with hdone | hon
    · exact .inl (List.mem_cons_of_mem spec hdone)
    · rcases List.mem_cons.1 hon with rfl | hon
      · exact .inl List.mem_cons_self
      · exact .inr (List.mem_append_right _ hon)

theorem Visits.enter {spec : JoinSpec} {result : List JoinSpec} (hnew : spec ∉ visited)
    (h : Visits g (spec :: visited) ((dependencies g.specs spec).reverse ++ stack) result) :
    Visits g visited (spec :: stack) result := by
  refine ⟨?_, ?_, ?_, h.closed, ?_⟩
  · intro hnodup
    exact h.nodup (List.nodup_cons.2 ⟨hnew, hnodup⟩)
  · intro other ho
    exact h.kept other (List.mem_cons_of_mem spec ho)
  · intro other ho hother
    rcases List.mem_cons.1 ho with rfl | ho
    · exact h.kept other List.mem_cons_self
    · exact h.complete other (List.mem_append_right _ ho) hother
  · intro other ho
    rcases h.minimal other ho with hdone | ⟨start, hstart, hreach⟩
    · -- visited before the rest: the join itself, in no step, or an earlier one
      rcases List.mem_cons.1 hdone with rfl | hdone
      · exact .inr ⟨other, List.mem_cons_self, .refl⟩
      · exact .inl hdone
    · -- needed by a join of the new stack: by a dependency, so in one more step, or by an old one
      rcases List.mem_append.1 hstart with hneeded | hon
      · have hstep : g.DependsOn spec start := mem_dependencies_iff.1 (List.mem_reverse.1 hneeded)
        exact .inr ⟨spec, List.mem_cons_self, .head hstep hreach⟩
      · exact .inr ⟨start, List.mem_cons_of_mem spec hon, hreach⟩

/-- **A stack is emptied into what its joins need.** -/
theorem visit_visits (h : Pending g visited stack) :
    Visits g visited stack (visit g.specs visited stack) := by
  fun_induction visit g.specs visited stack with
  | case1 visited =>
    -- an empty stack: nothing is pending, so what has been visited is closed
    refine ⟨List.nodup_reverse.2, by simp, by simp, ?_, ?_⟩
    · intro spec hs needed hn
      have hneeded := h spec (by simpa using hs) needed hn
      simpa using hneeded
    · intro spec hs
      exact .inl (by simpa using hs)
  | case2 visited spec stack hskip ih =>
    -- a join that is left out
    have hold : spec ∈ g.specs → spec ∈ visited := fun hs => hskip.resolve_right fun hn => hn hs
    exact (ih (h.skip hold)).skip hold
  | case3 visited spec stack hnew ih =>
    -- a join that is visited
    exact (ih h.enter).enter fun hdone => hnew (.inl hdone)

/-! ## §2 The joins of a table -/

theorem reach_visits (g : JoinGraph) (table : String) :
    Visits g [] (g.get? table).toList (g.reach table) :=
  visit_visits (by simp [Pending])

/-- **A table reaches the join that is declared for it and all that this needs.** -/
theorem mem_reach_iff {table : String} {spec : JoinSpec} :
    spec ∈ g.reach table ↔
      ∃ start, g.get? table = some start ∧ Relation.ReflTransGen g.DependsOn start spec := by
  have hvisits := g.reach_visits table
  constructor
  · intro hmem
    -- nothing had been visited, so what was visited is needed by what stood on the stack
    rcases hvisits.minimal spec hmem with hnone | ⟨start, hstart, hreach⟩
    · simp at hnone
    · exact ⟨start, by simpa using hstart, hreach⟩
  · rintro ⟨start, hget, hreach⟩
    -- what has been visited is closed, so each step stays in it
    induction hreach with
    | refl => exact hvisits.complete start (by simp [hget]) (get?_eq_some_iff.1 hget).1
    | tail _ hstep ih => exact hvisits.closed _ ih _ hstep

/-- A table reaches nothing exactly if no join is declared for it. -/
theorem reach_eq_nil_iff {g : JoinGraph} {table : String} : g.reach table = [] ↔ g.get? table = none := by
  constructor
  · intro hnil
    cases hget : g.get? table with
    | none => rfl
    | some start =>
      have hmem : start ∈ g.reach table := mem_reach_iff.2 ⟨start, hget, .refl⟩
      simp [hnil] at hmem
  · intro hnone
    apply List.eq_nil_iff_forall_not_mem.2
    intro spec hmem
    obtain ⟨start, hget, _⟩ := mem_reach_iff.1 hmem
    simp [hnone] at hget

end JoinGraph
end CatalogFilter
