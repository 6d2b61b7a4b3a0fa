import CatalogFilter.Join.Resolver
import CatalogFilter.Proofs.Join.Dependency
import Mathlib.Data.List.Nodup

/-!
# What a resolver emits

A resolver is asked for tables, one by one or several at a time, and answers the clauses that are still
missing.  All answers together are the clauses of joins of which none stands twice, each behind all that it
depends on; and these are the joins that the requested tables need, no more and no fewer, in whatever order
and spelling the tables were requested.

**Main definitions**: `Resolver.Serves` and `Resolver.answers`.  **Main statement**:
`Resolver.answers_fresh`.
-/

namespace CatalogFilter

open Text JoinGraph

namespace Resolver

/-! ## §1 Serving a request -/

/-- The joins of a statement after others have been added for those that were asked for: dependencies stand
first, all that was asked for is there, and nothing else has come but what it needs. -/
structure Serves (g : JoinGraph) (asked : JoinSpec → Prop) (before after : List JoinSpec) : Prop where
  /-- What is there already stays where it is. -/
  appended : before <+: after
  /-- Read from its end, the list has behind each join all that this depends on. -/
  grounded : Grounded g.specs after.reverse
  /-- All that was asked for has come. -/
  complete : ∀ start, asked start → start ∈ after
  /-- What is new is needed by something that was asked for. -/
  minimal : ∀ spec ∈ after, spec ∈ before ∨
    ∃ start, asked start ∧ Relation.ReflTransGen g.DependsOn start spec

namespace Serves

variable {g : JoinGraph} {asked more : JoinSpec → Prop} {before middle after : List JoinSpec}

/-- What is there already needs nothing. -/
theorem refl (h : Grounded g.specs before.reverse) (hasked : ∀ start, asked start → start ∈ before) :
    Serves g asked before before :=
  ⟨List.prefix_rfl, h, hasked, fun _ hs => .inl hs⟩

theorem trans (h₁ : Serves g asked before middle) (h₂ : Serves g more middle after) :
    Serves g (fun start => asked start ∨ more start) before after where
  appended := h₁.appended.trans h₂.appended
  grounded := h₂.grounded
  complete := by
    rintro start (h | h)
    · exact h₂.appended.subset (h₁.complete start h)
    · exact h₂.complete start h
  minimal := by
    intro spec hs
    rcases h₂.minimal spec hs with hmiddle | ⟨start, hstart, hreach⟩
    · rcases h₁.minimal spec hmiddle with hbefore | ⟨start, hstart, hreach⟩
      · exact .inl hbefore
      · exact .inr ⟨start, .inl hstart, hreach⟩
    · exact .inr ⟨start, .inr hstart, hreach⟩

theorem congr (h : Serves g asked before after) (hsame : ∀ start, asked start ↔ more start) :
    Serves g more before after := by
  have hfun : asked = more := funext fun start => propext (hsame start)
  rwa [← hfun]

end Serves

/-- Requests that are served one after the other are served together. -/
theorem foldl_serves {g : JoinGraph} {σ α : Type} (joins : σ → List JoinSpec) (step : σ → α → σ)
    (asked : α → JoinSpec → Prop) {items : List α} {s : σ} (hs : Grounded g.specs (joins s).reverse)
    (hstep : ∀ item ∈ items, ∀ s, Grounded g.specs (joins s).reverse →
      Serves g (asked item) (joins s) (joins (step s item))) :
    Serves g (fun start => ∃ item ∈ items, asked item start) (joins s) (joins (items.foldl step s)) := by
  induction items generalizing s with
  | nil => exact .refl hs (by simp)
  | cons item items ih =>
    have hfirst := hstep item (by simp) s hs
    have hrest := ih hfirst.grounded fun i hi => hstep i (by simp [hi])
    exact (hfirst.trans hrest).congr fun start => by simp

/-! ## §2 Adding a join -/

/-- **A join is emitted after all that it depends on.**  The bound is no limit as long as the dependencies
find room within it. -/
theorem emit_serves {g : JoinGraph} {bound : Nat} {emitted behind : List JoinSpec} {spec : JoinSpec}
    (hb : Grounded g.specs (spec :: behind)) (hbound : behind.length < bound)
    (he : Grounded g.specs emitted.reverse) :
    Serves g (fun start => start = spec) emitted (emit g bound emitted spec) := by
  -- on the bound, with any join that has less than that behind itself
  induction bound generalizing emitted spec behind with
  | zero => simp at hbound
  | succ bound ih =>
    unfold emit
    split
    next hdone => exact .refl he fun start hstart => hstart ▸ hdone
    next hnew =>
      obtain ⟨hnot, hneeded, hgrounded⟩ := hb
      -- each dependency stands behind the join, and has the less room behind itself
      have hfold : Serves g (fun start => ∃ needed ∈ dependencies g.specs spec, start = needed) emitted
          ((dependencies g.specs spec).foldl (emit g bound) emitted) := by
        apply foldl_serves id (emit g bound) (fun needed start => start = needed) he
        intro needed hn before hbefore
        obtain ⟨front, rest, rfl⟩ := List.append_of_mem (hneeded needed hn)
        apply ih hgrounded.behind _ hbefore
        simp only [List.length_append, List.length_cons] at hbound
        omega
      -- no dependency needs the join itself
      have hout : spec ∉ (dependencies g.specs spec).foldl (emit g bound) emitted := by
        intro hin
        rcases hfold.minimal spec hin with hold | ⟨_, ⟨needed, hn, rfl⟩, hreach⟩
        · exact hnew hold
        · exact hnot (hgrounded.mem_of_reaches (hneeded _ hn) hreach)
      constructor
      · -- appended, grounded, complete and minimal, in this order
        exact hfold.appended.trans (List.prefix_append _ _)
      · rw [List.reverse_append]
        refine ⟨by simpa using hout, fun needed hn => ?_, hfold.grounded⟩
        simpa using hfold.complete needed ⟨needed, hn, rfl⟩
      · rintro start rfl
        simp
      · intro x hx
        rcases List.mem_append.1 hx with hx | hx
        · rcases hfold.minimal x hx with hold | ⟨_, ⟨needed, hn, rfl⟩, hreach⟩
          · exact .inl hold
          · exact .inr ⟨spec, rfl, .head (mem_dependencies_iff.1 hn) hreach⟩
        · obtain rfl : x = spec := by simpa using hx
          exact .inr ⟨x, rfl, .refl⟩

/-- Naming a table serves the join that is declared for it, if there is one. -/
theorem add_serves {g : JoinGraph} {r : Resolver} (hr : Grounded g.specs r.emitted.reverse)
    (table : String) :
    Serves g (fun start => g.get? table = some start) r.emitted (add g r table).emitted := by
  unfold add
  cases hget : g.get? table with
  | none => exact .refl hr (by simp)
  | some spec =>
    obtain ⟨behind, hbehind, hlength⟩ := exists_behind (get?_eq_some_iff.1 hget).1
    exact (emit_serves hbehind hlength hr).congr fun start => by simp [eq_comm]

/-! ## §3 Runs of requests -/

/-- What a resolver is asked for. -/
inductive Request where
  | one (table : String)
  | several (tables : List String)
  deriving DecidableEq

def Request.tables : Request → List String
  | .one table => [table]
  | .several tables => tables

def answer (g : JoinGraph) (r : Resolver) : Request → List String × Resolver
  | .one table => resolve g r table
  | .several tables => resolveAll g r tables

/-- All clauses that are answered to requests one after the other, and the resolver after them. -/
def answers (g : JoinGraph) (r : Resolver) : List Request → List String × Resolver
  | [] => ([], r)
  | request :: requests =>
    let first := answer g r request
    let rest := answers g first.2 requests
    (first.1 ++ rest.1, rest.2)

/-- The tables of requests, in the order in which they are named. -/
def requested (requests : List Request) : List String := requests.flatMap Request.tables

theorem answer_eq (g : JoinGraph) (r : Resolver) (request : Request) :
    answer g r request = (clausesSince r (request.tables.foldl (add g) r),
      request.tables.foldl (add g) r) := by
  cases request <;> rfl

theorem tables_serves {g : JoinGraph} {r : Resolver} (hr : Grounded g.specs r.emitted.reverse)
    (tables : List String) :
    Serves g (fun start => ∃ table ∈ tables, g.get? table = some start) r.emitted
      (tables.foldl (add g) r).emitted :=
  foldl_serves emitted (add g) (fun table start => g.get? table = some start) hr
    fun table _ _ hs => add_serves hs table

theorem clausesSince_append {r middle last : Resolver} (h₁ : r.emitted <+: middle.emitted)
    (h₂ : middle.emitted <+: last.emitted) :
    clausesSince r middle ++ clausesSince middle last = clausesSince r last := by
  obtain ⟨new, hnew⟩ := h₁
  obtain ⟨newer, hnewer⟩ := h₂
  -- both lists of clauses are read off the last one, at two lengths
  simp only [clausesSince, ← hnewer, ← hnew, List.drop_left, List.append_assoc, List.map_append]
  have hlength : (r.emitted ++ new).length = r.emitted.length + new.length := by simp
  rw [hlength, ← List.append_assoc, ← hlength, List.drop_left]

/-- The answers to requests are one answer to all their tables. -/
theorem answers_eq {g : JoinGraph} {r : Resolver} (hr : Grounded g.specs r.emitted.reverse)
    (requests : List Request) :
    answers g r requests = (clausesSince r ((requested requests).foldl (add g) r),
      (requested requests).foldl (add g) r) := by
  induction requests generalizing r with
  | nil => simp [answers, requested, clausesSince]
  | cons request requests ih =>
    -- that the first answer extends what was emitted lets its clauses and the later ones join
    have hfirst := tables_serves hr request.tables
    have hrest := tables_serves hfirst.grounded (requested requests)
    have hall : (requested (request :: requests)).foldl (add g) r =
        (requested requests).foldl (add g) (request.tables.foldl (add g) r) := by
      simp [requested, List.foldl_append]
    simp only [answers, answer_eq, ih hfirst.grounded, hall,
      clausesSince_append hfirst.appended hrest.appended]

/-! ## §4 What a fresh resolver emits -/

/-- A table is emitted if the join that is declared for it is. -/
theorem isEmitted_iff {g : JoinGraph} {r : Resolver} (h : ∀ spec ∈ r.emitted, spec ∈ g.specs)
    {table : String} :
    isEmitted g r table = true ↔ ∃ spec ∈ r.emitted, sameName spec.table table = true := by
  unfold isEmitted
  constructor
  · intro hany
    obtain ⟨spec, hget, hmem⟩ := Option.any_eq_true _ _ |>.1 hany
    exact ⟨spec, by simpa using hmem, (get?_eq_some_iff.1 hget).2⟩
  · rintro ⟨spec, hmem, hname⟩
    rw [get?_eq_some_iff.2 ⟨h spec hmem, hname⟩]
    simpa using hmem

theorem grounded_fresh (g : JoinGraph) : Grounded g.specs fresh.emitted.reverse := trivial

theorem mem_specs_of_reaches {g : JoinGraph} {start spec : JoinSpec} (hs : start ∈ g.specs)
    (h : Relation.ReflTransGen g.DependsOn start spec) : spec ∈ g.specs := by
  induction h with
  | refl => exact hs
  | tail _ hstep _ => exact hstep.1

theorem grounded_answers (g : JoinGraph) (requests : List Request) :
    Grounded g.specs (answers g fresh requests).2.emitted.reverse := by
  rw [answers_eq (grounded_fresh g)]
  exact (tables_serves (grounded_fresh g) (requested requests)).grounded

theorem nodup_answers (g : JoinGraph) (requests : List Request) :
    (answers g fresh requests).2.emitted.Nodup :=
  List.nodup_reverse.1 (grounded_answers g requests).nodup

/-- The joins of the requested tables are emitted, all that they need, and nothing else. -/
theorem mem_answers_iff (g : JoinGraph) (requests : List Request) (spec : JoinSpec) :
    spec ∈ (answers g fresh requests).2.emitted ↔ ∃ start ∈ g.specs,
      (∃ table ∈ requested requests, sameName start.table table = true) ∧
        Relation.ReflTransGen g.DependsOn start spec := by
  have hserves := tables_serves (grounded_fresh g) (requested requests)
  rw [answers_eq (grounded_fresh g)]
  constructor
  · intro hmem
    rcases hserves.minimal spec hmem with hold | ⟨start, ⟨table, htable, hget⟩, hreach⟩
    · simp [fresh] at hold
    · obtain ⟨hstart, hname⟩ := get?_eq_some_iff.1 hget
      exact ⟨start, hstart, ⟨table, htable, hname⟩, hreach⟩
  · rintro ⟨start, hstart, ⟨table, htable, hname⟩, hreach⟩
    -- the declared join has come, and with it all that it reaches
    have hasked := hserves.complete start ⟨table, htable, get?_eq_some_iff.2 ⟨hstart, hname⟩⟩
    simpa using hserves.grounded.mem_of_reaches (by simpa using hasked) hreach

/-- What a join depends on stands before it. -/
theorem mem_before_of_dependsOn {g : JoinGraph} {requests : List Request} {before after : List JoinSpec}
    {spec needed : JoinSpec} (h : (answers g fresh requests).2.emitted = before ++ spec :: after)
    (hn : g.DependsOn spec needed) : needed ∈ before := by
  have hgrounded := grounded_answers g requests
  rw [h] at hgrounded
  have hreverse : Grounded g.specs (after.reverse ++ spec :: before.reverse) := by simpa using hgrounded
  simpa using hreverse.behind.2.1 needed (mem_dependencies_iff.2 hn)

/-- All answers together are the clauses of what is emitted. -/
theorem clauses_answers (g : JoinGraph) (requests : List Request) :
    (answers g fresh requests).1 = (answers g fresh requests).2.emitted.map JoinSpec.clause := by
  rw [answers_eq (grounded_fresh g)]
  rfl

theorem mem_specs_of_mem_answers {g : JoinGraph} {requests : List Request} {spec : JoinSpec}
    (h : spec ∈ (answers g fresh requests).2.emitted) : spec ∈ g.specs := by
  obtain ⟨start, hstart, _, hreach⟩ := (mem_answers_iff g requests spec).1 h
  exact mem_specs_of_reaches hstart hreach

/-- Neither the order nor the number of requests for a table matters to which joins are emitted. -/
theorem perm_answers {g : JoinGraph} {requests others : List Request}
    (h : ∀ table, table ∈ requested others ↔ table ∈ requested requests) :
    (answers g fresh others).2.emitted.Perm (answers g fresh requests).2.emitted := by
  apply (List.perm_ext_iff_of_nodup (nodup_answers g others) (nodup_answers g requests)).2
  intro spec
  rw [mem_answers_iff, mem_answers_iff]
  simp only [h]

/-- **What a resolver emits**, over any requests.  Its answers together are the clauses of joins without
repetition, each behind all joins that it depends on.  The joins are those that the declared ones among the
requested tables need, in zero or more steps, and the tables that count as emitted are theirs.  So requests
for the same tables emit the same joins, whatever their order. -/
theorem answers_fresh (g : JoinGraph) (requests : List Request) :
    let last := (answers g fresh requests).2
    (answers g fresh requests).1 = last.emitted.map JoinSpec.clause ∧
    last.emitted.Nodup ∧
    (∀ before spec after, last.emitted = before ++ spec :: after →
      ∀ needed, g.DependsOn spec needed → needed ∈ before) ∧
    (∀ spec, spec ∈ last.emitted ↔ ∃ start ∈ g.specs,
      (∃ table ∈ requested requests, sameName start.table table = true) ∧
        Relation.ReflTransGen g.DependsOn start spec) ∧
    (∀ table, isEmitted g last table = true ↔
      ∃ spec ∈ last.emitted, sameName spec.table table = true) ∧
    (∀ others, (∀ table, table ∈ requested others ↔ table ∈ requested requests) →
      (answers g fresh others).2.emitted.Perm last.emitted) := by
  intro last
  refine ⟨clauses_answers g requests, nodup_answers g requests, ?_, mem_answers_iff g requests, ?_,
    fun _ => perm_answers⟩
  · intro before spec after hsplit needed hn
    exact mem_before_of_dependsOn hsplit hn
  · intro table
    exact isEmitted_iff fun spec => mem_specs_of_mem_answers

end Resolver
end CatalogFilter
