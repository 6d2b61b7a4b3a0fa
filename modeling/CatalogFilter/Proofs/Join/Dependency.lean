import CatalogFilter.Join.Graph
import Mathlib.Data.List.Pairwise
import Mathlib.Logic.Relation

/-!
# Dependencies of joins

The joins of a graph depend on one another without a cycle.  This is what the check of a graph finds out, and
it is kept here in one form: the joins of a graph stand in a list in which each of them has all that it
depends on behind it.  Such a list is closed under dependencies, so what a join needs can be looked for
behind the join alone, and there is less and less of it.

**Main definitions**: `JoinGraph.DependsOn` and `JoinGraph.Grounded`.  **Main statements**:
`JoinGraph.mem_dependencies_iff` and `JoinGraph.exists_grounded`.
-/

namespace CatalogFilter

open Text

namespace JoinGraph

/-! ## §1 What the checks say -/

theorem accepted_iff {specs : List JoinSpec} :
    fault? specs = none ↔
      duplicate? [] specs = none ∧ specs.findSome? (undeclared? specs) = none ∧ cycle? specs = none := by
  unfold fault?
  cases duplicate? [] specs with
  | some fault => simp
  | none => cases specs.findSome? (undeclared? specs) <;> simp

/-- Joins without a duplicate are for different tables, and for none of the earlier ones. -/
theorem pairwise_of_duplicate?_eq_none {earlier specs : List JoinSpec}
    (h : duplicate? earlier specs = none) :
    specs.Pairwise (fun a b => sameName a.table b.table = false) ∧
      ∀ a ∈ earlier, ∀ b ∈ specs, sameName a.table b.table = false := by
  induction specs generalizing earlier with
  | nil => simp
  | cons spec specs ih =>
    unfold duplicate? at h
    split at h
    next => simp at h
    next hnew =>
      -- for the rest of the list the first join is one of the earlier ones
      obtain ⟨hpair, hearlier⟩ := ih h
      have hnone : ∀ a ∈ earlier, sameName a.table spec.table = false := by
        simpa [find?] using hnew
      constructor
      · exact List.pairwise_cons.2 ⟨hearlier spec (by simp), hpair⟩
      · intro a ha b hb
        rcases List.mem_cons.1 hb with rfl | hb
        · exact hnone a ha
        · exact hearlier a (by simp [ha]) b hb

/-! ## §2 The joins that tables name -/

/-- The joins of a graph are for different tables. -/
theorem eq_of_sameName (g : JoinGraph) {a b : JoinSpec} (ha : a ∈ g.specs) (hb : b ∈ g.specs)
    (h : sameName a.table b.table = true) : a = b := by
  obtain ⟨hpair, _⟩ := pairwise_of_duplicate?_eq_none (accepted_iff.1 g.accepted).1
  have hsymm : Std.Symm fun a b : JoinSpec => sameName a.table b.table = false :=
    ⟨fun a b hab => by rwa [sameName_comm]⟩
  -- two different joins of the list would be joins of different tables
  apply Decidable.of_not_not
  intro hne
  have hdiffer : sameName a.table b.table = false := hpair.forall ha hb hne
  simp [h] at hdiffer

theorem sameName_of_find? {specs : List JoinSpec} {table : String} {spec : JoinSpec}
    (h : find? specs table = some spec) : sameName spec.table table = true := by
  have hfound := List.find?_eq_some_iff_append.1 h
  exact hfound.1

/-- The join that is found for a name is the one that is declared for it, up to case. -/
theorem get?_eq_some_iff {g : JoinGraph} {table : String} {spec : JoinSpec} :
    g.get? table = some spec ↔ spec ∈ g.specs ∧ sameName spec.table table = true := by
  constructor
  · intro h
    exact ⟨mem_of_find?_eq_some h, sameName_of_find? h⟩
  · rintro ⟨hmem, hname⟩
    cases hfound : g.get? table with
    | none =>
      have hno := List.find?_eq_none.1 hfound spec hmem
      exact absurd hname hno
    | some other =>
      have hsame : sameName other.table spec.table = true :=
        sameName_trans (sameName_of_find? hfound) (by rwa [sameName_comm])
      rw [g.eq_of_sameName (mem_of_find?_eq_some hfound) hmem hsame]

theorem get?_eq_none_iff {g : JoinGraph} {table : String} :
    g.get? table = none ↔ ∀ spec ∈ g.specs, sameName spec.table table = false := by
  simp [get?, find?]

/-- A join depends on the joins of the tables that it names, up to case. -/
def DependsOn (g : JoinGraph) (spec needed : JoinSpec) : Prop :=
  needed ∈ g.specs ∧ ∃ table ∈ spec.dependencies, sameName needed.table table = true

theorem mem_dependencies_iff {g : JoinGraph} {spec needed : JoinSpec} :
    needed ∈ dependencies g.specs spec ↔ g.DependsOn spec needed := by
  have hfind : ∀ table, find? g.specs table = some needed ↔
      needed ∈ g.specs ∧ sameName needed.table table = true := fun _ => get?_eq_some_iff
  simp only [dependencies, List.mem_filterMap, hfind, DependsOn]
  constructor
  · rintro ⟨table, hdep, hmem, hname⟩
    exact ⟨hmem, table, hdep, hname⟩
  · rintro ⟨hmem, table, hdep, hname⟩
    exact ⟨table, hdep, hmem, hname⟩

/-! ## §3 Grounded lists -/

/-- Each join stands once, and behind it all that it depends on. -/
def Grounded (specs : List JoinSpec) : List JoinSpec → Prop
  | [] => True
  | spec :: behind =>
    spec ∉ behind ∧ (∀ needed ∈ dependencies specs spec, needed ∈ behind) ∧ Grounded specs behind

variable {specs : List JoinSpec}

theorem Grounded.nodup {order : List JoinSpec} (h : Grounded specs order) : order.Nodup := by
  induction order with
  | nil => exact List.nodup_nil
  | cons spec behind ih => exact List.nodup_cons.2 ⟨h.1, ih h.2.2⟩

/-- What stands behind a place of a grounded list is grounded. -/
theorem Grounded.behind {front behind : List JoinSpec} (h : Grounded specs (front ++ behind)) :
    Grounded specs behind := by
  induction front with
  | nil => exact h
  | cons spec front ih => exact ih h.2.2

theorem Grounded.mem_of_mem_dependencies {order : List JoinSpec} (h : Grounded specs order)
    {spec needed : JoinSpec} (hs : spec ∈ order) (hn : needed ∈ dependencies specs spec) :
    needed ∈ order := by
  obtain ⟨front, behind, rfl⟩ := List.append_of_mem hs
  -- what stands behind the join is grounded too, so that the place of the join does not matter
  have hbehind : needed ∈ behind := h.behind.2.1 needed hn
  simp [hbehind]

/-- A grounded list is closed under dependencies, however many steps they take. -/
theorem Grounded.mem_of_reaches {g : JoinGraph} {order : List JoinSpec} (h : Grounded g.specs order)
    {spec needed : JoinSpec} (hs : spec ∈ order) (hr : Relation.ReflTransGen g.DependsOn spec needed) :
    needed ∈ order := by
  induction hr with
  | refl => exact hs
  | tail _ hstep ih => exact h.mem_of_mem_dependencies ih (mem_dependencies_iff.2 hstep)

/-! ## §4 What is followed without a cycle -/

/-- A list that has been extended to a grounded list by declared joins, none of them on the path that led
here. -/
structure Extends (specs path before after : List JoinSpec) : Prop where
  grounded : Grounded specs after
  kept : ∀ spec ∈ before, spec ∈ after
  offPath : ∀ spec ∈ path, spec ∈ after → spec ∈ before
  declared : ∀ spec ∈ after, spec ∈ before ∨ spec ∈ specs

namespace Extends

variable {path before middle after : List JoinSpec}

theorem refl (h : Grounded specs before) : Extends specs path before before :=
  ⟨h, fun _ h => h, fun _ _ h => h, fun _ h => .inl h⟩

theorem trans (h₁ : Extends specs path before middle) (h₂ : Extends specs path middle after) :
    Extends specs path before after where
  grounded := h₂.grounded
  kept spec h := h₂.kept spec (h₁.kept spec h)
  offPath spec hp ha := h₁.offPath spec hp (h₂.offPath spec hp ha)
  declared spec h := (h₂.declared spec h).elim (h₁.declared spec) .inr

end Extends

/-- Following several joins one after the other. -/
theorem foldlM_extends {follow : List JoinSpec → JoinSpec → Except SchemaError (List JoinSpec)}
    {path starts before after : List JoinSpec} (h : starts.foldlM follow before = .ok after)
    (hb : Grounded specs before)
    (hstep : ∀ start ∈ starts, ∀ before after, follow before start = .ok after →
      Grounded specs before → Extends specs path before after ∧ start ∈ after) :
    Extends specs path before after ∧ ∀ start ∈ starts, start ∈ after := by
  induction starts generalizing before with
  | nil =>
    obtain rfl : before = after := by simpa [pure, Except.pure] using h
    exact ⟨.refl hb, by simp⟩
  | cons start starts ih =>
    rw [List.foldlM_cons] at h
    cases hfirst : follow before start with
    | error fault => simp [hfirst, bind, Except.bind] at h
    | ok middle =>
      -- the first join is followed, and the others from where that has come to
      obtain ⟨hext, hmem⟩ := hstep start (by simp) before middle hfirst hb
      have hrest : starts.foldlM follow middle = .ok after := by simpa [hfirst, bind, Except.bind] using h
      obtain ⟨hext', hmem'⟩ := ih hrest hext.grounded fun s hs => hstep s (by simp [hs])
      refine ⟨hext.trans hext', fun s hs => ?_⟩
      rcases List.mem_cons.1 hs with rfl | hs
      · exact hext'.kept s hmem
      · exact hmem' s hs

/-- A join that is followed without a cycle is added behind nothing but what it depends on. -/
theorem follow_extends {bound : Nat} {path before after : List JoinSpec} {spec : JoinSpec}
    (h : follow specs bound path before spec = .ok after) (hs : spec ∈ specs)
    (hb : Grounded specs before) : Extends specs path before after ∧ spec ∈ after := by
  -- on the bound, since the path grows at each step and the list after it is any
  induction bound generalizing path before after spec with
  | zero => simp [follow] at h
  | succ bound ih =>
    unfold follow at h
    split at h
    next hdone =>
      obtain rfl : before = after := by simpa using h
      exact ⟨.refl hb, hdone⟩
    next hnew =>
      split at h
      next => simp at h
      next hpath =>
        cases hfold : (dependencies specs spec).foldlM (follow specs bound (spec :: path)) before with
        | error fault => simp [hfold, Except.map] at h
        | ok inner =>
          obtain rfl : spec :: inner = after := by simpa [hfold, Except.map] using h
          obtain ⟨hext, hneeded⟩ := foldlM_extends hfold hb fun needed hn _ _ hfollow hgrounded =>
            ih hfollow (mem_of_mem_dependencies hn) hgrounded
          -- the join was on the path while its dependencies were followed
          have hout : spec ∉ inner := fun hin => hnew (hext.offPath spec (by simp) hin)
          refine ⟨⟨⟨hout, hneeded, hext.grounded⟩, ?_, ?_, ?_⟩, by simp⟩
          · intro x hx
            exact List.mem_cons_of_mem spec (hext.kept x hx)
          · intro x hx ha
            rcases List.mem_cons.1 ha with rfl | ha
            · exact absurd hx hpath
            · exact hext.offPath x (List.mem_cons_of_mem spec hx) ha
          · intro x hx
            rcases List.mem_cons.1 hx with rfl | hx
            · exact .inr hs
            · exact hext.declared x hx

/-- **The joins of a graph stand in a grounded list.** -/
theorem exists_grounded (g : JoinGraph) :
    ∃ order, Grounded g.specs order ∧ ∀ spec, spec ∈ order ↔ spec ∈ g.specs := by
  have hcycle := (accepted_iff.1 g.accepted).2.2
  unfold cycle? at hcycle
  split at hcycle
  next order hfold =>
    -- the list that the search for a cycle has built up is such an order
    have hstart : Extends g.specs [] [] order ∧ ∀ spec ∈ g.specs, spec ∈ order :=
      foldlM_extends hfold trivial fun spec hs _ _ hfollow hb => follow_extends hfollow hs hb
    obtain ⟨hext, hmem⟩ := hstart
    refine ⟨order, hext.grounded, fun spec => ⟨fun hin => ?_, hmem spec⟩⟩
    exact (hext.declared spec hin).resolve_left (by simp)
  next => simp at hcycle

/-- Behind every join of a graph there is room for all that it depends on. -/
theorem exists_behind {g : JoinGraph} {spec : JoinSpec} (h : spec ∈ g.specs) :
    ∃ behind, Grounded g.specs (spec :: behind) ∧ behind.length < g.specs.length := by
  obtain ⟨order, hgrounded, hmem⟩ := g.exists_grounded
  obtain ⟨front, behind, rfl⟩ := List.append_of_mem ((hmem spec).2 h)
  have hbehind : Grounded g.specs (spec :: behind) := hgrounded.behind
  refine ⟨behind, hbehind, ?_⟩
  -- the join and what stands behind it are different joins of the graph
  have hsub : spec :: behind ⊆ g.specs := fun x hx => (hmem x).1 (by simp [List.mem_cons.1 hx])
  exact hbehind.nodup.length_le_of_subset hsub

end JoinGraph
end CatalogFilter
