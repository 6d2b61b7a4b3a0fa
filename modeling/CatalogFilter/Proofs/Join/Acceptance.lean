import CatalogFilter.Proofs.Join.Dependency

/-!
# Which joins make a graph

A list of joins makes a graph if its tables differ up to case, every dependency is on a declared table, and
no join needs itself, in however many steps.  Any other list has the first of these faults, and it is named
where it is met first; of a cycle, some table on it is named.

The search for a cycle is bounded by the number of joins.  The same search without a bound is `Walks`, a
relation, and it comes to the same end: the bound is never met.

**Main definitions**: `JoinGraph.WellFormed`, `JoinGraph.Faults` and `JoinGraph.Walks`.  **Main statement**:
`JoinGraph.ofSpecs_outcome`.
-/

namespace CatalogFilter

open Text

namespace JoinGraph

variable {specs : List JoinSpec} {fault : SchemaError}

/-! ## §1 Well-formed lists and their faults -/

/-- The tables of joins differ up to case. -/
def Distinct (specs : List JoinSpec) : Prop :=
  specs.Pairwise fun a b => sameName a.table b.table = false

/-- Is there a join for a table, its name taken up to case? -/
def Declares (specs : List JoinSpec) (table : String) : Prop :=
  ∃ spec ∈ specs, sameName spec.table table = true

/-- A join needs the joins of the tables that it names, up to case. -/
def Needs (specs : List JoinSpec) (spec needed : JoinSpec) : Prop :=
  needed ∈ specs ∧ ∃ table ∈ spec.dependencies, sameName needed.table table = true

/-- Joins that make a graph. -/
structure WellFormed (specs : List JoinSpec) : Prop where
  distinct : Distinct specs
  declared : ∀ spec ∈ specs, ∀ table ∈ spec.dependencies, Declares specs table
  acyclic : ∀ spec ∈ specs, ¬ Relation.TransGen (Needs specs) spec spec

/-- The fault of a list of joins.  A table that is declared again comes before a dependency on no declared
table, and that before a cycle; the first such join is named, and of its dependencies the first. -/
inductive Faults (specs : List JoinSpec) : SchemaError → Prop
  /-- The first join whose table stands before it already. -/
  | duplicate {before after : List JoinSpec} {spec : JoinSpec} (split : specs = before ++ spec :: after)
      (distinct : Distinct before) (again : Declares before spec.table) :
      Faults specs (.duplicateJoin spec.table)
  /-- The first unknown table among the dependencies of the first join that has one. -/
  | undeclared {before after : List JoinSpec} {spec : JoinSpec} {front back : List String} {table : String}
      (distinct : Distinct specs) (split : specs = before ++ spec :: after)
      (declared : ∀ earlier ∈ before, ∀ table ∈ earlier.dependencies, Declares specs table)
      (needed : spec.dependencies = front ++ table :: back) (known : ∀ table ∈ front, Declares specs table)
      (unknown : ¬ Declares specs table) : Faults specs (.unknownDependency spec.table table)
  /-- A join that needs itself, found only where the other two faults are absent. -/
  | cycle {spec : JoinSpec} (distinct : Distinct specs)
      (declared : ∀ spec ∈ specs, ∀ table ∈ spec.dependencies, Declares specs table)
      (mem : spec ∈ specs) (loop : Relation.TransGen (Needs specs) spec spec) :
      Faults specs (.dependencyCycle spec.table)

/-! ## §2 Tables that are declared again, and tables that are not declared -/

theorem find?_isSome_iff {table : String} : (find? specs table).isSome ↔ Declares specs table := by
  simp [find?, Declares]

theorem find?_isNone_iff {table : String} : (find? specs table).isNone ↔ ¬ Declares specs table := by
  rw [← find?_isSome_iff, ← Option.not_isSome]
  simp

/-- A list without a duplicate has different tables. -/
theorem duplicate?_eq_none_iff {earlier : List JoinSpec} :
    duplicate? earlier specs = none ↔
      Distinct specs ∧ ∀ a ∈ earlier, ∀ b ∈ specs, sameName a.table b.table = false := by
  refine ⟨pairwise_of_duplicate?_eq_none, ?_⟩
  rintro ⟨hdistinct, hearlier⟩
  -- the converse carries the earlier tables along, as each step adds one to them
  induction specs generalizing earlier with
  | nil => rfl
  | cons spec specs ih =>
    obtain ⟨hspec, hspecs⟩ := List.pairwise_cons.1 hdistinct
    have hnew : (find? earlier spec.table).isSome = false := by
      rw [Bool.eq_false_iff, Ne, find?_isSome_iff]
      rintro ⟨a, ha, hname⟩
      simp [hearlier a ha spec (by simp)] at hname
    simp only [duplicate?, hnew]
    apply ih hspecs
    intro a ha b hb
    rcases List.mem_cons.1 ha with rfl | ha
    · exact hspec b hb
    · exact hearlier a ha b (by simp [hb])

/-- The first join of a table that has been declared before. -/
theorem exists_of_duplicate?_eq_some {earlier : List JoinSpec} (h : duplicate? earlier specs = some fault) :
    ∃ before spec after, specs = before ++ spec :: after ∧ duplicate? earlier before = none ∧
      Declares (earlier ++ before) spec.table ∧ fault = .duplicateJoin spec.table := by
  induction specs generalizing earlier with
  | nil => simp [duplicate?] at h
  | cons first specs ih =>
    unfold duplicate? at h
    split at h
    next hagain =>
      obtain rfl : SchemaError.duplicateJoin first.table = fault := by simpa using h
      exact ⟨[], first, specs, rfl, rfl, by simpa using find?_isSome_iff.1 hagain, rfl⟩
    next hnew =>
      obtain ⟨before, spec, after, rfl, hnone, ⟨other, hother, hname⟩, rfl⟩ := ih h
      refine ⟨first :: before, spec, after, rfl, ?_, ⟨other, ?_, hname⟩, rfl⟩
      · simp only [duplicate?, Bool.eq_false_iff.2 hnew]
        exact hnone
      · -- the join of the same table is the first one, an earlier one, or one between
        simpa [or_left_comm] using hother

theorem undeclared?_eq_none_iff {spec : JoinSpec} :
    undeclared? specs spec = none ↔ ∀ table ∈ spec.dependencies, Declares specs table := by
  simp only [undeclared?, Option.map_eq_none_iff, List.find?_eq_none, find?_isNone_iff, not_not]

theorem findSome?_undeclared?_eq_none_iff {starts : List JoinSpec} :
    starts.findSome? (undeclared? specs) = none ↔
      ∀ spec ∈ starts, ∀ table ∈ spec.dependencies, Declares specs table := by
  simp only [List.findSome?_eq_none_iff, undeclared?_eq_none_iff]

/-- The first dependency of the first join that has one on no declared table. -/
theorem exists_of_findSome?_undeclared?_eq_some {starts : List JoinSpec}
    (h : starts.findSome? (undeclared? specs) = some fault) :
    ∃ before spec after, starts = before ++ spec :: after ∧
      (∀ earlier ∈ before, ∀ table ∈ earlier.dependencies, Declares specs table) ∧
      ∃ front table back, spec.dependencies = front ++ table :: back ∧
        (∀ table ∈ front, Declares specs table) ∧ ¬ Declares specs table ∧
        fault = .unknownDependency spec.table table := by
  obtain ⟨before, spec, after, hsplit, hspec, hbefore⟩ := List.findSome?_eq_some_iff.1 h
  obtain ⟨table, hfound, rfl⟩ := Option.map_eq_some_iff.1 hspec
  obtain ⟨hunknown, front, back, hneeded, hfront⟩ := List.find?_eq_some_iff_append.1 hfound
  refine ⟨before, spec, after, hsplit, fun earlier he => undeclared?_eq_none_iff.1 (hbefore earlier he),
    front, table, back, hneeded, fun other ho => ?_, find?_isNone_iff.1 hunknown, rfl⟩
  have hdeclared := hfront other ho
  rw [Bool.not_eq_true', ← Option.not_isSome, Bool.not_eq_false'] at hdeclared
  exact find?_isSome_iff.1 hdeclared

/-! ## §3 The search for a cycle, without a bound -/

/-- What following joins one after the other comes to, however deep it goes.  `path` holds the joins that led
here, and `done` those that have been followed before. -/
inductive Walks (specs : List JoinSpec) :
    List JoinSpec → List JoinSpec → List JoinSpec → Except SchemaError (List JoinSpec) → Prop
  | nil {path done : List JoinSpec} : Walks specs path done [] (.ok done)
  /-- A join that has been followed to its end is left alone. -/
  | skip {path done starts : List JoinSpec} {spec : JoinSpec} {outcome : Except SchemaError (List JoinSpec)}
      (old : spec ∈ done) (rest : Walks specs path done starts outcome) :
      Walks specs path done (spec :: starts) outcome
  /-- A join of the path is met again. -/
  | cycle {path done starts : List JoinSpec} {spec : JoinSpec} (new : spec ∉ done) (on : spec ∈ path) :
      Walks specs path done (spec :: starts) (.error (.dependencyCycle spec.table))
  /-- The dependencies of a new join are followed first, then the joins after it. -/
  | enter {path done more starts : List JoinSpec} {spec : JoinSpec}
      {outcome : Except SchemaError (List JoinSpec)} (new : spec ∉ done) (off : spec ∉ path)
      (inner : Walks specs (spec :: path) done (dependencies specs spec) (.ok more))
      (rest : Walks specs path (spec :: more) starts outcome) :
      Walks specs path done (spec :: starts) outcome
  /-- A cycle below a new join ends the search. -/
  | stop {path done starts : List JoinSpec} {spec : JoinSpec} {fault : SchemaError} (new : spec ∉ done)
      (off : spec ∉ path)
      (inner : Walks specs (spec :: path) done (dependencies specs spec) (.error fault)) :
      Walks specs path done (spec :: starts) (.error fault)

/-- **The bound is never met.**  A path has no join twice, so that it is the shorter the more of the bound is
left, and the search is the one without a bound. -/
theorem walks_foldlM {bound : Nat} {path : List JoinSpec} (hnodup : path.Nodup) (hpath : path ⊆ specs)
    (hbound : specs.length < bound + path.length) (done : List JoinSpec) {starts : List JoinSpec}
    (hstarts : starts ⊆ specs) :
    Walks specs path done starts (starts.foldlM (follow specs bound path) done) := by
  -- on the bound, and below it on the joins that are still to be followed
  induction bound generalizing path done starts with
  | zero =>
    -- nothing is left of the bound: the path would have more joins than there are
    have hlength : path.length ≤ specs.length := hnodup.length_le_of_subset hpath
    omega
  | succ bound ih =>
    induction starts generalizing done with
    | nil => exact .nil
    | cons spec starts ihs =>
      obtain ⟨hspec, hrest⟩ := List.cons_subset.1 hstarts
      rw [List.foldlM_cons]
      unfold follow
      by_cases hold : spec ∈ done
      · simpa [hold, bind, Except.bind] using .skip hold (ihs done hrest)
      by_cases hon : spec ∈ path
      · simpa [hold, hon, bind, Except.bind] using .cycle hold hon
      -- one step deeper the path is longer by the join
      have hinner : Walks specs (spec :: path) done (dependencies specs spec)
          ((dependencies specs spec).foldlM (follow specs bound (spec :: path)) done) := by
        apply ih (List.nodup_cons.2 ⟨hon, hnodup⟩) (List.cons_subset.2 ⟨hspec, hpath⟩)
        · simp only [List.length_cons]
          omega
        · exact fun needed hneeded => mem_of_mem_dependencies hneeded
      cases hfold : (dependencies specs spec).foldlM (follow specs bound (spec :: path)) done with
      | error fault =>
        rw [hfold] at hinner
        simpa [hold, hon, hfold, bind, Except.bind, Except.map] using .stop hold hon hinner
      | ok more =>
        rw [hfold] at hinner
        simpa [hold, hon, hfold, bind, Except.bind, Except.map] using
          .enter hold hon hinner (ihs (spec :: more) hrest)

/-- The search comes to one end only. -/
theorem Walks.unique {path done starts : List JoinSpec} {outcome other : Except SchemaError (List JoinSpec)}
    (h : Walks specs path done starts outcome) (h' : Walks specs path done starts other) :
    other = outcome := by
  -- on one search; the rules exclude one another, so the other took the same at each join
  induction h generalizing other with
  | nil =>
    cases h'
    rfl
  | skip old _ ih =>
    cases h' with
    | skip _ rest' => exact ih rest'
    | cycle new' => exact absurd old new'
    | enter new' => exact absurd old new'
    | stop new' => exact absurd old new'
  | cycle new on =>
    cases h' with
    | skip old' => exact absurd old' new
    | cycle => rfl
    | enter _ off' => exact absurd on off'
    | stop _ off' => exact absurd on off'
  | enter new off _ _ ihinner ihrest =>
    cases h' with
    | skip old' => exact absurd old' new
    | cycle _ on' => exact absurd on' off
    | enter _ _ inner' rest' =>
      cases ihinner inner'
      exact ihrest rest'
    | stop _ _ inner' => cases ihinner inner'
  | stop new off _ ih =>
    cases h' with
    | skip old' => exact absurd old' new
    | cycle _ on' => exact absurd on' off
    | enter _ _ inner' => cases ih inner'
    | stop _ _ inner' =>
      cases ih inner'
      rfl

theorem needs_of_mem_dependencies {spec needed : JoinSpec} (h : needed ∈ dependencies specs spec) :
    Needs specs spec needed := by
  obtain ⟨table, htable, hfind⟩ := List.mem_filterMap.1 h
  exact ⟨mem_of_find?_eq_some hfind, table, htable, sameName_of_find? hfind⟩

/-- **What stops the search is a join that needs itself**, as every join of the path needs those that are
followed. -/
theorem Walks.exists_cycle {path done starts : List JoinSpec}
    (h : Walks specs path done starts (.error fault)) (hstarts : starts ⊆ specs)
    (hpath : ∀ on ∈ path, ∀ start ∈ starts, Relation.TransGen (Needs specs) on start) :
    ∃ spec ∈ specs, Relation.TransGen (Needs specs) spec spec ∧ fault = .dependencyCycle spec.table := by
  generalize houtcome : Except.error fault = outcome at h
  -- on the search: only `cycle` makes a fault, `stop` hands it up and the others search on
  induction h with
  | nil => cases houtcome
  | skip _ _ ih =>
    exact ih (List.cons_subset.1 hstarts).2 (fun on hon start hs => hpath on hon start (by simp [hs]))
      houtcome
  | @cycle _ _ _ spec _ hon =>
    cases houtcome
    exact ⟨spec, hstarts (by simp), hpath spec hon spec (by simp), rfl⟩
  | enter _ _ _ _ _ ih =>
    exact ih (List.cons_subset.1 hstarts).2 (fun on hon start hs => hpath on hon start (by simp [hs]))
      houtcome
  | @stop _ _ _ spec _ _ _ _ ih =>
    -- the path has grown by the join, which needs each of its dependencies in one step
    refine ih (fun needed hneeded => mem_of_mem_dependencies hneeded) ?_ houtcome
    intro on hon needed hneeded
    have hstep : Needs specs spec needed := needs_of_mem_dependencies hneeded
    rcases List.mem_cons.1 hon with rfl | hon
    · exact .single hstep
    · exact (hpath on hon spec (by simp)).tail hstep

/-- The search of all joins from the beginning. -/
theorem walks_specs (specs : List JoinSpec) :
    Walks specs [] [] specs (specs.foldlM (follow specs (specs.length + 1) []) []) :=
  walks_foldlM .nil (List.nil_subset specs) (by simp) [] (List.Subset.refl specs)

theorem exists_of_cycle?_eq_some (h : cycle? specs = some fault) :
    ∃ spec ∈ specs, Relation.TransGen (Needs specs) spec spec ∧ fault = .dependencyCycle spec.table := by
  have hwalks := walks_specs specs
  unfold cycle? at h
  split at h
  next => simp at h
  next other hfold =>
    obtain rfl : other = fault := by simpa using h
    rw [hfold] at hwalks
    exact hwalks.exists_cycle (List.Subset.refl specs) (by simp)

/-! ## §4 Graphs -/

/-- No join of a graph needs itself: all that it needs stands behind it in a grounded list. -/
theorem not_needs_self (g : JoinGraph) {spec : JoinSpec} (h : spec ∈ g.specs) :
    ¬ Relation.TransGen (Needs g.specs) spec spec := by
  intro hloop
  obtain ⟨behind, ⟨hnot, hneeded, hgrounded⟩, _⟩ := exists_behind h
  obtain ⟨needed, hstep, hreach⟩ := Relation.TransGen.head'_iff.1 hloop
  have hfirst : needed ∈ behind := hneeded needed (mem_dependencies_iff.2 hstep)
  -- a loop would come back to the join, but it never leaves what stands behind it
  exact hnot (hgrounded.mem_of_reaches hfirst hreach)

theorem wellFormed (g : JoinGraph) : WellFormed g.specs where
  distinct := (duplicate?_eq_none_iff.1 (accepted_iff.1 g.accepted).1).1
  declared := findSome?_undeclared?_eq_none_iff.1 (accepted_iff.1 g.accepted).2.1
  acyclic _ h := g.not_needs_self h

theorem faults_of_fault?_eq_some (h : fault? specs = some fault) : Faults specs fault := by
  unfold fault? at h
  -- one case for each of the three checks, the later ones knowing that the earlier ones found nothing
  cases hduplicate : duplicate? [] specs with
  | some other =>
    obtain rfl : other = fault := by simpa [hduplicate] using h
    obtain ⟨before, spec, after, hsplit, hnone, hagain, rfl⟩ := exists_of_duplicate?_eq_some hduplicate
    exact .duplicate hsplit (duplicate?_eq_none_iff.1 hnone).1 hagain
  | none =>
    have hdistinct : Distinct specs := (duplicate?_eq_none_iff.1 hduplicate).1
    cases hundeclared : specs.findSome? (undeclared? specs) with
    | some other =>
      obtain rfl : other = fault := by simpa [hduplicate, hundeclared] using h
      obtain ⟨before, spec, after, hsplit, hbefore, front, table, back, hneeded, hfront, hunknown, rfl⟩ :=
        exists_of_findSome?_undeclared?_eq_some hundeclared
      exact .undeclared hdistinct hsplit hbefore hneeded hfront hunknown
    | none =>
      have hcycle : cycle? specs = some fault := by simpa [hduplicate, hundeclared] using h
      obtain ⟨spec, hmem, hloop, rfl⟩ := exists_of_cycle?_eq_some hcycle
      exact .cycle hdistinct (findSome?_undeclared?_eq_none_iff.1 hundeclared) hmem hloop

/-- A list with a fault makes no graph. -/
theorem WellFormed.not_faults (h : WellFormed specs) : ¬ Faults specs fault := by
  intro hfault
  cases hfault with
  | duplicate split _ again =>
    obtain ⟨earlier, hearlier, hname⟩ := again
    have hpair := h.distinct
    rw [split] at hpair
    have hdiffer := (List.pairwise_append.1 hpair).2.2 earlier hearlier _ List.mem_cons_self
    simp [hname] at hdiffer
  | @undeclared _ _ spec _ _ table _ split _ needed _ unknown =>
    have hspec : spec ∈ specs := by simp [split]
    exact unknown (h.declared spec hspec table (by simp [needed]))
  | cycle _ _ mem loop => exact h.acyclic _ mem loop

theorem ofSpecs_eq_error_iff : ofSpecs specs = .error fault ↔ fault? specs = some fault := by
  unfold ofSpecs
  split
  next other hfault => simp [hfault]
  next hnone => simp [hnone]

theorem ofSpecs_eq_ok_iff {g : JoinGraph} : ofSpecs specs = .ok g ↔ g.specs = specs := by
  unfold ofSpecs
  split
  next other hfault =>
    constructor
    · intro h
      cases h
    · rintro rfl
      simp [g.accepted] at hfault
  next hnone =>
    constructor
    · intro h
      cases h
      rfl
    · rintro rfl
      rfl

/-- **A list of joins makes a graph exactly if it is well formed**, and otherwise its first fault is reported:
a table that is declared again, else a dependency on no declared table, else a cycle.  The search for a cycle
comes to an end on every list without any bound, to one end only, and this is what is reported. -/
theorem ofSpecs_outcome (specs : List JoinSpec) :
    ((∃ g, ofSpecs specs = .ok g ∧ g.specs = specs) ↔ WellFormed specs) ∧
    (∀ fault, ofSpecs specs = .error fault → Faults specs fault) ∧
    ∃ outcome, Walks specs [] [] specs outcome ∧
      (∀ other, Walks specs [] [] specs other → other = outcome) ∧
      (∀ fault, outcome = .error fault ↔ cycle? specs = some fault) := by
  refine ⟨⟨?_, ?_⟩, ?_, _, walks_specs specs, fun _ h => (walks_specs specs).unique h, ?_⟩
  · rintro ⟨g, _, rfl⟩
    exact g.wellFormed
  · intro hwell
    cases hof : ofSpecs specs with
    | ok g => exact ⟨g, rfl, ofSpecs_eq_ok_iff.1 hof⟩
    | error fault => exact absurd (faults_of_fault?_eq_some (ofSpecs_eq_error_iff.1 hof)) hwell.not_faults
  · intro fault herror
    exact faults_of_fault?_eq_some (ofSpecs_eq_error_iff.1 herror)
  · intro fault
    unfold cycle?
    split
    next order hfold => simp [hfold]
    next other hfold => simp [hfold]

end JoinGraph
end CatalogFilter
