import CatalogFilter.Catalog.Basic

/-!
# Join graphs

A join brings a table into a statement.  It may need other joins before it, which it names as its
dependencies, and its table may be a further name for a physical table.  A join graph is a list of joins
whose tables differ up to case, whose dependencies are all declared, and which has no cycle of
dependencies.  **Main definitions**: `JoinGraph.ofSpecs` checks a list of joins,
`JoinGraph.physicalTables` lists the physical tables that a table needs.
-/

namespace CatalogFilter

open Text

/-! ## §1 Joins -/

/-- A join of a table. -/
structure JoinSpec where
  table : String
  /-- The tables whose joins have to stand before this one. -/
  dependencies : List String
  /-- The text of the join in a statement. -/
  clause : String
  /-- The physical table, if the table is a further name for one. -/
  aliasOf : Option String
  deriving DecidableEq, Repr, Inhabited

/-- The table that has to exist in the database for the join to work. -/
def JoinSpec.physicalTable (spec : JoinSpec) : String := spec.aliasOf.getD spec.table

namespace JoinGraph

/-- The join of a table, its name taken up to case. -/
def find? (specs : List JoinSpec) (table : String) : Option JoinSpec :=
  specs.find? fun spec => sameName spec.table table

def dependencies (specs : List JoinSpec) (spec : JoinSpec) : List JoinSpec :=
  spec.dependencies.filterMap (find? specs)

theorem mem_of_find?_eq_some {specs : List JoinSpec} {table : String} {spec : JoinSpec}
    (h : find? specs table = some spec) : spec ∈ specs := List.mem_of_find?_eq_some h

theorem mem_of_mem_dependencies {specs : List JoinSpec} {spec d : JoinSpec}
    (h : d ∈ dependencies specs spec) : d ∈ specs := by
  obtain ⟨t, _, ht⟩ := List.mem_filterMap.1 h
  exact mem_of_find?_eq_some ht

/-! ## §2 Faults -/

/-- The first join whose table has been declared before. -/
def duplicate? (earlier : List JoinSpec) : List JoinSpec → Option SchemaError
  | [] => none
  | spec :: specs =>
    if (find? earlier spec.table).isSome then some (.duplicateJoin spec.table)
    else duplicate? (spec :: earlier) specs

/-- The first dependency of a join on a table that is not declared. -/
def undeclared? (specs : List JoinSpec) (spec : JoinSpec) : Option SchemaError :=
  (spec.dependencies.find? fun table => (find? specs table).isNone).map fun table =>
    .unknownDependency spec.table table

/-- Follows the dependencies of a join to their ends.  `path` holds the joins that led here and `done`
those whose dependencies have been followed already; a join of the path that is met again is on a cycle.
A path has no join twice, so the number of joins bounds its length. -/
def follow (specs : List JoinSpec) :
    Nat → List JoinSpec → List JoinSpec → JoinSpec → Except SchemaError (List JoinSpec)
  | 0, _, _, spec => .error (.dependencyCycle spec.table)
  | bound + 1, path, done, spec =>
    if spec ∈ done then .ok done
    else if spec ∈ path then .error (.dependencyCycle spec.table)
    else
      ((dependencies specs spec).foldlM (follow specs bound (spec :: path)) done).map (spec :: ·)

/-- The first join that is met on a cycle of dependencies. -/
def cycle? (specs : List JoinSpec) : Option SchemaError :=
  match specs.foldlM (follow specs (specs.length + 1) []) [] with
  | .ok _ => none
  | .error fault => some fault

/-- The fault of a list of joins: a table declared twice, else a dependency on no declared table, else
a cycle. -/
def fault? (specs : List JoinSpec) : Option SchemaError :=
  duplicate? [] specs <|> specs.findSome? (undeclared? specs) <|> cycle? specs

end JoinGraph

/-! ## §3 Graphs -/

/-- Joins without a fault, in the order in which they were declared. -/
structure JoinGraph where
  specs : List JoinSpec
  accepted : JoinGraph.fault? specs = none
  deriving DecidableEq

namespace JoinGraph

def empty : JoinGraph := ⟨[], rfl⟩

instance : Inhabited JoinGraph := ⟨empty⟩

def ofSpecs (specs : List JoinSpec) : Except SchemaError JoinGraph :=
  match h : fault? specs with
  | some fault => .error fault
  | none => .ok ⟨specs, h⟩

def get? (g : JoinGraph) (table : String) : Option JoinSpec := find? g.specs table

/-! ## §4 Reach -/

def unvisited (specs visited : List JoinSpec) : Nat :=
  specs.countP fun spec => decide (spec ∉ visited)

theorem unvisited_cons_le (specs visited : List JoinSpec) (spec : JoinSpec) :
    unvisited specs (spec :: visited) ≤ unvisited specs visited :=
  List.countP_mono_left fun s _ h => by simp_all

theorem unvisited_cons_lt {specs visited : List JoinSpec} {spec : JoinSpec} (hs : spec ∈ specs)
    (hv : spec ∉ visited) : unvisited specs (spec :: visited) < unvisited specs visited := by
  -- on the list, up to the place of the join that is visited
  induction specs with
  | nil => simp at hs
  | cons s specs ih =>
    have hle := unvisited_cons_le specs visited spec
    unfold unvisited at *
    rw [List.countP_cons, List.countP_cons]
    rcases List.mem_cons.1 hs with rfl | hs
    · rw [if_neg (by simp), if_pos (by simpa using hv)]
      omega
    · have := ih hs
      split <;> split
      · omega
      · simp_all
      · omega
      · omega

/-- Visits the joins of a stack and all that they depend on.  The dependencies of a visited join go on
top of the stack, the last of them uppermost. -/
def visit (specs visited : List JoinSpec) : List JoinSpec → List JoinSpec
  | [] => visited.reverse
  | spec :: stack =>
    if _h : spec ∈ visited ∨ spec ∉ specs then visit specs visited stack
    else visit specs (spec :: visited) ((dependencies specs spec).reverse ++ stack)
-- a visited join is taken from the stack, a new one is one less to visit
termination_by stack => (unvisited specs visited, stack.length)
decreasing_by
  · exact .right _ (by simp)
  · simp only [not_or, Decidable.not_not] at _h
    exact .left _ _ (unvisited_cons_lt _h.2 _h.1)

/-- The joins that a table needs: its own and all that it depends on. -/
def reach (g : JoinGraph) (table : String) : List JoinSpec :=
  visit g.specs [] (g.get? table).toList

/-- The physical tables that a table needs; none if no join is declared for it. -/
def physicalTables (g : JoinGraph) (table : String) : List String :=
  (g.reach table).map JoinSpec.physicalTable

end JoinGraph
end CatalogFilter
