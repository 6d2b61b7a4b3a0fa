import CatalogFilter.Join.Graph

/-!
# Resolving joins

A statement names tables one after the other, and each needs its join and the joins that this depends
on.  A resolver remembers which joins a statement has already, so that none is written twice.  **Main
definitions**: `Resolver.resolve` and `Resolver.resolveAll`, which answer the clauses to be added.
-/

namespace CatalogFilter

open Text

/-- The joins that a statement has already, in the order in which they were written. -/
structure Resolver where
  emitted : List JoinSpec
  deriving DecidableEq

namespace Resolver

def fresh : Resolver := ⟨[]⟩

instance : Inhabited Resolver := ⟨fresh⟩

/-- The joins of a statement after a join and its dependencies have been added to it, dependencies
first.  A chain of dependencies has no join twice, so the number of joins bounds its length. -/
def emit (g : JoinGraph) : Nat → List JoinSpec → JoinSpec → List JoinSpec
  | 0, emitted, _ => emitted
  | bound + 1, emitted, spec =>
    if spec ∈ emitted then emitted
    else (JoinGraph.dependencies g.specs spec).foldl (emit g bound) emitted ++ [spec]

/-- The resolver after a table has been named.  A table without a join, such as the base table, needs
none. -/
def add (g : JoinGraph) (r : Resolver) (table : String) : Resolver :=
  match g.get? table with
  | some spec => ⟨emit g g.specs.length r.emitted spec⟩
  | none => r

/-- The clauses that one resolver has beyond another. -/
def clausesSince (before after : Resolver) : List String :=
  (after.emitted.drop before.emitted.length).map JoinSpec.clause

/-- The clauses that a table needs and the statement does not have, dependencies first. -/
def resolve (g : JoinGraph) (r : Resolver) (table : String) : List String × Resolver :=
  let next := add g r table
  (clausesSince r next, next)

/-- The clauses that several tables need one after the other. -/
def resolveAll (g : JoinGraph) (r : Resolver) (tables : List String) : List String × Resolver :=
  let next := tables.foldl (add g) r
  (clausesSince r next, next)

def isEmitted (g : JoinGraph) (r : Resolver) (table : String) : Bool :=
  (g.get? table).any fun spec => decide (spec ∈ r.emitted)

end Resolver
end CatalogFilter
