import CatalogFilter.Proofs.Join.Reach
import CatalogFilter.Schema.Basic

/-!
# Schemas without missing tables

A schema is pruned to the tables that a database has.  A column stays if its table can be reached there: if
the physical tables of all joins that it needs exist, or the table itself where no join is declared for it.

**Main statements**: `Schema.reachable_iff` and `Schema.reachable_of_mem_retainExisting`.
-/

namespace CatalogFilter

open Text

namespace Schema

variable {s : Schema} {tables : List String}

/-- A table exists if it is the base table or one of those of the database, up to case. -/
theorem tableExists_iff {table : String} :
    s.tableExists tables table = true ↔
      sameName table s.baseTable = true ∨ ∃ other ∈ tables, sameName table other = true := by
  simp [tableExists]

/-- **A table can be reached if every join that it needs is of a table that exists**, and if the table itself
exists where it needs no join. -/
theorem reachable_iff {table : String} :
    s.reachable tables table = true ↔
      (∀ spec ∈ s.joins.reach table, s.tableExists tables spec.physicalTable = true) ∧
        (s.joins.get? table = none → s.tableExists tables table = true) := by
  -- the list of tables is empty exactly if there is no join
  have hnil : s.joins.physicalTables table = [] ↔ s.joins.get? table = none := by
    rw [JoinGraph.physicalTables, List.map_eq_nil_iff, JoinGraph.reach_eq_nil_iff]
  unfold reachable
  split
  -- no join, so the table itself has to exist
  next htables =>
    have hnone := hnil.1 htables
    simp [hnone, JoinGraph.reach_eq_nil_iff.2 hnone]
  -- a join, so all tables of the list have to
  next hne =>
    have hsome : s.joins.get? table ≠ none := fun h => hne (hnil.2 h)
    simp [JoinGraph.physicalTables, hsome]

/-- A column of a pruned schema reads a table that can be reached, if it reads one. -/
theorem reachable_of_mem_retainExisting {column : Column} {field : FieldRef}
    (h : column ∈ (s.retainExisting tables).catalog.columns) (hsource : column.source = some field) :
    s.reachable tables field.table = true := by
  have hkept : column.source.all (fun ref => s.reachable tables ref.table) = true :=
    (List.mem_filter.1 h).2
  simpa [hsource] using hkept

end Schema
end CatalogFilter
