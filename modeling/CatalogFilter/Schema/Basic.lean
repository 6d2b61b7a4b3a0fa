import CatalogFilter.Join.Resolver

/-!
# Schemas

A schema says what a catalog database holds: its base table, the fields that every statement selects,
the columns, and the joins that reach their tables.  A definition is a schema as it is stored; a schema
is a definition whose columns and joins have been checked.
-/

namespace CatalogFilter

open Text

/-- A schema as it is stored. -/
structure SchemaDefinition where
  baseTable : String
  /-- The fields that every statement selects. -/
  requiredFields : List FieldRef
  columns : List Column
  joins : List JoinSpec
  deriving DecidableEq, Inhabited

/-- A schema whose columns and joins have been checked. -/
structure Schema where
  baseTable : String
  requiredFields : List FieldRef
  catalog : Catalog
  joins : JoinGraph
  deriving DecidableEq, Inhabited

namespace Schema

/-- The schema of a definition, or its first fault.  Columns are checked before joins. -/
def ofDefinition (d : SchemaDefinition) : Except SchemaError Schema := do
  let catalog ← Catalog.ofColumns d.columns
  let joins ← JoinGraph.ofSpecs d.joins
  pure ⟨d.baseTable, d.requiredFields, catalog, joins⟩

/-- Does a table exist in a database whose tables are given?  The base table always does. -/
def tableExists (s : Schema) (tables : List String) (table : String) : Bool :=
  sameName table s.baseTable || tables.any (sameName table)

/-- Can a table be reached in a database?  Every physical table that its joins need has to exist; a
table without a join has to exist itself. -/
def reachable (s : Schema) (tables : List String) (table : String) : Bool :=
  match s.joins.physicalTables table with
  | [] => s.tableExists tables table
  | chain => chain.all (s.tableExists tables)

/-- The schema with only those columns that read a table which can be reached in a database, or no table
at all. -/
def retainExisting (s : Schema) (tables : List String) : Schema :=
  { s with catalog := s.catalog.retain (s.reachable tables) }

end Schema
end CatalogFilter
