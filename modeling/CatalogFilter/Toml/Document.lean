import CatalogFilter.Order.Entries
import CatalogFilter.Toml.Basic

/-!
# TOML documents

The keys of a document are written in three ways: in the lines under the header of a table, in parts
joined by points, and inside the braces of a table on one line.  Whether a table may still grow depends on
how it came to be, so a document keeps that for every table while it is being read.

**Main definitions**: `Slots.put?` writes a value under a key of several parts, `Slots.openTable?` and
`Slots.openItem?` follow the headers of tables and of tables in arrays.  All three answer nothing where
something would be written twice.
-/

namespace CatalogFilter.Toml

/-! ## §1 Slots -/

/-- How a table came to be. -/
inductive Origin where
  /-- By a header of its own. -/
  | header
  /-- By the header of a table inside it. -/
  | implied
  /-- By a key of several parts. -/
  | dotted
  deriving DecidableEq, Repr

/-- What a key of a document holds. -/
inductive Slot where
  /-- A value; nothing can be added to it, even if it is a table or an array. -/
  | value (value : Toml)
  | table (origin : Origin) (slots : List (String × Slot))
  /-- An array of tables, each under a header; only the last of them may still grow. -/
  | tables (earlier : List Toml) (last : List (String × Slot))

/-- The keys of a table with what they hold. -/
abbrev Slots := List (String × Slot)

mutual

def Slot.finish : Slot → Toml
  | .value value => value
  | .table _ slots => .table (finishAll slots)
  | .tables earlier last => .array (earlier ++ [.table (finishAll last)])

def finishAll : List (String × Slot) → List (String × Toml)
  | [] => []
  | (key, slot) :: slots => (key, slot.finish) :: finishAll slots

end

namespace Slots

/-! ## §2 Keys -/

/-- The slots with a value under a key whose other parts are given as a path.  A path leads through tables
that have no header of their own, and makes those that are missing.  `isOpen` tells whether the key may
be written into the table that the path has led to: a path of several parts has to end in a table that
came to be by such a path. -/
def write? (key : String) (value : Toml) : Bool → List String → Slots → Option Slots
  | isOpen, [], slots =>
    if isOpen && (slots.lookup key).isNone then some (slots ++ [(key, .value value)]) else none
  | _, part :: path, slots =>
    match slots.lookup part with
    | none => (write? key value true path []).map fun inner => Entries.set slots part (.table .dotted inner)
    | some (.table .header _) => none
    | some (.table origin inner) =>
      (write? key value (origin == .dotted) path inner).map fun inner =>
        Entries.set slots part (.table origin inner)
    | some (.tables earlier last) =>
      (write? key value false path last).map fun last => Entries.set slots part (.tables earlier last)
    | some (.value _) => none

/-- The slots of a table with a value under a key of one or more parts. -/
def put? (slots : Slots) (keys : List String) (value : Toml) : Option Slots :=
  keys.getLast?.bind fun key => write? key value true keys.dropLast slots

/-! ## §3 Headers -/

/-- The slots after a change to those at the end of a header.  A header leads through all tables, and
through the last tables of arrays of tables, and makes the tables that are missing. -/
def change? (change : Slots → Option Slots) : List String → Slots → Option Slots
  | [], slots => change slots
  | part :: path, slots =>
    match slots.lookup part with
    | none => (change? change path []).map fun inner => Entries.set slots part (.table .implied inner)
    | some (.table origin inner) =>
      (change? change path inner).map fun inner => Entries.set slots part (.table origin inner)
    | some (.tables earlier last) =>
      (change? change path last).map fun last => Entries.set slots part (.tables earlier last)
    | some (.value _) => none

/-- The slots after the header of a table.  A table has at most one header, and none if a key of several
parts has made it. -/
def openTable? (slots : Slots) (path : List String) : Option Slots :=
  path.getLast?.bind fun key =>
    change?
      (fun slots =>
        match slots.lookup key with
        | none => some (slots ++ [(key, .table .header [])])
        | some (.table .implied inner) => some (Entries.set slots key (.table .header inner))
        | some _ => none)
      path.dropLast slots

/-- The slots after the header of a further table in an array of tables. -/
def openItem? (slots : Slots) (path : List String) : Option Slots :=
  path.getLast?.bind fun key =>
    change?
      (fun slots =>
        match slots.lookup key with
        | none => some (slots ++ [(key, .tables [] [])])
        | some (.tables earlier last) =>
          some (Entries.set slots key (.tables (earlier ++ [.table (finishAll last)]) []))
        | some _ => none)
      path.dropLast slots

end Slots

/-! ## §4 Documents -/

/-- What has been read of a document: its slots, and the table that lines belong to. -/
structure Document where
  slots : Slots
  table : List String

namespace Document

def start : Document := ⟨[], []⟩

def put? (d : Document) (keys : List String) (value : Toml) : Option Document :=
  (Slots.change? (fun slots => slots.put? keys value) d.table d.slots).map fun slots => { d with slots }

def openTable? (d : Document) (path : List String) : Option Document :=
  (d.slots.openTable? path).map fun slots => ⟨slots, path⟩

/-- The document after the header of a further table in an array of tables. -/
def openItem? (d : Document) (path : List String) : Option Document :=
  (d.slots.openItem? path).map fun slots => ⟨slots, path⟩

def entries (d : Document) : List (String × Toml) := finishAll d.slots

end Document
end CatalogFilter.Toml
