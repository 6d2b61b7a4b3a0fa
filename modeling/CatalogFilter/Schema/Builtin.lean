import CatalogFilter.Schema.Basic

/-!
# The built-in schema

The schema of the arcade game catalog.  Games are the base table; all other tables are reached from it.
-/

namespace CatalogFilter.Builtin

/-! ## §1 Shapes of columns -/

/-- The table that every statement starts from. -/
def baseTable : String := "Games"

def textColumn (id label table field : String) : Column :=
  ⟨id, label, some ⟨table, field⟩, .text, true, true⟩

def typedColumn (id label table field : String) (type : ValueType) : Column :=
  ⟨id, label, some ⟨table, field⟩, type, true, true⟩

def labelled (labels : List (Int64 × String)) : ValueType := .enum (SortedMap.ofList labels)

def driverStatus : ValueType := labelled [(0, "good"), (1, "imperfect"), (2, "preliminary")]

def savestateSupport : ValueType := labelled [(0, "unsupported"), (1, "supported")]

def rotation : ValueType :=
  labelled [(0, "horizontal"), (90, "vertical"), (180, "horizontal (flipped)"),
    (270, "vertical (flipped)")]

/-! ## §2 Columns and joins -/

def columns : List Column :=
  [⟨"details", "Details", none, .text, false, false⟩,
   textColumn "name" "Name" "Games" "name",
   textColumn "description" "Description" "Games" "description",
   typedColumn "year" "Year" "Games" "year" .number,
   textColumn "manufacturer" "Manufacturer" "Manufacturers" "name",
   textColumn "parent" "Parent" "Parents" "name",
   ⟨"clone_of", "Clone Of", some ⟨"Games", "clone_of"⟩, .gameId, true, false⟩,
   typedColumn "status" "Status" "Drivers" "status" driverStatus,
   typedColumn "emulation" "Emulation" "Drivers" "emulation" driverStatus,
   typedColumn "savestate" "Save State" "Drivers" "savestate" savestateSupport,
   textColumn "category" "Category" "Categories" "name",
   textColumn "series" "Series" "Series" "name",
   textColumn "language" "Language" "Languages" "name",
   typedColumn "players" "Players" "Inputs" "players" .number,
   typedColumn "buttons" "Buttons" "Inputs" "buttons" .number,
   textColumn "control" "Control" "Controls" "type",
   typedColumn "orientation" "Orientation" "Displays" "rotate" rotation,
   typedColumn "refresh" "Refresh" "Displays" "refresh" .number]

/-- The joins; a table that links two others stands before the one that it reaches. -/
def joins : List JoinSpec :=
  [⟨"Manufacturers", [],
      "LEFT JOIN Manufacturers ON Manufacturers.id = Games.manufacturer_id", none⟩,
   ⟨"Parents", [], "LEFT JOIN Games AS Parents ON Parents.id = Games.clone_of", some "Games"⟩,
   ⟨"Drivers", [], "LEFT JOIN Drivers ON Drivers.game_id = Games.id", none⟩,
   ⟨"GameCategories", [], "LEFT JOIN GameCategories ON GameCategories.game_id = Games.id", none⟩,
   ⟨"Categories", ["GameCategories"],
      "LEFT JOIN Categories ON Categories.id = GameCategories.category_id", none⟩,
   ⟨"GameSeries", [], "LEFT JOIN GameSeries ON GameSeries.game_id = Games.id", none⟩,
   ⟨"Series", ["GameSeries"], "LEFT JOIN Series ON Series.id = GameSeries.series_id", none⟩,
   ⟨"GameLanguages", [], "LEFT JOIN GameLanguages ON GameLanguages.game_id = Games.id", none⟩,
   ⟨"Languages", ["GameLanguages"],
      "LEFT JOIN Languages ON Languages.id = GameLanguages.language_id", none⟩,
   ⟨"Inputs", [], "LEFT JOIN Inputs ON Inputs.game_id = Games.id", none⟩,
   ⟨"Controls", ["Inputs"], "LEFT JOIN Controls ON Controls.input_id = Inputs.id", none⟩,
   ⟨"Displays", [], "LEFT JOIN Displays ON Displays.game_id = Games.id", none⟩]

/-- The fields that every statement selects. -/
def requiredFields : List FieldRef :=
  [⟨baseTable, "id"⟩, ⟨baseTable, "screenshot"⟩, ⟨baseTable, "romset"⟩, ⟨baseTable, "system"⟩]

def definition : SchemaDefinition := ⟨baseTable, requiredFields, columns, joins⟩

/-- The catalog of the built-in columns, none of which clash. -/
def catalog : Catalog := .ofCompatible columns (by decide +kernel)

/-- The graph of the built-in joins, which have no fault. -/
def graph : JoinGraph := ⟨joins, by decide +kernel⟩

def schema : Schema := ⟨baseTable, requiredFields, catalog, graph⟩

end CatalogFilter.Builtin
