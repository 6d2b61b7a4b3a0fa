import CatalogFilter.Criterion.Stored
import CatalogFilter.Proofs.Catalog.Resolution
import CatalogFilter.Proofs.Json.RoundTrip
import CatalogFilter.Proofs.Order.LookUp
import CatalogFilter.Schema.Stored

/-!
# Stored schemas and filter sets are read as they were written

Writer and reader are not mirror images.  A reader of records knows what a missing field means, but no field
that is written is missing.  It takes the last of several entries for a key, but the keys of a map ascend, so
that none is written twice.  And it takes the whole of a stored type in before it looks at its name, for which
the type may be neither too deep nor have numbers that are too large; but it is flat, and its numbers fit a
word.

**Main definition**: `Json.Stores`.  **Main statement**: `Stored.ofText?_toText`.
-/

namespace CatalogFilter
namespace Json

/-! ## §1 Writers with their readers -/

/-- What is written can be read, and is read as what it was written for. -/
structure Stores {α : Type} (write : α → Json) (read : Json → Option α) : Prop where
  readable (a : α) : Readable (write a)
  read_write (a : α) : read (write a) = some a

section Combined

variable {α : Type} {write : α → Json} {read : Json → Option α}

/-- The compact text of what is written is read as well. -/
theorem Stores.ofText (h : Stores write read) (a : α) : (ofText? (write a).compact).bind read = some a := by
  rw [ofText?_compact (h.readable a), Option.bind_some, h.read_write a]

theorem Stores.list (h : Stores write read) : Stores (ofList write) (list? read) where
  readable items := .array (by simp [h.readable])
  read_write := mapM_map_write h.read_write

/-- A value that may be missing, if `null` is written for no value that is there. -/
theorem Stores.option (h : Stores write read) (hnull : ∀ a, write a ≠ .null) :
    Stores (ofOption write) (optional? read) where
  readable
    | none => .null
    | some a => h.readable a
  read_write
    | none => rfl
    | some a => by
      have hread : optional? read (write a) = (read (write a)).map some := by
        unfold optional?
        -- nothing that is there is taken for `null`
        split
        next hwrite => exact absurd hwrite (hnull a)
        next => rfl
      rw [ofOption, hread, h.read_write, Option.map_some]

end Combined

theorem stores_string : Stores .string string? := ⟨.string, fun _ => rfl⟩

theorem stores_int64 : Stores ofInt64 int64? where
  readable n := .integer n.toInt
  read_write n := by
    -- the bounds of a word are those of the check
    have hfits : Text.fitsWord n.toInt = true := by
      rw [Text.fitsWord, decide_eq_true (Int64.minValue_le_toInt n), decide_eq_true (Int64.toInt_le n)]
      rfl
    rw [ofInt64, int64?, if_pos hfits, Int64.ofInt_toInt]

/-! ## §2 Records -/

/-- In an object whose keys are the names of a record, in order and each once, every field is found. -/
theorem fields?_object {names : List String} {members : List (String × Json)}
    (hnames : members.map Prod.fst = names) (hnodup : names.Nodup) :
    (Json.object members).fields? names = some (members.map fun m => some m.2) := by
  subst hnames
  have hpairwise : members.Pairwise fun m n => m.1 ≠ n.1 := List.pairwise_map.1 hnodup
  -- a key that is written once is found once
  have hfilter : ∀ m ∈ members, members.filter (fun n => n.1 == m.1) = [m] := by
    intro m hm
    apply filter_eq_singleton hpairwise hm (by simp)
    intro n hn
    have hkey : n.1 = m.1 := by simpa using hn
    simp [hkey]
  -- so no known field stands there twice
  have honce : (members.map Prod.fst).all
      (fun name => (members.filter fun m => m.1 == name).length ≤ 1) = true := by
    simp only [List.all_map, List.all_eq_true, Function.comp_apply, decide_eq_true_eq]
    intro m hm
    simp [hfilter m hm]
  -- and what is found for it is what was written
  have hfound : ((members.map Prod.fst).map fun name => (members.find? fun m => m.1 == name).map (·.2)) =
      members.map fun m => some m.2 := by
    rw [List.map_map]
    apply List.map_congr_left
    intro m hm
    rw [Function.comp_apply, ← List.head?_filter, hfilter m hm]
    rfl
  rw [fields?, if_pos honce, hfound]

/-! ## §3 Numbers and depths that can be taken in -/

/-- No number of a word is too large. -/
theorem overflows_int64 (n : Int64) : overflows n.toInt.natAbs 0 = false := by
  -- a number of a word is far below the bound
  have hword : n.toInt.natAbs ≤ 2 ^ 63 := by
    have hlow := Int64.le_toInt n
    have hhigh := Int64.toInt_lt n
    omega
  have hbound : n.toInt.natAbs < overflowBound := Nat.lt_of_le_of_lt hword (by decide +kernel)
  simp [overflows, hbound]

theorem areSound_iff {levels : Nat} {items : List Json} :
    areSound levels items = true ↔ ∀ item ∈ items, isSound levels item = true := by
  induction items with
  | nil => simp [areSound]
  | cons item items ih => simp [areSound, ih]

end Json

open Json

/-! ## §4 Schemas -/

theorem FieldRef.stores : Stores FieldRef.toJson FieldRef.ofJson? where
  readable ref := .object (by simp [Readable.string])
  read_write ref := by
    have hfields : ref.toJson.fields? ["table", "field"] =
        some [some (.string ref.table), some (.string ref.field)] := fields?_object rfl (by decide)
    rw [FieldRef.ofJson?, hfields]
    rfl

namespace EnumLabels

theorem stores_entry : Stores entryToJson entryOfJson? where
  readable entry := .object (by simp [Readable.string, stores_int64.readable])
  read_write entry := by
    have hfields : (entryToJson entry).fields? ["value", "label"] =
        some [some (ofInt64 entry.1), some (.string entry.2)] := fields?_object rfl (by decide)
    simp [entryOfJson?, hfields, stores_int64.read_write, stores_string.read_write]

theorem stores : Stores toJson ofJson? where
  readable labels := stores_entry.list.readable labels.entries
  read_write labels := by
    rw [ofJson?, toJson, stores_entry.list.read_write, Option.map_some, SortedMap.ofList_entries]

end EnumLabels

namespace ValueType

theorem isSound_entryToJson (levels : Nat) (entry : Int64 × String) :
    (EnumLabels.entryToJson entry).isSound (levels + 1) = true := by
  simp [EnumLabels.entryToJson, ofInt64, isSound, membersSound, overflows_int64]

/-- The type, its labels and each of these are levels; there are no more. -/
theorem isSound_toJson (levels : Nat) (type : ValueType) : type.toJson.isSound (levels + 3) = true := by
  cases type with
  | text => rfl
  | number => rfl
  | gameId => rfl
  | enum labels =>
    -- only the labels of an enumeration have parts
    have hentries : areSound (levels + 1) (labels.entries.map EnumLabels.entryToJson) = true :=
      areSound_iff.2 (List.forall_mem_map.2 fun entry _ => isSound_entryToJson levels entry)
    simp [toJson, EnumLabels.toJson, ofList, isSound, membersSound, hentries]

theorem stores : Stores toJson ofJson? where
  readable
    | .text | .number | .gameId => .object (by simp [Readable.string])
    | .enum labels => .object (by simp [Readable.string, EnumLabels.stores.readable])
  read_write type := by
    -- all of the type is taken in and checked before its kind is looked at
    have hsound : type.toJson.isSound maxLevels = true := isSound_toJson 121 type
    cases type with
    | text => rfl
    | number => rfl
    | gameId => rfl
    | enum labels =>
      rw [toJson, kind] at hsound ⊢
      simp [ofJson?, hsound, fields?, ofKind?, EnumLabels.stores.read_write]

end ValueType

theorem Column.stores_source : Stores (ofOption FieldRef.toJson) (optional? FieldRef.ofJson?) :=
  FieldRef.stores.option (by simp [FieldRef.toJson])

theorem Column.stores : Stores Column.toJson Column.ofJson? where
  readable c := .object (by
    simp [Readable.string, Readable.bool, stores_source.readable, ValueType.stores.readable])
  read_write c := by
    have hfields : c.toJson.fields? ["id", "label", "source", "value_type", "filterable", "sortable"] =
        some [some (.string c.id), some (.string c.label), some (ofOption FieldRef.toJson c.source),
          some c.valueType.toJson, some (.bool c.filterable), some (.bool c.sortable)] :=
      fields?_object rfl (by decide)
    simp [Column.ofJson?, hfields, fieldOr, string?, bool?, stores_source.read_write,
      ValueType.stores.read_write]

theorem JoinSpec.stores_aliasOf : Stores (ofOption .string) (optional? string?) :=
  stores_string.option (by simp)

theorem JoinSpec.stores : Stores JoinSpec.toJson JoinSpec.ofJson? where
  readable spec := .object (by
    simp [Readable.string, stores_string.list.readable, stores_aliasOf.readable])
  read_write spec := by
    have hfields : spec.toJson.fields? ["table", "dependencies", "clause", "alias_of"] =
        some [some (.string spec.table), some (ofList .string spec.dependencies),
          some (.string spec.clause), some (ofOption .string spec.aliasOf)] := fields?_object rfl (by decide)
    simp [JoinSpec.ofJson?, hfields, fieldOr, string?, stores_string.list.read_write,
      stores_aliasOf.read_write]

theorem SchemaDefinition.stores : Stores SchemaDefinition.toJson SchemaDefinition.ofJson? where
  readable d := .object (by
    simp [Readable.string, FieldRef.stores.list.readable, Column.stores.list.readable,
      JoinSpec.stores.list.readable])
  read_write d := by
    have hfields : d.toJson.fields? ["base_table", "required_fields", "columns", "joins"] =
        some [some (.string d.baseTable), some (ofList FieldRef.toJson d.requiredFields),
          some (ofList Column.toJson d.columns), some (ofList JoinSpec.toJson d.joins)] :=
      fields?_object rfl (by decide)
    simp [SchemaDefinition.ofJson?, hfields, fieldOr, string?, FieldRef.stores.list.read_write,
      Column.stores.list.read_write, JoinSpec.stores.list.read_write]

/-! ## §5 Filter sets -/

theorem CriteriaRow.stores : Stores CriteriaRow.toJson CriteriaRow.ofJson? where
  readable row := .object (List.forall_mem_map.2 fun _ _ => .string _)
  read_write row := by
    have hentry : ∀ entry : String × String,
        CriteriaRow.entryOfJson? (entry.1, Json.string entry.2) = some entry := fun _ => rfl
    rw [CriteriaRow.toJson, CriteriaRow.ofJson?, mapM_map_write hentry, Option.map_some,
      SortedMap.ofList_entries]

theorem FilterSet.stores : Stores FilterSet.toJson FilterSet.ofJson? where
  readable set := .object (by simp [FilterSet.rowsToJson, CriteriaRow.stores.list.readable])
  read_write set := by
    have hfields : set.toJson.fields? ["rows"] = some [some (ofList CriteriaRow.toJson set.rows)] :=
      fields?_object rfl (by decide)
    simp [FilterSet.ofJson?, hfields, FilterSet.ofRowsJson?, CriteriaRow.stores.list.read_write]

/-- **Every definition of a schema and every filter set is read from the text that is stored of it.** -/
theorem Stored.ofText?_toText (d : SchemaDefinition) (set : FilterSet) :
    SchemaDefinition.ofText? d.toText = some d ∧ FilterSet.ofText? set.toText = some set :=
  ⟨SchemaDefinition.stores.ofText d, FilterSet.stores.ofText set⟩

end CatalogFilter
