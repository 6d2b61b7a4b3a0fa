/-!
# Maps in key order

A map is a list of entries whose keys ascend strictly.  So a key has at most one value, and two maps
with the same entries are the same map.
-/

namespace CatalogFilter

variable {κ α : Type} [LT κ]

/-- A map from keys to values, its entries in the order of their keys. -/
structure SortedMap (κ α : Type) [LT κ] where
  /-- The entries, by ascending keys. -/
  entries : List (κ × α)
  ascending : entries.Pairwise fun a b => a.1 < b.1
  deriving DecidableEq

namespace SortedMap

/-! ## §1 Entries -/

def lookup [DecidableEq κ] (key : κ) : List (κ × α) → Option α
  | [] => none
  | (k, v) :: entries => if k = key then some v else lookup key entries

/-- The entries with the given one at its place, instead of any entry of the same key. -/
def insertEntry [DecidableEq κ] [DecidableLT κ] (key : κ) (value : α) :
    List (κ × α) → List (κ × α)
  | [] => [(key, value)]
  | (k, v) :: entries =>
    if key < k then (key, value) :: (k, v) :: entries
    else if key = k then (key, value) :: entries
    else (k, v) :: insertEntry key value entries

theorem mem_insertEntry [DecidableEq κ] [DecidableLT κ] {key : κ} {value : α}
    {entries : List (κ × α)} {e : κ × α} (h : e ∈ insertEntry key value entries) :
    e = (key, value) ∨ e ∈ entries := by
  induction entries with
  | nil => simpa [insertEntry] using h
  | cons entry entries ih =>
    obtain ⟨k, v⟩ := entry
    unfold insertEntry at h
    split at h
    · simpa using h
    split at h
    · rcases List.mem_cons.1 h with h | h
      · exact .inl h
      · exact .inr (List.mem_cons_of_mem _ h)
    · rcases List.mem_cons.1 h with h | h
      · exact .inr (h ▸ List.mem_cons_self)
      · rcases ih h with h | h
        · exact .inl h
        · exact .inr (List.mem_cons_of_mem _ h)

theorem pairwise_insertEntry [LE κ] [Std.IsLinearOrder κ] [Std.LawfulOrderLT κ] [DecidableEq κ]
    [DecidableLT κ] (key : κ) (value : α) {entries : List (κ × α)}
    (h : entries.Pairwise fun a b => a.1 < b.1) :
    (insertEntry key value entries).Pairwise fun a b => a.1 < b.1 := by
  induction entries with
  | nil => simp [insertEntry]
  | cons entry entries ih =>
    obtain ⟨k, v⟩ := entry
    obtain ⟨hk, hs⟩ := List.pairwise_cons.1 h
    unfold insertEntry
    split
    next hlt =>
      refine List.pairwise_cons.2 ⟨fun e he => ?_, h⟩
      rcases List.mem_cons.1 he with rfl | he
      · exact hlt
      · exact Std.lt_trans hlt (hk e he)
    next hlt =>
      split
      next heq => subst heq; exact List.pairwise_cons.2 ⟨hk, hs⟩
      next hne =>
        refine List.pairwise_cons.2 ⟨fun e he => ?_, ih hs⟩
        rcases mem_insertEntry he with rfl | he
        · exact Std.lt_of_le_of_ne (Std.not_lt.1 hlt) (Ne.symm hne)
        · exact hk e he

theorem lookup_insertEntry [DecidableEq κ] [DecidableLT κ] (key k : κ) (value : α)
    (entries : List (κ × α)) :
    lookup k (insertEntry key value entries) =
      if key = k then some value else lookup k entries := by
  induction entries with
  | nil => simp [insertEntry, lookup]
  | cons e entries ih =>
    -- before the entry, in its place, or further on
    unfold insertEntry
    split
    · simp [lookup]
    split
    next h =>
      subst h
      by_cases hk : e.1 = k <;> simp [lookup, hk]
    next hne =>
      simp only [lookup, ih]
      split
      next h => subst h; simp [hne]
      next => rfl

/-! ## §2 Maps -/

def empty : SortedMap κ α := ⟨[], .nil⟩

instance : Inhabited (SortedMap κ α) := ⟨empty⟩

def get? [DecidableEq κ] (m : SortedMap κ α) (key : κ) : Option α := lookup key m.entries

def contains [DecidableEq κ] (m : SortedMap κ α) (key : κ) : Bool := (m.get? key).isSome

/-- The map with a value for a key, instead of any that it has. -/
def insert [LE κ] [Std.IsLinearOrder κ] [Std.LawfulOrderLT κ] [DecidableEq κ] [DecidableLT κ]
    (m : SortedMap κ α) (key : κ) (value : α) : SortedMap κ α :=
  ⟨insertEntry key value m.entries, pairwise_insertEntry key value m.ascending⟩

@[simp] theorem get?_empty [DecidableEq κ] (key : κ) : (empty : SortedMap κ α).get? key = none := rfl

/-- An insertion changes what is found for its key, and nothing else. -/
theorem get?_insert [LE κ] [Std.IsLinearOrder κ] [Std.LawfulOrderLT κ] [DecidableEq κ] [DecidableLT κ]
    (m : SortedMap κ α) (key k : κ) (value : α) :
    (m.insert key value).get? k = if key = k then some value else m.get? k :=
  lookup_insertEntry key k value m.entries

def erase [DecidableEq κ] (m : SortedMap κ α) (key : κ) : SortedMap κ α :=
  ⟨m.entries.filter fun e => e.1 ≠ key, m.ascending.filter _⟩

/-- The map with the entries of a list; of equal keys the last entry counts. -/
def ofList [LE κ] [Std.IsLinearOrder κ] [Std.LawfulOrderLT κ] [DecidableEq κ] [DecidableLT κ]
    (entries : List (κ × α)) : SortedMap κ α :=
  entries.foldl (fun m e => m.insert e.1 e.2) empty

def size (m : SortedMap κ α) : Nat := m.entries.length

def isEmpty (m : SortedMap κ α) : Bool := m.entries.isEmpty

theorem ext {m n : SortedMap κ α} (h : m.entries = n.entries) : m = n := by
  cases m; cases n; cases h; rfl

end SortedMap
end CatalogFilter
