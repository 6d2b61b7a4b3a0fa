/-!
# Keys in the order of their writing

A list of keys with values, each key once, in the order in which the keys were first written.  Such lists
are looked up with the core library's `List.lookup`; this module writes to them.
-/

namespace CatalogFilter.Entries

/-- The entries with a value for a key: in the place of the key's value if it has one, else at the end. -/
def set {α : Type} (entries : List (String × α)) (key : String) (value : α) : List (String × α) :=
  match entries with
  | [] => [(key, value)]
  | entry :: entries =>
    if entry.1 = key then (key, value) :: entries else entry :: set entries key value

/-- A key that has been written has the value written last. -/
theorem lookup_set_self {α : Type} (entries : List (String × α)) (key : String) (value : α) :
    (set entries key value).lookup key = some value := by
  induction entries with
  | nil => simp [set]
  | cons entry entries ih =>
    obtain ⟨name, old⟩ := entry
    by_cases h : name = key
    · simp [set, h]
    · have hk : (key == name) = false := beq_false_of_ne (Ne.symm h)
      simp [set, h, List.lookup_cons, hk, ih]

end CatalogFilter.Entries
