import CatalogFilter.Order.SortedMap

/-!
# Looking up in maps

A map is determined by what is found in it, and it is built from its own entries.

**Main statements**: `SortedMap.ext_get?` and `SortedMap.ofList_entries`.
-/

namespace CatalogFilter
namespace SortedMap

variable {κ α : Type} [DecidableEq κ]

/-! ## §1 Lists of entries -/

theorem lookup_eq_none {key : κ} {entries : List (κ × α)} (h : ∀ e ∈ entries, e.1 ≠ key) :
    lookup key entries = none := by
  induction entries with
  | nil => rfl
  | cons e entries ih =>
    have he : e.1 ≠ key := h e (by simp)
    have hrest := ih fun e' he' => h e' (by simp [he'])
    simp [lookup, he, hrest]

theorem mem_of_lookup {key : κ} {value : α} {entries : List (κ × α)}
    (h : lookup key entries = some value) : (key, value) ∈ entries := by
  induction entries with
  | nil => simp [lookup] at h
  | cons e entries ih =>
    by_cases he : e.1 = key
    · obtain rfl : e.2 = value := by simpa [lookup, he] using h
      simp [← he]
    · exact List.mem_cons_of_mem e (ih (by simpa [lookup, he] using h))

/-- A key with an entry is found. -/
theorem exists_lookup_of_mem {key : κ} {value : α} {entries : List (κ × α)} (hmem : (key, value) ∈ entries) :
    ∃ v, lookup key entries = some v := by
  cases hl : lookup key entries with
  | some v => exact ⟨v, rfl⟩
  | none =>
    exfalso
    induction entries with
    | nil => simp at hmem
    | cons e entries ih =>
      by_cases he : e.1 = key
      · simp [lookup, he] at hl
      · rcases List.mem_cons.1 hmem with rfl | htail
        · exact he rfl
        · exact ih htail (by simpa [lookup, he] using hl)

/-- Where all entries of a key agree, each of them is what is found. -/
theorem lookup_eq_some {key : κ} {value : α} {entries : List (κ × α)} (hmem : (key, value) ∈ entries)
    (h : ∀ v, (key, v) ∈ entries → v = value) : lookup key entries = some value := by
  obtain ⟨v, hv⟩ := exists_lookup_of_mem hmem
  rw [hv, h v (mem_of_lookup hv)]

/-- In a list of found entries, the one that is found for a key comes from the first item that has one for
it. -/
theorem exists_of_lookup_filterMap {β : Type} {f : β → Option (κ × α)} {items : List β} {key : κ} {value : α}
    (h : lookup key (items.filterMap f) = some value) :
    ∃ before item after, items = before ++ item :: after ∧ f item = some (key, value) ∧
      ∀ earlier ∈ before, ∀ v, f earlier ≠ some (key, v) := by
  induction items with
  | nil => simp [lookup] at h
  | cons first items ih =>
    -- either the first item has the entry, or it makes no difference to what is found
    by_cases hfirst : ∃ v, f first = some (key, v)
    · obtain ⟨v, hv⟩ := hfirst
      obtain rfl : v = value := by simpa [hv, lookup] using h
      exact ⟨[], first, items, rfl, hv, by simp⟩
    · have hrest : lookup key (items.filterMap f) = some value := by
        cases hf : f first with
        | none => simpa [hf] using h
        | some e =>
          have he : e.1 ≠ key := fun he => hfirst ⟨e.2, by rw [hf, ← he]⟩
          simpa [hf, lookup, he] using h
      obtain ⟨before, item, after, rfl, hitem, hbefore⟩ := ih hrest
      refine ⟨first :: before, item, after, rfl, hitem, fun earlier hearlier v hv => ?_⟩
      rcases List.mem_cons.1 hearlier with rfl | hearlier
      · exact hfirst ⟨v, hv⟩
      · exact hbefore earlier hearlier v hv

/-! ## §2 Maps -/

section Linear

variable [LT κ] [LE κ] [Std.IsLinearOrder κ] [Std.LawfulOrderLT κ]

/-- In ascending entries nothing comes before the first key. -/
theorem lookup_eq_none_of_lt {key k : κ} {value : α} {entries : List (κ × α)}
    (h : ((k, value) :: entries).Pairwise fun a b => a.1 < b.1) (hlt : key < k) :
    lookup key ((k, value) :: entries) = none := by
  apply lookup_eq_none
  intro e he
  rcases List.mem_cons.1 he with rfl | he
  · exact (Std.ne_of_lt hlt).symm
  · exact (Std.ne_of_lt (Std.lt_trans hlt ((List.pairwise_cons.1 h).1 e he))).symm

theorem entries_eq {xs ys : List (κ × α)} (hx : xs.Pairwise fun a b => a.1 < b.1)
    (hy : ys.Pairwise fun a b => a.1 < b.1) (h : ∀ k, lookup k xs = lookup k ys) : xs = ys := by
  induction xs generalizing ys with
  | nil =>
    cases ys with
    | nil => rfl
    | cons y ys => simpa [lookup] using h y.1
  | cons x xs ih =>
    cases ys with
    | nil => simpa [lookup] using h x.1
    | cons y ys =>
      obtain ⟨k, v⟩ := x
      obtain ⟨l, w⟩ := y
      have hk : lookup k ((l, w) :: ys) = some v := by rw [← h k]; simp [lookup]
      have hl : lookup l ((k, v) :: xs) = some w := by rw [h l]; simp [lookup]
      -- the smaller of the two first keys would be missing in the other list
      have hkl : k = l := by
        rcases Std.lt_trichotomy k l with hlt | heq | hlt
        · rw [lookup_eq_none_of_lt hy hlt] at hk
          simp at hk
        · exact heq
        · rw [lookup_eq_none_of_lt hx hlt] at hl
          simp at hl
      subst hkl
      obtain rfl : w = v := by simpa [lookup] using hk
      -- the keys behind the first are greater, so looking for it in the rest finds nothing on either side
      have hrest : xs = ys := by
        apply ih (List.pairwise_cons.1 hx).2 (List.pairwise_cons.1 hy).2
        intro key
        by_cases hkey : k = key
        · subst hkey
          rw [lookup_eq_none fun e he => (Std.ne_of_lt ((List.pairwise_cons.1 hx).1 e he)).symm,
            lookup_eq_none fun e he => (Std.ne_of_lt ((List.pairwise_cons.1 hy).1 e he)).symm]
        · simpa [lookup, hkey] using h key
      rw [hrest]

omit [Std.IsLinearOrder κ] in
/-- In ascending entries each is found for its key. -/
theorem lookup_of_mem {key : κ} {value : α} {entries : List (κ × α)}
    (h : entries.Pairwise fun a b => a.1 < b.1) (hmem : (key, value) ∈ entries) :
    lookup key entries = some value := by
  induction entries with
  | nil => simp at hmem
  | cons e entries ih =>
    obtain ⟨he, hrest⟩ := List.pairwise_cons.1 h
    rcases List.mem_cons.1 hmem with rfl | hmem
    · simp [lookup]
    · -- an entry behind the first has a greater key
      have hne : e.1 ≠ key := Std.ne_of_lt (he _ hmem)
      simp [lookup, hne, ih hrest hmem]

omit [Std.IsLinearOrder κ] in
/-- What stands in a map is what is found in it. -/
theorem mem_entries_iff {m : SortedMap κ α} {key : κ} {value : α} :
    (key, value) ∈ m.entries ↔ m.get? key = some value :=
  ⟨lookup_of_mem m.ascending, mem_of_lookup⟩

/-- **A map is what is found in it.** -/
theorem ext_get? {m n : SortedMap κ α} (h : ∀ k, m.get? k = n.get? k) : m = n :=
  ext (entries_eq m.ascending n.ascending h)

/-! ## §3 Maps from lists -/

variable [DecidableLT κ]

/-- An entry with a key behind all others comes last. -/
theorem insertEntry_of_lt {key : κ} (value : α) {entries : List (κ × α)} (h : ∀ e ∈ entries, e.1 < key) :
    insertEntry key value entries = entries ++ [(key, value)] := by
  induction entries with
  | nil => rfl
  | cons e entries ih =>
    have he : e.1 < key := h e (by simp)
    have hrest := ih fun e' he' => h e' (by simp [he'])
    simp [insertEntry, Std.not_lt.2 (Std.le_of_lt he), (Std.ne_of_lt he).symm, hrest]

/-- The entries of a map to which ascending entries behind its own are added. -/
theorem entries_foldl_insert {entries : List (κ × α)} {m : SortedMap κ α}
    (h : (m.entries ++ entries).Pairwise fun a b => a.1 < b.1) :
    (entries.foldl (fun m e => m.insert e.1 e.2) m).entries = m.entries ++ entries := by
  -- on the entries to be added, for any map whose own entries come before them
  induction entries generalizing m with
  | nil => simp
  | cons e entries ih =>
    have hbefore : ∀ e' ∈ m.entries, e'.1 < e.1 := fun e' he' =>
      (List.pairwise_append.1 h).2.2 e' he' e (by simp)
    have hinsert : (m.insert e.1 e.2).entries = m.entries ++ [e] := insertEntry_of_lt e.2 hbefore
    rw [List.foldl_cons, ih (by simpa [hinsert] using h), hinsert]
    simp

/-- **A map is what the list of its entries makes.** -/
theorem ofList_entries (m : SortedMap κ α) : ofList m.entries = m :=
  ext (entries_foldl_insert (m := empty) m.ascending)

end Linear

end SortedMap
end CatalogFilter
