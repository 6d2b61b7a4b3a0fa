/-!
# Letter case

Keywords, table names and field names are compared without regard to the case of the letters A to Z;
every other character stands for itself.
-/

namespace CatalogFilter.Text

def upperCase (cs : List Char) : List Char := cs.map Char.toUpper

/-- Are two names equal up to the case of the letters A to Z? -/
def sameName (a b : String) : Bool := a.toLower == b.toLower

theorem sameName_iff {a b : String} : sameName a b = true ↔ a.toLower = b.toLower := by
  simp [sameName]

/-- Two names are compared character by character. -/
theorem sameName_eq (a b : String) :
    sameName a b = (a.toList.map Char.toLower == b.toList.map Char.toLower) := by
  have hlower : ∀ name : String, name.toLower.toList = name.toList.map Char.toLower :=
    fun _ => String.toList_map
  rw [Bool.eq_iff_iff, sameName_iff, beq_iff_eq, ← String.toList_inj, hlower, hlower]

@[simp] theorem sameName_refl (a : String) : sameName a a = true := by simp [sameName]

theorem sameName_comm (a b : String) : sameName a b = sameName b a := by
  simp only [sameName, Bool.beq_comm]

theorem sameName_trans {a b c : String} (hab : sameName a b = true) (hbc : sameName b c = true) :
    sameName a c = true := by
  rw [sameName_iff] at *
  exact hab.trans hbc

end CatalogFilter.Text
