/-!
# Quoting by doubling

A text is quoted by a delimiter at each end, each delimiter inside it being written twice.  The reader
consumes a text up to its closing delimiter.  **Main statement** (`readDoubled_doubled`): reading takes
back exactly what quoting wrote, whatever follows, as long as it does not begin with the delimiter.
-/

namespace CatalogFilter.Text

/-- Every delimiter written twice. -/
def doubled (delimiter : Char) : List Char → List Char
  | [] => []
  | c :: cs =>
    if c = delimiter then delimiter :: delimiter :: doubled delimiter cs
    else c :: doubled delimiter cs

def quoted (delimiter : Char) (cs : List Char) : List Char :=
  delimiter :: (doubled delimiter cs ++ [delimiter])

/-- Reads a quoted text after its opening delimiter: the text, if its closing delimiter is found, and
what is left. -/
def readDoubled (delimiter : Char) : List Char → Option (List Char) × List Char
  | [] => (none, [])
  | [c] => if c = delimiter then (some [], []) else (none, [])
  | c :: d :: cs =>
    if c = delimiter then
      if d = delimiter then
        let (value, rest) := readDoubled delimiter cs
        (value.map (delimiter :: ·), rest)
      else (some [], d :: cs)
    else
      let (value, rest) := readDoubled delimiter (d :: cs)
      (value.map (c :: ·), rest)

/-! ## §1 What quoting writes -/

theorem doubled_append (delimiter : Char) (front back : List Char) :
    doubled delimiter (front ++ back) = doubled delimiter front ++ doubled delimiter back := by
  induction front with
  | nil => rfl
  | cons c front ih =>
    rw [List.cons_append, doubled, doubled, ih]
    split <;> rfl

theorem length_le_length_doubled (delimiter : Char) (cs : List Char) :
    cs.length ≤ (doubled delimiter cs).length := by
  induction cs with
  | nil => exact Nat.le_refl 0
  | cons c cs ih =>
    rw [doubled]
    split <;> simp only [List.length_cons] <;> omega

/-! ## §2 What the reader leaves -/

theorem length_readDoubled_le (delimiter : Char) (cs : List Char) :
    (readDoubled delimiter cs).2.length ≤ cs.length := by
  fun_induction readDoubled delimiter cs <;> simp_all <;> omega

/-! ## §3 Reading takes back what quoting wrote -/

theorem readDoubled_doubled (delimiter : Char) (cs rest : List Char)
    (h : rest.head? ≠ some delimiter) :
    readDoubled delimiter (doubled delimiter cs ++ delimiter :: rest) = (some cs, rest) := by
  induction cs with
  | nil =>
    cases rest with
    | nil => simp [doubled, readDoubled]
    | cons r rest =>
      have : r ≠ delimiter := by simpa using h
      simp [doubled, readDoubled, this]
  | cons c cs ih =>
    by_cases hc : c = delimiter
    · simp [doubled, readDoubled, hc, ih]
    · simp only [doubled, if_neg hc, List.cons_append]
      cases hd : doubled delimiter cs ++ delimiter :: rest with
      | nil => simp at hd
      | cons d ds =>
        rw [hd] at ih
        simp [readDoubled, hc, ih]

end CatalogFilter.Text
