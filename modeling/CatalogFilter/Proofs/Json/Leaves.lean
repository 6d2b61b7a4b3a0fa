import CatalogFilter.Json.Reader
import CatalogFilter.Json.Writer
import Mathlib.Data.List.TakeDrop

/-!
# Strings and numbers in JSON

What is written for a string or a number is read back as that string or number, and what follows it is left.
A string ends with its closing quote, whatever follows.  A number has no end of its own: it is read as it was
written only if no character follows that could belong to it.

**Main definition**: `EndsNumber`.  **Main statements**: `readString_escaped`, `readNumber_integer` and
`readNumber_decimal`.
-/

namespace CatalogFilter.Json

open Text

/-! ## §1 Strings -/

theorem hexDigit?_hexDigit {n : Nat} (h : n < 16) : hexDigit? (hexDigit n) = some n := by
  -- sixteen cases, decided one by one
  have hall : ∀ n < 16, hexDigit? (hexDigit n) = some n := by decide
  exact hall n h

/-- A control character is escaped by its code. -/
theorem hexUnit?_control {c : Char} (h : c.toNat < 0x20) :
    hexUnit? '0' '0' (hexDigit (c.toNat / 16)) (hexDigit (c.toNat % 16)) = some c.toNat := by
  have hzero : hexDigit? '0' = some 0 := rfl
  have hhigh := hexDigit?_hexDigit (n := c.toNat / 16) (by omega)
  have hlow := hexDigit?_hexDigit (n := c.toNat % 16) (by omega)
  simp only [hexUnit?, hzero, hhigh, hlow, Option.bind_eq_bind, Option.bind_some, Option.pure_def,
    Option.some.injEq]
  omega

/-- What a string begins with, and what is read after it. -/
def unitBefore (unit : Nat) (read : Option (List Nat × List Char)) : Option (List Nat × List Char) :=
  read.map fun (units, rest) => (unit :: units, rest)

theorem bind_unitBefore (unit : Nat) (read : Option (List Nat × List Char)) :
    (do let (units, rest) ← read; pure (unit :: units, rest)) = unitBefore unit read := by
  cases read <;> rfl

theorem readUnits_short {letter c : Char} (hletter : letter ≠ 'u') (h : shortEscape? letter = some c)
    (cs : List Char) : readUnits ('\\' :: letter :: cs) = unitBefore c.toNat (readUnits cs) := by
  rw [readUnits, h]
  · exact bind_unitBefore c.toNat (readUnits cs)
  · simp [hletter]

theorem readUnits_plain {c : Char} (hquote : c ≠ '"') (hslash : c ≠ '\\') (hcontrol : ¬ c.toNat < 0x20)
    (cs : List Char) : readUnits (c :: cs) = unitBefore c.toNat (readUnits cs) := by
  rw [readUnits, if_neg hcontrol]
  · exact bind_unitBefore c.toNat (readUnits cs)
  · exact hquote
  · simp [hslash]
  · simp [hslash]

/-- A character is escaped by a letter or by its code, or stands as it is. -/
theorem escapeChar_cases (c : Char) :
    (∃ letter, letter ≠ 'u' ∧ shortEscape? letter = some c ∧ escapeChar c = ['\\', letter]) ∨
    (c.toNat < 0x20 ∧
      escapeChar c = ['\\', 'u', '0', '0', hexDigit (c.toNat / 16), hexDigit (c.toNat % 16)]) ∨
    (c ≠ '"' ∧ c ≠ '\\' ∧ ¬ c.toNat < 0x20 ∧ escapeChar c = [c]) := by
  -- the characters that have a letter of their own
  by_cases hshort : c ∈ ['"', '\\', '\x08', '\x0c', '\n', '\x0d', '\t']
  · left
    simp only [List.mem_cons, List.not_mem_nil, or_false] at hshort
    rcases hshort with rfl | rfl | rfl | rfl | rfl | rfl | rfl <;> refine ⟨_, ?_, ?_, rfl⟩ <;> decide
  · right
    simp only [List.mem_cons, List.not_mem_nil, or_false, not_or] at hshort
    by_cases hcontrol : c.toNat < 0x20
    · exact .inl ⟨hcontrol, by simp [escapeChar, hshort, hcontrol]⟩
    · exact .inr ⟨hshort.1, hshort.2.1, hcontrol, by simp [escapeChar, hshort, hcontrol]⟩

/-- A character that is written in a string is read as its code. -/
theorem readUnits_escapeChar (c : Char) (cs : List Char) :
    readUnits (escapeChar c ++ cs) = unitBefore c.toNat (readUnits cs) := by
  obtain ⟨letter, hletter, h, htext⟩ | ⟨hcontrol, htext⟩ | ⟨hquote, hslash, hcontrol, htext⟩ :=
    escapeChar_cases c
  · rw [htext]
    exact readUnits_short hletter h cs
  · rw [htext]
    simp only [List.cons_append, List.nil_append, readUnits, hexUnit?_control hcontrol]
    exact bind_unitBefore c.toNat (readUnits cs)
  · rw [htext]
    exact readUnits_plain hquote hslash hcontrol cs

theorem readUnits_escaped (cs rest : List Char) :
    readUnits (cs.flatMap escapeChar ++ '"' :: rest) = some (cs.map Char.toNat, rest) := by
  induction cs with
  | nil => rfl
  | cons c cs ih => rw [List.flatMap_cons, List.append_assoc, readUnits_escapeChar, ih]; rfl

/-- The code of a character is no surrogate. -/
theorem not_surrogate (c : Char) : isLead c.toNat = false ∧ isTrail c.toNat = false := by
  have hvalid : c.toNat < 0xD800 ∨ 0xDFFF < c.toNat ∧ c.toNat < 0x110000 := c.valid
  simp only [isLead, isTrail, Bool.and_eq_false_iff, decide_eq_false_iff_not]
  omega

theorem joinUnits_toNat (cs : List Char) : joinUnits (cs.map Char.toNat) = some cs := by
  induction cs with
  | nil => rfl
  | cons c cs ih =>
    obtain ⟨hlead, htrail⟩ := not_surrogate c
    -- two units are looked at, since a lead and a trail would be joined; here the first is no lead
    cases cs with
    | nil => simp [joinUnits, hlead, htrail, Char.ofNat_toNat]
    | cons d cs =>
      rw [List.map_cons, List.map_cons, joinUnits, ← List.map_cons, ih]
      simp [hlead, htrail, Char.ofNat_toNat]

/-- A string is read as it was written, whatever follows it. -/
theorem readString_escaped (text : String) (rest : List Char) :
    readString (text.toList.flatMap escapeChar ++ '"' :: rest) = some (some text, rest) := by
  simp [readString, readUnits_escaped, joinUnits_toNat]

/-! ## §2 Numbers -/

/-- Does no character follow that could belong to a number? -/
def EndsNumber (rest : List Char) : Prop :=
  ∀ c ∈ rest.head?, c.isDigit = false ∧ c ≠ '.' ∧ c ≠ 'e' ∧ c ≠ 'E'

theorem endsNumber_nil : EndsNumber [] := by simp [EndsNumber]

theorem endsNumber_comma (cs : List Char) : EndsNumber (',' :: cs) := by simp [EndsNumber]

theorem endsNumber_bracket (cs : List Char) : EndsNumber (']' :: cs) := by simp [EndsNumber]

theorem endsNumber_brace (cs : List Char) : EndsNumber ('\x7d' :: cs) := by simp [EndsNumber]

/-- Only zero begins with a zero. -/
theorem head?_toDigits_ne_zero {n : Nat} (h : 0 < n) : (Nat.toDigits 10 n).head? ≠ some '0' := by
  induction n using Nat.strongRecOn with
  | _ n ih =>
    rw [Nat.toDigits_eq_if (by decide)]
    split
    next hlt =>
      have hall : ∀ n < 10, 0 < n → n.digitChar ≠ '0' := by decide
      simpa using hall n hlt h
    next hge =>
      rw [List.head?_append, Option.or_of_isSome (by simp)]
      exact ih (n / 10) (by omega) (by omega)

theorem readDigits_toDigits (n : Nat) {rest : List Char} (h : ∀ c ∈ rest.head?, c.isDigit = false) :
    readDigits (Nat.toDigits 10 n ++ rest) = some (Nat.toDigits 10 n, rest) := by
  have hdigits : ∀ c ∈ Nat.toDigits 10 n, c.isDigit = true := fun c hc =>
    Nat.isDigit_of_mem_toDigits (by decide) (by decide) hc
  have htake : rest.takeWhile Char.isDigit = [] := by
    cases rest with
    | nil => rfl
    | cons c rest => simp [h c rfl]
  have hdrop : rest.dropWhile Char.isDigit = rest := by
    cases rest with
    | nil => rfl
    | cons c rest => simp [h c rfl]
  -- the digits end where the rest begins, since that begins with no digit
  have hspan : (Nat.toDigits 10 n ++ rest).span Char.isDigit = (Nat.toDigits 10 n, rest) := by
    rw [List.span_eq_takeWhile_dropWhile, List.takeWhile_append_of_pos hdigits,
      List.dropWhile_append_of_pos hdigits, htake, hdrop, List.append_nil]
  unfold readDigits
  rw [hspan]
  split
  next heq => simp at heq
  next heq => exact congrArg some heq.symm

theorem readWhole_toDigits (n : Nat) {rest : List Char} (h : ∀ c ∈ rest.head?, c.isDigit = false) :
    readWhole (Nat.toDigits 10 n ++ rest) = some (Nat.toDigits 10 n, rest) := by
  unfold readWhole
  rw [readDigits_toDigits n h]
  split
  next d ds left heq =>
    -- a zero before further digits
    exfalso
    obtain ⟨hzero, -⟩ := Prod.mk.inj (Option.some.inj heq)
    by_cases hn : 0 < n
    · exact head?_toDigits_ne_zero hn (by rw [hzero]; rfl)
    · obtain rfl : n = 0 := by omega
      simp at hzero
  next => rfl

/-- Digits without a point, and an exponent if there is one. -/
theorem readUnsigned_toDigits (negative : Bool) (n : Nat) {rest left : List Char} {exponent : Option Int}
    (hdigit : ∀ c ∈ rest.head?, c.isDigit = false) (hpoint : rest.head? ≠ some '.')
    (hexponent : readExponent rest = some (exponent, left)) :
    readUnsigned negative (Nat.toDigits 10 n ++ rest) =
      some (number negative (Nat.toDigits 10 n) none exponent, left) := by
  -- without a point there is no fraction
  have hfraction : readFraction rest = some (none, rest) := by
    cases rest with
    | nil => rfl
    | cons c rest =>
      have hc : c ≠ '.' := by simpa using hpoint
      simp [readFraction, hc]
  simp only [readUnsigned, readWhole_toDigits n hdigit, Option.bind_eq_bind, Option.bind_some, hfraction,
    hexponent, Option.pure_def]

theorem readExponent_none {rest : List Char} (h : EndsNumber rest) : readExponent rest = some (none, rest) := by
  cases rest with
  | nil => rfl
  | cons c rest =>
    obtain ⟨_, _, hsmall, hlarge⟩ := h c rfl
    simp [readExponent, hsmall, hlarge]

theorem writeInteger_ofNat (n : Nat) : writeInteger n = Nat.toDigits 10 n := by
  simp [writeInteger, Int.repr]

theorem writeInteger_negSucc (n : Nat) : writeInteger (.negSucc n) = '-' :: Nat.toDigits 10 (n + 1) := by
  simp [writeInteger, Int.repr]

theorem digitsValue_toDigits (n : Nat) : digitsValue (Nat.toDigits 10 n) = n := Nat.ofDigitChars_ten_toDigits

/-- The first character of a number is a digit, and so no sign. -/
theorem exists_toDigits_cons (n : Nat) :
    ∃ c cs, Nat.toDigits 10 n = c :: cs ∧ c.isDigit = true ∧ c ≠ '-' ∧ c ≠ '+' := by
  obtain ⟨c, cs, hcs⟩ := List.exists_cons_of_ne_nil (Nat.toDigits_ne_nil (n := n) (b := 10))
  have hdigit : c.isDigit = true :=
    Nat.isDigit_of_mem_toDigits (b := 10) (n := n) (by decide) (by decide) (by simp [hcs])
  refine ⟨c, cs, hcs, hdigit, ?_, ?_⟩ <;> rintro rfl <;> revert hdigit <;> decide

theorem readNumber_toDigits (n : Nat) (rest : List Char) :
    readNumber (Nat.toDigits 10 n ++ rest) = readUnsigned false (Nat.toDigits 10 n ++ rest) := by
  obtain ⟨c, cs, hcs, _, hminus, _⟩ := exists_toDigits_cons n
  rw [hcs]
  simp [readNumber, hminus]

/-- An integer is read as it was written, if nothing follows that could belong to it. -/
theorem readNumber_integer (n : Int) {rest : List Char} (h : EndsNumber rest) :
    readNumber (writeInteger n ++ rest) = some (.integer n, rest) := by
  have hdigit : ∀ c ∈ rest.head?, c.isDigit = false := fun c hc => (h c hc).1
  have hpoint : rest.head? ≠ some '.' := fun hp => (h '.' hp).2.1 rfl
  have hread : ∀ negative m, readUnsigned negative (Nat.toDigits 10 m ++ rest) =
      some (number negative (Nat.toDigits 10 m) none none, rest) :=
    fun negative m => readUnsigned_toDigits negative m hdigit hpoint (readExponent_none h)
  -- the sign is written for negative numbers only
  cases n with
  | ofNat n =>
    rw [Int.ofNat_eq_natCast, writeInteger_ofNat, readNumber_toDigits, hread]
    simp [number, digitsValue_toDigits]
  | negSucc n =>
    rw [writeInteger_negSucc, List.cons_append]
    show readUnsigned true (Nat.toDigits 10 (n + 1) ++ rest) = _
    rw [hread]
    simp [number, digitsValue_toDigits, Int.negSucc_eq]

theorem readExponent_writeInteger (n : Int) {rest : List Char} (h : ∀ c ∈ rest.head?, c.isDigit = false) :
    readExponent ('e' :: (writeInteger n ++ rest)) = some (some n, rest) := by
  -- an exponent may have either sign, but a plus is never written
  have hsigned : readSigned (writeInteger n ++ rest) = some (n, rest) := by
    cases n with
    | ofNat n =>
      obtain ⟨c, cs, hcs, _, hminus, hplus⟩ := exists_toDigits_cons n
      have hread : readSigned (Nat.toDigits 10 n ++ rest) =
          some ((digitsValue (Nat.toDigits 10 n) : Int), rest) := by
        have hdigits := readDigits_toDigits n h
        rw [hcs, List.cons_append] at hdigits ⊢
        simp [readSigned, hminus, hplus, hdigits]
      rw [Int.ofNat_eq_natCast, writeInteger_ofNat, hread, digitsValue_toDigits]
    | negSucc n =>
      rw [writeInteger_negSucc, List.cons_append, readSigned, readDigits_toDigits (n + 1) h]
      simp [digitsValue_toDigits, Int.negSucc_eq]
  rw [readExponent, hsigned]
  rfl

/-- A decimal is written as a mantissa and an exponent, and read as these. -/
theorem readNumber_decimal (mantissa exponent : Int) {rest : List Char} (h : EndsNumber rest) :
    readNumber (writeInteger mantissa ++ 'e' :: (writeInteger exponent ++ rest)) =
      some (.decimal mantissa exponent, rest) := by
  have hexponent := readExponent_writeInteger exponent fun c hc => (h c hc).1
  have hread : ∀ negative m,
      readUnsigned negative (Nat.toDigits 10 m ++ 'e' :: (writeInteger exponent ++ rest)) =
        some (number negative (Nat.toDigits 10 m) none (some exponent), rest) :=
    fun negative m => readUnsigned_toDigits negative m (by simp) (by simp) hexponent
  cases mantissa with
  | ofNat m =>
    rw [Int.ofNat_eq_natCast, writeInteger_ofNat, readNumber_toDigits, hread]
    simp [number, digitsValue_toDigits]
  | negSucc m =>
    rw [writeInteger_negSucc, List.cons_append]
    show readUnsigned true (Nat.toDigits 10 (m + 1) ++ 'e' :: (writeInteger exponent ++ rest)) = _
    rw [hread]
    simp [number, digitsValue_toDigits, Int.negSucc_eq]

end CatalogFilter.Json
