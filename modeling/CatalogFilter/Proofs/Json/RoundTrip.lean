import CatalogFilter.Proofs.Json.Leaves

/-!
# JSON values are read as they were written

A value is written compactly, and its text is read back as the same value, whatever its nesting: the members
of an object in their order, repeated ones included, and numbers as integers or as decimals.  The one exception
is a value with an unreadable part, for which `null` is written.

The reader counts down from a bound.  Two steps for each character of a value are enough: one for the value
that the character may begin, and one for the rest of the array or object around it.

**Main definitions**: `Json.Readable` and `Json.ReadsBack`.  **Main statement**: `Json.ofText?_compact`.
-/

namespace CatalogFilter.Json

/-! ## §1 Values that are read back -/

/-- No part of a value is unreadable. -/
inductive Readable : Json → Prop
  | null : Readable .null
  | bool (value : Bool) : Readable (.bool value)
  | integer (value : Int) : Readable (.integer value)
  | decimal (mantissa exponent : Int) : Readable (.decimal mantissa exponent)
  | string (text : String) : Readable (.string text)
  | array {items : List Json} (parts : ∀ item ∈ items, Readable item) : Readable (.array items)
  | object {members : List (String × Json)} (parts : ∀ member ∈ members, Readable member.2) :
      Readable (.object members)

/-- In front of what belongs to no number, a value is read from its text, with two steps for each character
of it. -/
def ReadsBack (v : Json) : Prop :=
  ∀ {bound : Nat} {rest : List Char}, 2 * v.write.length ≤ bound → EndsNumber rest →
    readValue bound (v.write ++ rest) = some (v, rest)

/-! ## §2 First characters -/

theorem skipSpace_cons {c : Char} (h : isSpace c = false) (cs : List Char) : skipSpace (c :: cs) = c :: cs := by
  simp [skipSpace, h]

/-- The characters with which numbers begin. -/
def beginsNumber (c : Char) : Bool := c.isDigit || c == '-'

theorem exists_writeInteger_cons (n : Int) :
    ∃ c cs, writeInteger n = c :: cs ∧ beginsNumber c = true := by
  cases n with
  | ofNat n =>
    obtain ⟨c, cs, hcs, hdigit, _⟩ := exists_toDigits_cons n
    exact ⟨c, cs, by rw [Int.ofNat_eq_natCast, writeInteger_ofNat, hcs], by simp [beginsNumber, hdigit]⟩
  | negSucc n => exact ⟨'-', _, writeInteger_negSucc n, by decide⟩

theorem ne_of_beginsNumber {c : Char} (h : beginsNumber c = true) {d : Char} (hd : beginsNumber d = false) :
    c ≠ d := by
  rintro rfl
  simp [h] at hd

theorem isSpace_of_beginsNumber {c : Char} (h : beginsNumber c = true) : isSpace c = false := by
  simp [isSpace, ne_of_beginsNumber h (d := ' ') rfl, ne_of_beginsNumber h (d := '\t') rfl,
    ne_of_beginsNumber h (d := '\n') rfl, ne_of_beginsNumber h (d := '\x0d') rfl]

/-- What begins as a number does is read as one. -/
theorem readValue_number {c : Char} (h : beginsNumber c = true) (bound : Nat) (cs : List Char) :
    readValue (bound + 1) (c :: cs) = readNumber (c :: cs) := by
  simp [readValue, skipSpace_cons (isSpace_of_beginsNumber h), ne_of_beginsNumber h (d := 'n') rfl,
    ne_of_beginsNumber h (d := 't') rfl, ne_of_beginsNumber h (d := 'f') rfl,
    ne_of_beginsNumber h (d := '"') rfl, ne_of_beginsNumber h (d := '[') rfl,
    ne_of_beginsNumber h (d := '\x7b') rfl]

/-- No text of a value begins with a blank or ends an array. -/
theorem exists_write_cons (v : Json) : ∃ c cs, v.write = c :: cs ∧ isSpace c = false ∧ c ≠ ']' := by
  -- neither a digit nor a minus sign is a blank or a bracket
  have hnumber : ∀ c, beginsNumber c = true → isSpace c = false ∧ c ≠ ']' := fun c h =>
    ⟨isSpace_of_beginsNumber h, ne_of_beginsNumber h rfl⟩
  cases v with
  | null => exact ⟨'n', _, rfl, by decide⟩
  | unreadable => exact ⟨'n', _, rfl, by decide⟩
  | bool value => cases value <;> exact ⟨_, _, rfl, by decide⟩
  | string text => exact ⟨'"', _, rfl, by decide⟩
  | array items => exact ⟨'[', _, rfl, by decide⟩
  | object members => exact ⟨'\x7b', _, rfl, by decide⟩
  | integer n =>
    obtain ⟨c, cs, hcs, hc⟩ := exists_writeInteger_cons n
    exact ⟨c, cs, hcs, hnumber c hc⟩
  | decimal m e =>
    obtain ⟨c, cs, hcs, hc⟩ := exists_writeInteger_cons m
    exact ⟨c, cs ++ 'e' :: writeInteger e, by rw [write, hcs]; rfl, hnumber c hc⟩

theorem exists_succ_of_bound {v : Json} {bound : Nat} (h : 2 * v.write.length ≤ bound) :
    ∃ b, bound = b + 1 := by
  -- the text has a character at least
  obtain ⟨c, cs, hcs, _⟩ := exists_write_cons v
  rw [hcs, List.length_cons] at h
  exact ⟨bound - 1, by omega⟩

theorem readValue_writeInteger (n : Int) (bound : Nat) (rest : List Char) :
    readValue (bound + 1) (writeInteger n ++ rest) = readNumber (writeInteger n ++ rest) := by
  obtain ⟨c, cs, hcs, hc⟩ := exists_writeInteger_cons n
  rw [hcs]
  exact readValue_number hc bound (cs ++ rest)

/-! ## §3 Arrays and objects -/

theorem writeItems_eq_map (items : List Json) : writeItems items = items.map write := by
  induction items with
  | nil => rfl
  | cons item items ih => rw [writeItems, ih, List.map_cons]

/-- The text of a member of an object. -/
def writeMember (member : String × Json) : List Char := writeString member.1.toList ++ ':' :: member.2.write

theorem writeMembers_eq_map (members : List (String × Json)) :
    writeMembers members = members.map writeMember := by
  induction members with
  | nil => rfl
  | cons member members ih => rw [writeMembers, ih, List.map_cons]; rfl

/-- The texts of the parts of an array or object, with a comma between any two. -/
def listed (texts : List (List Char)) : List Char := [','].intercalate texts

theorem listed_cons_cons (text next : List Char) (texts : List (List Char)) :
    listed (text :: next :: texts) = text ++ ',' :: listed (next :: texts) := by
  simp [listed, List.intercalate_cons_cons]

/-- A list of texts begins with what the first of them begins with. -/
theorem exists_listed_cons (c : Char) (cs : List Char) (texts : List (List Char)) (rest : List Char) :
    ∃ more, listed ((c :: cs) :: texts) ++ rest = c :: more := by
  cases texts with
  | nil => exact ⟨cs ++ rest, by simp [listed]⟩
  | cons next texts =>
    exact ⟨cs ++ ',' :: listed (next :: texts) ++ rest, by rw [listed_cons_cons]; rfl⟩

theorem readItems_listed {item : Json} {items : List Json} (h : ∀ part ∈ item :: items, ReadsBack part)
    {bound : Nat} (hbound : 2 * (listed ((item :: items).map write)).length < bound) (rest : List Char) :
    readItems bound (listed ((item :: items).map write) ++ ']' :: rest) = some (item :: items, rest) := by
  induction items generalizing item bound with
  | nil =>
    obtain ⟨bound, rfl⟩ : ∃ b, bound = b + 1 := ⟨bound - 1, by omega⟩
    simp only [List.map_cons, List.map_nil, listed, List.intercalate_singleton] at hbound ⊢
    -- the last item ends where the array does
    rw [readItems, h item (by simp) (by omega) (endsNumber_bracket rest)]
    rfl
  | cons next items ih =>
    obtain ⟨bound, rfl⟩ : ∃ b, bound = b + 1 := ⟨bound - 1, by omega⟩
    have hrest : ∀ part ∈ next :: items, ReadsBack part := fun part hpart => h part (by simp [hpart])
    simp only [List.map_cons, listed_cons_cons, List.append_assoc, List.cons_append, List.length_append,
      List.length_cons] at hbound ⊢
    -- the comma pays for the step that reads the item
    have hlength : 2 * (listed ((next :: items).map write)).length < bound := by
      rw [List.map_cons]
      omega
    -- a comma ends the item, and the rest is a list again
    rw [readItems, h item (by simp) (by omega) (endsNumber_comma _)]
    simp only [Option.bind_eq_bind, Option.bind_some, skipSpace_cons (show isSpace ',' = false from rfl)]
    rw [← List.map_cons, ih hrest hlength]
    rfl

/-- What follows an opening bracket is read as items, unless the array ends there. -/
theorem readValue_items {c : Char} (hspace : isSpace c = false) (hclose : c ≠ ']') (bound : Nat)
    (cs : List Char) :
    readValue (bound + 1) ('[' :: c :: cs) =
      (readItems bound (c :: cs)).map fun (items, rest) => (.array items, rest) := by
  simp [readValue, skipSpace_cons (show isSpace '[' = false from rfl), skipSpace_cons hspace, hclose]

theorem readsBack_array {items : List Json} (h : ∀ item ∈ items, ReadsBack item) :
    ReadsBack (.array items) := by
  intro bound rest hbound _
  obtain ⟨bound, rfl⟩ := exists_succ_of_bound hbound
  -- the text between the brackets
  rw [write, writeItems_eq_map, ← listed] at hbound ⊢
  simp only [List.cons_append, List.length_cons, List.length_append, List.append_assoc, List.nil_append]
    at hbound ⊢
  cases items with
  | nil => rfl
  | cons item items =>
    -- the first item does not begin as the end of the array does
    obtain ⟨c, cs, hcs, hspace, hclose⟩ := exists_write_cons item
    obtain ⟨more, hmore⟩ := exists_listed_cons c cs (items.map write) (']' :: rest)
    have hitems := readItems_listed h (show _ < bound by omega) rest
    rw [List.map_cons, hcs, hmore] at hitems ⊢
    rw [readValue_items hspace hclose, hitems]
    rfl

/-- What the reader answers for a member of an object: its key is a text. -/
def readMember (member : String × Json) : Option String × Json := (some member.1, member.2)

theorem writeMember_cons (member : String × Json) :
    writeMember member =
      '"' :: (member.1.toList.flatMap escapeChar ++ '"' :: ':' :: member.2.write) := by
  simp [writeMember, writeString]

theorem exists_writeMember_cons (member : String × Json) (rest : List Char) :
    ∃ cs, writeMember member ++ rest = '"' :: cs ∧
      readString cs = some (some member.1, ':' :: (member.2.write ++ rest)) := by
  refine ⟨member.1.toList.flatMap escapeChar ++ '"' :: ':' :: (member.2.write ++ rest), ?_,
    readString_escaped _ _⟩
  simp [writeMember_cons]

theorem length_write_lt (member : String × Json) : member.2.write.length < (writeMember member).length := by
  simp only [writeMember, List.length_append, List.length_cons]
  omega

theorem readMembers_last {member : String × Json} {bound : Nat} {rest : List Char}
    (h : readValue bound (member.2.write ++ '\x7d' :: rest) = some (member.2, '\x7d' :: rest)) :
    readMembers (bound + 1) (writeMember member ++ '\x7d' :: rest) = some ([readMember member], rest) := by
  obtain ⟨cs, hcs, hkey⟩ := exists_writeMember_cons member ('\x7d' :: rest)
  -- the key, the colon, the value, and the brace
  rw [hcs, readMembers, skipSpace_cons (by decide)]
  simp only [hkey, Option.bind_eq_bind, Option.bind_some, skipSpace_cons (show isSpace ':' = false from rfl), h]
  rfl

theorem readMembers_further {member : String × Json} {bound : Nat} {rest : List Char}
    (h : readValue bound (member.2.write ++ ',' :: rest) = some (member.2, ',' :: rest)) :
    readMembers (bound + 1) (writeMember member ++ ',' :: rest) =
      (readMembers bound rest).map fun (members, rest) => (readMember member :: members, rest) := by
  obtain ⟨cs, hcs, hkey⟩ := exists_writeMember_cons member (',' :: rest)
  rw [hcs, readMembers, skipSpace_cons (by decide)]
  simp only [hkey, Option.bind_eq_bind, Option.bind_some, skipSpace_cons (show isSpace ':' = false from rfl), h,
    skipSpace_cons (show isSpace ',' = false from rfl)]
  cases readMembers bound rest <;> rfl

theorem readMembers_listed {member : String × Json} {members : List (String × Json)}
    (h : ∀ part ∈ member :: members, ReadsBack part.2) {bound : Nat}
    (hbound : 2 * (listed ((member :: members).map writeMember)).length < bound) (rest : List Char) :
    readMembers bound (listed ((member :: members).map writeMember) ++ '\x7d' :: rest) =
      some ((member :: members).map readMember, rest) := by
  induction members generalizing member bound with
  | nil =>
    obtain ⟨bound, rfl⟩ : ∃ b, bound = b + 1 := ⟨bound - 1, by omega⟩
    -- the value is shorter than the member, so the bound is enough for it
    have hlength := length_write_lt member
    simp only [List.map_cons, List.map_nil, listed, List.intercalate_singleton] at hbound ⊢
    exact readMembers_last (h member (by simp) (by omega) (endsNumber_brace rest))
  | cons next members ih =>
    obtain ⟨bound, rfl⟩ : ∃ b, bound = b + 1 := ⟨bound - 1, by omega⟩
    have hlength := length_write_lt member
    have hrest : ∀ part ∈ next :: members, ReadsBack part.2 := fun part hpart => h part (by simp [hpart])
    rw [List.map_cons, List.map_cons, listed_cons_cons, ← List.map_cons, List.length_append,
      List.length_cons] at hbound
    rw [List.map_cons, List.map_cons, listed_cons_cons, ← List.map_cons, List.append_assoc, List.cons_append,
      readMembers_further (h member (by simp) (by omega) (endsNumber_comma _)), ih hrest (by omega)]
    rfl

/-- Where each item is read as it was written, a list is. -/
theorem mapM_map_write {α β : Type} {write : α → β} {read : β → Option α} (h : ∀ a, read (write a) = some a)
    (items : List α) : (items.map write).mapM read = some items := by
  induction items with
  | nil => rfl
  | cons item items ih => simp [h, ih]

theorem ofMembers_readMember (members : List (String × Json)) :
    ofMembers (members.map readMember) = .object members := by
  rw [ofMembers, mapM_map_write]
  exact fun _ => rfl

theorem readsBack_object {members : List (String × Json)} (h : ∀ member ∈ members, ReadsBack member.2) :
    ReadsBack (.object members) := by
  intro bound rest hbound _
  obtain ⟨bound, rfl⟩ := exists_succ_of_bound hbound
  -- the text between the braces
  rw [write, writeMembers_eq_map, ← listed] at hbound ⊢
  simp only [List.cons_append, List.length_cons, List.length_append, List.append_assoc, List.nil_append]
    at hbound ⊢
  cases members with
  | nil => rfl
  | cons member members =>
    have hmembers := readMembers_listed h (show _ < bound by omega) rest
    -- the first member begins with a quote, and not as the end of the object does
    obtain ⟨more, hmore⟩ := exists_listed_cons '"'
      (member.1.toList.flatMap escapeChar ++ '"' :: ':' :: member.2.write) (members.map writeMember)
      ('\x7d' :: rest)
    rw [List.map_cons, writeMember_cons, hmore] at hmembers ⊢
    have hvalue : readValue (bound + 1) ('\x7b' :: '"' :: more) =
        (readMembers bound ('"' :: more)).map fun (members, rest) => (ofMembers members, rest) := rfl
    rw [hvalue, hmembers, ← ofMembers_readMember]
    rfl

/-! ## §4 All values -/

theorem readsBack_of_readable {v : Json} (h : Readable v) : ReadsBack v := by
  induction h with
  | null =>
    intro bound rest hbound _
    obtain ⟨bound, rfl⟩ := exists_succ_of_bound hbound
    rfl
  | bool value =>
    intro bound rest hbound _
    obtain ⟨bound, rfl⟩ := exists_succ_of_bound hbound
    cases value <;> rfl
  | integer value =>
    intro bound rest hbound hrest
    obtain ⟨bound, rfl⟩ := exists_succ_of_bound hbound
    -- what follows belongs to no number, so all of the text is read
    rw [write, readValue_writeInteger, readNumber_integer value hrest]
  | decimal mantissa exponent =>
    intro bound rest hbound hrest
    obtain ⟨bound, rfl⟩ := exists_succ_of_bound hbound
    rw [write, List.append_assoc, List.cons_append, readValue_writeInteger,
      readNumber_decimal mantissa exponent hrest]
  | string text =>
    intro bound rest hbound _
    obtain ⟨bound, rfl⟩ := exists_succ_of_bound hbound
    have hform : write (.string text) ++ rest = '"' :: (text.toList.flatMap escapeChar ++ '"' :: rest) := by
      simp [write, writeString]
    have hvalue : ∀ cs, readValue (bound + 1) ('"' :: cs) =
        (readString cs).map fun read => ((read.1.map Json.string).getD .unreadable, read.2) :=
      fun _ => rfl
    rw [hform, hvalue, readString_escaped]
    rfl
  -- parts are shorter, and were read in front of any rest
  | array _ ih => exact readsBack_array ih
  | object _ ih => exact readsBack_object ih

/-- **A value without unreadable parts is read from its compact text.** -/
theorem ofText?_compact {v : Json} (h : Readable v) : ofText? v.compact = some v := by
  have hbound : 2 * v.write.length ≤ 2 * v.write.length + 1 := by omega
  -- nothing follows the text, so nothing is left
  have hread := readsBack_of_readable h hbound endsNumber_nil
  rw [List.append_nil] at hread
  rw [ofText?, compact, String.toList_ofList, parse?, hread]
  rfl

end CatalogFilter.Json
