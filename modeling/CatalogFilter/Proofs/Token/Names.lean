import CatalogFilter.Proofs.Token.Spelling
import Mathlib.Control.Monad.Basic

/-!
# Names in parts

A name is written part by part, with a point between any two and quotes around each part that needs them.
The reader joins parts by three routes: a word may hold any number of parts without quotes; a word that ends
in a point runs into the quotes after it; and after quotes the name goes on at a point.  The last route takes
a whole word at a time, and what stands at the end of that word it does not look at.  So a name is read back
only if its parts in quotes stand together.  A name without any quotes may besides be a keyword.

**Main definition**: `ReadsBack`.  **Main statements**: `next_nameOf`, `next_field` and
`tokenize_render_name`.
-/

namespace CatalogFilter

open Text

namespace Lexer

/-! ## §1 Parts and points -/

/-- Parts of a name with a point between any two. -/
def nameOf (parts : List (List Char)) : List Char := ['.'].intercalate parts

/-- Parts of a name that goes on: a point after each of them. -/
def stem (parts : List (List Char)) : List Char := parts.flatMap (· ++ ['.'])

@[simp] theorem nameOf_singleton (part : List Char) : nameOf [part] = part :=
  List.intercalate_singleton

theorem nameOf_cons {part : List Char} {parts : List (List Char)} (h : parts ≠ []) :
    nameOf (part :: parts) = part ++ '.' :: nameOf parts := by
  obtain ⟨next, parts, rfl⟩ := List.exists_cons_of_ne_nil h
  simp [nameOf, List.intercalate_cons_cons]

theorem stem_cons (part : List Char) (parts : List (List Char)) :
    stem (part :: parts) = part ++ '.' :: stem parts := by
  simp [stem]

theorem nameOf_append {front back : List (List Char)} (h : back ≠ []) :
    nameOf (front ++ back) = stem front ++ nameOf back := by
  induction front with
  | nil => rfl
  | cons part front ih =>
    rw [List.cons_append, nameOf_cons (by simp [h]), ih]
    simp [stem]

theorem stem_eq {parts : List (List Char)} (h : parts ≠ []) : stem parts = nameOf parts ++ ['.'] := by
  induction parts with
  | nil => exact absurd rfl h
  | cons part parts ih =>
    cases parts with
    | nil => simp [stem]
    | cons next parts =>
      rw [nameOf_cons (by simp), List.append_assoc, List.cons_append, ← ih (by simp)]
      simp [stem]

/-! ## §2 Parts without quotes -/

theorem namePart_of_plain {cs : List Char} (h : Sql.isPlainPart cs = true) : Sql.namePart cs = cs := by
  simp [Sql.namePart, h]

theorem map_namePart {parts : List (List Char)} (h : ∀ p ∈ parts, Sql.isPlainPart p = true) :
    parts.map Sql.namePart = parts := by
  rw [List.map_congr_left fun p hp => namePart_of_plain (h p hp), List.map_id']

/-- A part without quotes, a point and a further name make a name. -/
theorem isName_point {part rest : List Char} (hp : Sql.isPlainPart part = true)
    (hr : isName rest = true) : isName (part ++ '.' :: rest) = true := by
  have hn := isName_of_isPlainPart hp
  cases rest with
  | nil => simp [isName] at hr
  | cons d rest =>
    cases part with
    | nil => simp [isName] at hn
    | cons c part =>
      simp only [isName, Bool.and_eq_true, List.all_eq_true, bne_iff_ne] at hn hr
      have hd : continuesName d = true := by
        rcases Bool.or_eq_true_iff.1 hr.1.1 with ha | hu
        · simp [continuesName, isAlphanumeric, ha]
        · simp [continuesName, hu]
      have hlast : (c :: (part ++ '.' :: d :: rest)).getLast? = (d :: rest).getLast? := by
        simp [List.getLast?_cons, List.getLast?_append]
      rw [List.cons_append]
      simp only [isName, hlast, Bool.and_eq_true, List.all_eq_true, bne_iff_ne]
      refine ⟨⟨hn.1.1, ?_⟩, hr.2⟩
      intro e he
      simp only [List.mem_append, List.mem_cons] at he
      rcases he with he | rfl | rfl | he
      · exact hn.1.2 e he
      · decide
      · exact hd
      · exact hr.1.2 e he

theorem isName_nameOf {parts : List (List Char)} (hne : parts ≠ [])
    (h : ∀ p ∈ parts, Sql.isPlainPart p = true) : isName (nameOf parts) = true := by
  induction parts with
  | nil => exact absurd rfl hne
  | cons part parts ih =>
    have hp := h part (by simp)
    cases parts with
    | nil => simpa using isName_of_isPlainPart hp
    | cons next parts =>
      rw [nameOf_cons (by simp)]
      exact isName_point hp (ih (by simp) fun p hmem => h p (List.mem_cons_of_mem part hmem))

theorem nameOf_ne_nil {parts : List (List Char)} (hne : parts ≠ [])
    (h : ∀ p ∈ parts, Sql.isPlainPart p = true) : nameOf parts ≠ [] := by
  intro hnil
  have hname := isName_nameOf hne h
  simp [hnil, isName] at hname

theorem unbroken_stem {parts : List (List Char)} (h : ∀ p ∈ parts, Sql.isPlainPart p = true) :
    Unbroken (stem parts) := by
  intro c hc
  obtain ⟨part, hpart, hmem⟩ := List.mem_flatMap.1 hc
  exact ((unbroken_of_isPlainPart (h part hpart)).append unbroken_point) c hmem

theorem unbroken_nameOf {parts : List (List Char)} (h : ∀ p ∈ parts, Sql.isPlainPart p = true) :
    Unbroken (nameOf parts) := by
  by_cases hne : parts = []
  · simp [hne, nameOf, Unbroken]
  · intro c hc
    exact unbroken_stem h c (by simp [stem_eq hne, hc])

/-- Parts without quotes are one word. -/
theorem next_plain {parts : List (List Char)} (hne : parts ≠ [])
    (h : ∀ p ∈ parts, Sql.isPlainPart p = true) :
    next (nameOf (parts.map Sql.namePart)) = (.ok (some (wordToken (nameOf parts))), []) := by
  have hname := isName_nameOf hne h
  have hu := unbroken_nameOf h
  rw [map_namePart h]
  cases hcs : nameOf parts with
  | nil => simp [hcs, isName] at hname
  | cons c cs =>
    rw [hcs] at hname hu
    simp only [isName, Bool.and_eq_true] at hname
    exact next_word hu (ne_slash_of_startsPlain hname.1.1)

theorem wordToken_of_isName {cs : List Char} (h : isName cs = true)
    (hkey : Keyword.ofChars? cs = none) : wordToken cs = Token.identifier cs := by
  cases cs with
  | nil => simp [isName] at h
  | cons c cs =>
    have hc : startsPlain c = true := by
      simp only [isName, Bool.and_eq_true] at h
      exact h.1.1
    simp [wordToken, hkey, isNumber_of_startsPlain hc, h]

/-! ## §3 Parts in quotes -/

theorem namePart_of_not_plain {cs : List Char} (h : Sql.isPlainPart cs = false) :
    Sql.namePart cs = quoted '"' cs := by
  simp [Sql.namePart, h]

theorem isWordBreak_of_opensName {c : Char} (h : opensName c = true) : isWordBreak c = true := by
  simp [isWordBreak, h]

theorem isBlank_of_opensName {c : Char} (h : opensName c = true) : isBlank c = false := by
  simp only [opensName, Bool.or_eq_true, beq_iff_eq] at h
  rcases h with (rfl | rfl) | rfl <;> decide

theorem readToken_of_opensName {c : Char} (h : opensName c = true) (cs : List Char) :
    readToken c cs = ((readName (c :: cs)).1.map Token.identifier, (readName (c :: cs)).2) := by
  simp only [opensName, Bool.or_eq_true, beq_iff_eq] at h
  rcases h with (rfl | rfl) | rfl <;> rfl

theorem startsPart_namePart_append (cs rest : List Char) :
    startsPart (Sql.namePart cs ++ rest) = true := by
  cases h : Sql.isPlainPart cs with
  | true =>
    obtain ⟨c, cs, rfl⟩ := List.exists_cons_of_ne_nil (ne_nil_of_isPlainPart h)
    rw [namePart_of_plain h]
    simp [startsPart, startsPlain_of_isPlainPart h]
  | false =>
    rw [namePart_of_not_plain h]
    rfl

theorem startsPart_nameOf {parts : List (List Char)} (h : parts ≠ []) :
    startsPart (nameOf (parts.map Sql.namePart)) = true := by
  obtain ⟨part, parts, rfl⟩ := List.exists_cons_of_ne_nil h
  by_cases hmore : parts = []
  · subst hmore
    simpa using startsPart_namePart_append part []
  · rw [List.map_cons, nameOf_cons (by simpa using hmore)]
    exact startsPart_namePart_append part _

theorem opensQuoted_nameOf {part : List Char} (h : Sql.isPlainPart part = false)
    (parts : List (List Char)) :
    opensQuoted (nameOf ((part :: parts).map Sql.namePart)) = true := by
  by_cases hmore : parts = []
  · simp [hmore, namePart_of_not_plain h, quoted, opensQuoted, opensName]
  · rw [List.map_cons, nameOf_cons (by simpa using hmore)]
    simp [namePart_of_not_plain h, quoted, opensQuoted, opensName]

theorem readPart_quoted (cs : List Char) {rest : List Char} (h : rest.head? ≠ some '"') :
    readPart (quoted '"' cs ++ rest) = (.ok cs, rest) := by
  have hr : readDelimited '"' .quotedIdentifier (doubled '"' cs ++ '"' :: rest) = (.ok cs, rest) :=
    readDelimited_quoted cs h
  simpa [quoted, readPart] using hr

theorem readName_quoted (cs : List Char) : readName (quoted '"' cs) = (.ok cs, []) := by
  have hpart : readPart (quoted '"' cs ++ []) = (.ok cs, []) := readPart_quoted cs (by simp)
  rw [List.append_nil] at hpart
  exact readName_of_not_goesOn hpart rfl

/-- Within a name, a word is one part, and the name ends with it. -/
theorem readName_unbroken {cs tail : List Char} (hcs : Unbroken cs) (hne : cs ≠ [])
    (ht : tail = [] ∨ opensQuoted tail = true) : readName (cs ++ tail) = (.ok cs, tail) := by
  have htail : word tail = [] ∧ afterWord tail = tail ∧ goesOn tail = false := by
    cases tail with
    | nil => exact ⟨rfl, rfl, rfl⟩
    | cons c tail =>
      have hc : opensName c = true := ht.resolve_left (by simp)
      have hbreak := isWordBreak_of_opensName hc
      have hpoint : c ≠ '.' := by
        rintro rfl
        exact absurd hc (by decide)
      simp [word, afterWord, goesOn, hbreak, hpoint]
  have hfirst : opensQuoted (cs ++ tail) = false := by
    obtain ⟨c, cs, rfl⟩ := List.exists_cons_of_ne_nil hne
    have hopens : opensQuoted (c :: cs) = false := opensQuoted_of_unbroken hcs
    exact hopens
  apply readName_of_not_goesOn _ htail.2.2
  rw [readPart_of_not_opensQuoted hfirst, word_of_unbroken hcs, afterWord_of_unbroken hcs, htail.1,
    htail.2.1, List.append_nil]

/-- Parts in quotes, one after another, before whatever the name goes on with. -/
theorem readName_stem {parts : List (List Char)} (h : ∀ p ∈ parts, Sql.isPlainPart p = false)
    {next value rest : List Char} (hs : startsPart next = true) (hr : readName next = (.ok value, rest)) :
    readName (stem (parts.map Sql.namePart) ++ next) = (.ok (stem parts ++ value), rest) := by
  induction parts with
  | nil => exact hr
  | cons part parts ih =>
    have hparts := ih fun p hp => h p (List.mem_cons_of_mem part hp)
    have hform : stem ((part :: parts).map Sql.namePart) ++ next =
        quoted '"' part ++ '.' :: (stem (parts.map Sql.namePart) ++ next) := by
      simp [stem, namePart_of_not_plain (h part (by simp))]
    have hstarts : startsPart (stem (parts.map Sql.namePart) ++ next) = true := by
      cases parts with
      | nil => exact hs
      | cons further parts =>
        rw [List.map_cons, stem_cons, List.append_assoc]
        exact startsPart_namePart_append further _
    rw [hform, readName_of_goesOn (readPart_quoted part (by simp)) hstarts, hparts]
    simp [Except.map, stem]

/-- Parts in quotes and, after them, parts without. -/
theorem readName_nameOf {quoted plain : List (List Char)} (hne : quoted ≠ [])
    (hq : ∀ p ∈ quoted, Sql.isPlainPart p = false) (hp : ∀ p ∈ plain, Sql.isPlainPart p = true) :
    readName (nameOf ((quoted ++ plain).map Sql.namePart)) = (.ok (nameOf (quoted ++ plain)), []) := by
  by_cases hplain : plain = []
  · -- the last part in quotes ends the name
    subst hplain
    obtain ⟨front, last, rfl⟩ : ∃ front last, quoted = front ++ [last] :=
      ⟨_, _, (List.dropLast_concat_getLast hne).symm⟩
    have hfront : ∀ p ∈ front, Sql.isPlainPart p = false := fun p hmem => hq p (by simp [hmem])
    have hstarts : startsPart (Sql.namePart last) = true := by
      simpa using startsPart_namePart_append last []
    have hlast : readName (Sql.namePart last) = (.ok last, []) := by
      rw [namePart_of_not_plain (hq last (by simp))]
      exact readName_quoted last
    rw [List.append_nil, List.map_append, List.map_singleton, nameOf_append (by simp),
      nameOf_append (by simp), nameOf_singleton, nameOf_singleton]
    exact readName_stem hfront hstarts hlast
  · -- the parts without quotes are one word
    have hword : readName (nameOf (plain.map Sql.namePart)) = (.ok (nameOf plain), []) := by
      have hread : readName (nameOf plain ++ []) = (.ok (nameOf plain), []) :=
        readName_unbroken (unbroken_nameOf hp) (nameOf_ne_nil hplain hp) (.inl rfl)
      rw [List.append_nil] at hread
      rwa [map_namePart hp]
    rw [List.map_append, nameOf_append (by simpa using hplain), nameOf_append hplain]
    exact readName_stem hq (startsPart_nameOf hplain) hword

/-- A word with a point at its end runs into the quotes after it. -/
theorem readWord_stem {front : List (List Char)} (hne : front ≠ [])
    (h : ∀ p ∈ front, Sql.isPlainPart p = true) {c : Char} {text value rest : List Char}
    (hc : opensName c = true) (hr : readName (c :: text) = (.ok value, rest)) :
    readWord (stem front ++ c :: text) = (.ok (Token.identifier (stem front ++ value)), rest) := by
  have hu := unbroken_stem h
  have hword : word (stem front ++ c :: text) = stem front := by
    rw [word_of_unbroken hu]
    simp [word, isWordBreak_of_opensName hc]
  have hafter : afterWord (stem front ++ c :: text) = c :: text := by
    rw [afterWord_of_unbroken hu]
    simp [afterWord, isWordBreak_of_opensName hc]
  have hpoint : isNameWithPoint (stem front) = true := by
    rw [stem_eq hne]
    simp [isNameWithPoint, isName_nameOf hne h]
  have hopens : opensQuoted (c :: text) = true := hc
  simp only [readWord, hword, hafter, hpoint, hr, hopens]
  rfl

/-- Parts without quotes before a name that begins with quotes. -/
theorem next_stem {front : List (List Char)} (h : ∀ p ∈ front, Sql.isPlainPart p = true)
    {text value rest : List Char} (hq : opensQuoted text = true)
    (hr : readName text = (.ok value, rest)) :
    next (stem front ++ text) = (.ok (some (Token.identifier (stem front ++ value))), rest) := by
  cases text with
  | nil => simp [opensQuoted] at hq
  | cons c text =>
    have hc : opensName c = true := hq
    cases front with
    | nil =>
      -- the name begins with the quotes
      have hskip : skipBlank (c :: text) = c :: text := by
        simp [skipBlank, isBlank_of_opensName hc]
      show next (c :: text) = _
      rw [next_eq_readToken hskip, readToken_of_opensName hc, hr]
      rfl
    | cons part parts =>
      -- the name begins with a word
      have hread := readWord_stem (List.cons_ne_nil part parts) h hc hr
      obtain ⟨d, part, rfl⟩ := List.exists_cons_of_ne_nil (ne_nil_of_isPlainPart (h part (by simp)))
      have hd : isWordBreak d = false := unbroken_stem h d (by simp [stem])
      have hslash : d ≠ '/' :=
        ne_slash_of_startsPlain (startsPlain_of_isPlainPart (h (d :: part) (by simp)))
      have hform : stem ((d :: part) :: parts) ++ c :: text =
          d :: (part ++ '.' :: (stem parts ++ c :: text)) := by simp [stem]
      have hskip : skipBlank (d :: (part ++ '.' :: (stem parts ++ c :: text))) =
          d :: (part ++ '.' :: (stem parts ++ c :: text)) := by
        simp [skipBlank, isBlank_of_not_isWordBreak hd]
      rw [hform] at hread ⊢
      rw [next_eq_readToken hskip, readToken_of_not_isWordBreak hd hslash, hread]
      rfl

/-! ## §4 Names whose quotes stand together -/

/-- Do the parts that need quotes stand together, with no other part between them? -/
def QuotesTogether (parts : List (List Char)) : Prop :=
  ∃ front quoted back, parts = front ++ (quoted ++ back) ∧
    (∀ p ∈ front, Sql.isPlainPart p = true) ∧ (∀ p ∈ quoted, Sql.isPlainPart p = false) ∧
    ∀ p ∈ back, Sql.isPlainPart p = true

/-- **Names whose quotes stand together are read as names**, unless the whole name is a keyword without
quotes. -/
theorem next_nameOf {parts : List (List Char)} (hne : parts ≠ []) (h : QuotesTogether parts)
    (hkey : (∀ p ∈ parts, Sql.isPlainPart p = true) → Keyword.ofChars? (nameOf parts) = none) :
    next (nameOf (parts.map Sql.namePart)) = (.ok (some (Token.identifier (nameOf parts))), []) := by
  obtain ⟨front, quoted, back, rfl, hfront, hquoted, hback⟩ := h
  cases quoted with
  | nil =>
    -- no part needs quotes
    have hplain : ∀ p ∈ front ++ ([] ++ back), Sql.isPlainPart p = true := by
      intro p hp
      rcases List.mem_append.1 hp with hp | hp
      · exact hfront p hp
      · exact hback p hp
    rw [next_plain hne hplain, wordToken_of_isName (isName_nameOf hne hplain) (hkey hplain)]
  | cons part quoted =>
    have hread := readName_nameOf (List.cons_ne_nil part quoted) hquoted hback
    have hopens : opensQuoted (nameOf ((part :: quoted ++ back).map Sql.namePart)) = true :=
      opensQuoted_nameOf (hquoted part (by simp)) (quoted ++ back)
    have hnext := next_stem hfront hopens hread
    rw [List.map_append, map_namePart hfront, nameOf_append (by simp), nameOf_append (by simp), hnext]

/-- **Fields**: the name of a field is read as one name, its parts without their quotes. -/
theorem next_field (table field : List Char) :
    next (Sql.field table field) = (.ok (some (Token.identifier (table ++ '.' :: field))), []) := by
  have hform : ∀ t f : List Char, nameOf [t, f] = t ++ '.' :: f := by simp [nameOf]
  have hpair : QuotesTogether [table, field] := by
    -- two parts cannot stand apart, whichever of them need quotes
    cases ht : Sql.isPlainPart table with
    | true =>
      cases hf : Sql.isPlainPart field with
      | true => exact ⟨[table, field], [], [], by simp [ht, hf]⟩
      | false => exact ⟨[table], [field], [], by simp [ht, hf]⟩
    | false =>
      cases hf : Sql.isPlainPart field with
      | true => exact ⟨[], [table], [field], by simp [ht, hf]⟩
      | false => exact ⟨[], [table, field], [], by simp [ht, hf]⟩
  have hread := next_nameOf (by simp) hpair fun _ => ofChars?_of_mem_point (by simp [hform])
  rwa [hform, List.map_cons, List.map_singleton, hform] at hread

theorem tokenize_field (table field : List Char) :
    tokenize (Sql.field table field) = .ok [Token.identifier (table ++ '.' :: field)] :=
  tokenize_of_next_nil (next_field table field)

/-! ## §5 Names that are read back -/

/-- Where quotes stand apart, a name falls into parts before the first quotes, the quotes that follow each
other there, parts without quotes after these, and a part that needs quotes again. -/
structure QuotesApart (front quoted middle : List (List Char)) (part : List Char) : Prop where
  before : ∀ p ∈ front, Sql.isPlainPart p = true
  someQuoted : quoted ≠ []
  inQuotes : ∀ p ∈ quoted, Sql.isPlainPart p = false
  someBetween : middle ≠ []
  between : ∀ p ∈ middle, Sql.isPlainPart p = true
  again : Sql.isPlainPart part = false

theorem exists_apart {parts : List (List Char)} (h : ¬ QuotesTogether parts) :
    ∃ front quoted middle part rest, parts = front ++ (quoted ++ (middle ++ part :: rest)) ∧
      QuotesApart front quoted middle part := by
  -- the longest runs of one kind, in turn
  have hruns : ∀ (kind : List Char → Bool) (ps : List (List Char)), ∃ run rest,
      ps = run ++ rest ∧ (∀ p ∈ run, kind p = true) ∧ ∀ p ∈ rest.head?, kind p = false := by
    intro kind ps
    refine ⟨ps.takeWhile kind, ps.dropWhile kind, List.takeWhile_append_dropWhile.symm,
      fun p hp => List.all_eq_true.1 List.all_takeWhile p hp, ?_⟩
    intro p hp
    have hhead := List.head?_dropWhile_not kind ps
    rw [hp] at hhead
    exact hhead
  obtain ⟨front, afterFront, rfl, hfront, hfirst⟩ := hruns Sql.isPlainPart parts
  obtain ⟨quoted, afterQuoted, rfl, hquoted, hsecond⟩ := hruns (fun p => !Sql.isPlainPart p) afterFront
  obtain ⟨middle, rest, rfl, hmiddle, hthird⟩ := hruns Sql.isPlainPart afterQuoted
  have hquotes : ∀ p ∈ quoted, Sql.isPlainPart p = false := fun p hp => by simpa using hquoted p hp
  cases rest with
  | nil => exact absurd ⟨front, quoted, middle, by simp, hfront, hquotes, hmiddle⟩ h
  | cons part rest =>
    have hpart : Sql.isPlainPart part = false := hthird part rfl
    have hbetween : middle ≠ [] := by
      rintro rfl
      have hplain : Sql.isPlainPart part = true := by simpa using hsecond part rfl
      simp [hplain] at hpart
    have hsome : quoted ≠ [] := by
      rintro rfl
      obtain ⟨first, middle, rfl⟩ := List.exists_cons_of_ne_nil hbetween
      have hplain := hmiddle first (by simp)
      simp [hfirst first rfl] at hplain
    exact ⟨front, quoted, middle, part, rest, rfl, hfront, hsome, hquotes, hbetween, hmiddle, hpart⟩

/-- The name that is read there ends in a point, and further quotes are left. -/
theorem tokenize_apart {front quoted middle : List (List Char)} {part : List Char}
    (h : QuotesApart front quoted middle part) (rest : List (List Char)) :
    tokenize (nameOf ((front ++ (quoted ++ (middle ++ part :: rest))).map Sql.namePart)) =
      (tokenize (nameOf ((part :: rest).map Sql.namePart))).map
        (Token.identifier (stem front ++ (stem quoted ++ stem middle)) :: ·) := by
  have hmiddle : nameOf ((middle ++ part :: rest).map Sql.namePart) =
      stem middle ++ nameOf ((part :: rest).map Sql.namePart) := by
    rw [List.map_append, nameOf_append (by simp), map_namePart h.between]
  have hquoted : nameOf ((quoted ++ (middle ++ part :: rest)).map Sql.namePart) =
      stem (quoted.map Sql.namePart) ++ nameOf ((middle ++ part :: rest).map Sql.namePart) := by
    rw [List.map_append, nameOf_append (by simp)]
  -- the parts between are one word together with the point after them
  have hword : readName (nameOf ((middle ++ part :: rest).map Sql.namePart)) =
      (.ok (stem middle), nameOf ((part :: rest).map Sql.namePart)) := by
    rw [hmiddle]
    apply readName_unbroken (unbroken_stem h.between) _ (.inr (opensQuoted_nameOf h.again rest))
    rw [stem_eq h.someBetween]
    simp
  have hread : readName (nameOf ((quoted ++ (middle ++ part :: rest)).map Sql.namePart)) =
      (.ok (stem quoted ++ stem middle), nameOf ((part :: rest).map Sql.namePart)) := by
    rw [hquoted]
    exact readName_stem h.inQuotes (startsPart_nameOf (by simp)) hword
  have hopens : opensQuoted (nameOf ((quoted ++ (middle ++ part :: rest)).map Sql.namePart)) = true := by
    obtain ⟨first, more, rfl⟩ := List.exists_cons_of_ne_nil h.someQuoted
    exact opensQuoted_nameOf (h.inQuotes first (by simp)) _
  have hnext := next_stem h.before hopens hread
  rw [List.map_append, nameOf_append (by simp [h.someQuoted]), map_namePart h.before,
    tokenize_of_next hnext]

/-- Quotes are never read as nothing. -/
theorem tokenize_ne_nil {cs : List Char} (h : opensQuoted cs = true) : tokenize cs ≠ .ok [] := by
  intro htokens
  cases cs with
  | nil => simp [opensQuoted] at h
  | cons c cs =>
    have hblank : isBlank c = false := isBlank_of_opensName h
    rw [tokenize] at htokens
    split at htokens
    next => simp at htokens
    next rest hn =>
      have hskip := skipBlank_of_next_none hn
      simp [skipBlank, hblank] at hskip
    next token rest hn => cases hr : tokenize rest <;> simp [hr, Except.map] at htokens

/-- Is a name read back: do its quotes stand together, and is it no keyword if it stands without quotes? -/
structure ReadsBack (cs : List Char) : Prop where
  together : QuotesTogether (cs.splitOn '.')
  noKeyword : Sql.isPlainPart cs = true → Keyword.ofChars? cs = none

theorem tokenize_name_of_readsBack {cs : List Char} (h : ReadsBack cs) :
    tokenize (Sql.name cs) = .ok [Token.identifier cs] := by
  have hparts : nameOf (cs.splitOn '.') = cs := List.intercalate_splitOn '.'
  have hread := next_nameOf (List.splitOn_ne_nil '.' cs) h.together
  rw [hparts] at hread
  apply tokenize_of_next_nil
  apply hread
  -- a name of several parts has a point, which no keyword has
  intro hplain
  by_cases hpoint : '.' ∈ cs
  · exact ofChars?_of_mem_point hpoint
  · rw [List.splitOn_eq_singleton hpoint] at hplain
    exact h.noKeyword (hplain cs (by simp))

theorem wordToken_of_keyword {cs : List Char} {k : Keyword} (h : Keyword.ofChars? cs = some k) :
    (wordToken cs).kind ≠ .identifier := by
  unfold wordToken
  rw [h]
  cases k <;> simp [Token.literal, Token.operator]

theorem readsBack_of_tokenize_name {cs : List Char}
    (h : tokenize (Sql.name cs) = .ok [Token.identifier cs]) : ReadsBack cs where
  together := by
    apply Classical.byContradiction
    intro hnot
    obtain ⟨front, quoted, middle, part, rest, hparts, hapart⟩ := exists_apart hnot
    have hform : Sql.name cs = nameOf ((cs.splitOn '.').map Sql.namePart) := rfl
    rw [hform, hparts, tokenize_apart hapart] at h
    -- nothing may be left after the one name
    cases hr : tokenize (nameOf ((part :: rest).map Sql.namePart)) with
    | error unclosed =>
      rw [hr] at h
      simp [Except.map] at h
    | ok tokens =>
      obtain rfl : tokens = [] := by
        rw [hr] at h
        simp only [Except.map, Except.ok.injEq, List.cons.injEq] at h
        exact h.2
      exact tokenize_ne_nil (opensQuoted_nameOf hapart.again rest) hr
  noKeyword := by
    intro hplain
    have hparts : cs.splitOn '.' = [cs] := List.splitOn_eq_singleton (point_not_mem_of_isPlainPart hplain)
    have hword : tokenize (Sql.name cs) = .ok [wordToken cs] := by
      have hform : Sql.name cs = nameOf ([cs].map Sql.namePart) := by
        rw [Sql.name, hparts]
        rfl
      rw [hform, tokenize_of_next_nil (next_plain (by simp) (by simpa using hplain)), nameOf_singleton]
    cases hkey : Keyword.ofChars? cs with
    | none => rfl
    | some k =>
      have htoken : wordToken cs = Token.identifier cs := by
        rw [hword] at h
        simpa using h
      exact absurd (congrArg Token.kind htoken) (wordToken_of_keyword hkey)

/-- **Written names are read back** exactly if their quotes stand together and they are no keywords; and
every text is a name that is read somewhere. -/
theorem tokenize_render_name (name : String) :
    (∃ text, tokens text = .ok [Token.identifier name.toList]) ∧
      (tokenize (Expr.name name).render = .ok [Token.identifier name.toList] ↔
        ReadsBack name.toList) := by
  constructor
  · -- in quotes, any text is a name
    refine ⟨String.ofList (quoted '"' name.toList), ?_⟩
    rw [tokens, String.toList_ofList]
    apply tokenize_single (by decide)
    rw [readToken_of_opensName (by decide)]
    have hread := readName_quoted name.toList
    rw [quoted] at hread
    rw [hread]
    rfl
  · rw [Expr.render]
    exact ⟨readsBack_of_tokenize_name, tokenize_name_of_readsBack⟩

/-- A keyword that was read in quotes is written without them, and so becomes an operator.  A part without
quotes between two parts in quotes takes the point after it into the name, and the last part is left. -/
theorem tokenize_render_name_apart :
    (tokens "\"or\"" = .ok [Token.identifier "or".toList] ∧
      tokenize (Expr.name "or").render = .ok [Token.operator .or]) ∧
    (tokens "\"x y.a.z w\"" = .ok [Token.identifier "x y.a.z w".toList] ∧
      tokenize (Expr.name "x y.a.z w").render =
        .ok [Token.identifier "x y.a.".toList, Token.identifier "z w".toList]) := by
  decide +kernel

end Lexer
end CatalogFilter
