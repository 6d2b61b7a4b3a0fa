import CatalogFilter.Text.Quoted
import CatalogFilter.Token.Basic

/-!
# Open parentheses

How many parentheses are open at a time, in a row of tokens and in a text.  Both are counted from left to
right by `nestingFrom`; in a text only the characters outside of quotes count.

**Main definitions**: `nesting` for tokens, `openDepth` for texts, and `Balanced` for rows that close
whatever they open.  A balanced row can be cut out of a count: it raises the count to its own depth, and
leaves the number of open parentheses as it was.
-/

namespace CatalogFilter

/-! ## §1 Counting -/

/-- What a symbol does to the number of open parentheses. -/
inductive Bracket where
  | opening
  | closing
  | neither
  deriving DecidableEq, Repr

section Counting

variable {α : Type} {bracket : α → Bracket}

/-- The most parentheses that are open at a time in a row of symbols, `depth` of them before it.  A
closing parenthesis without a partner closes nothing. -/
def nestingFrom (bracket : α → Bracket) (depth : Nat) : List α → Nat
  | [] => depth
  | x :: xs =>
    match bracket x with
    | .opening => nestingFrom bracket (depth + 1) xs
    | .closing => max depth (nestingFrom bracket (depth - 1) xs)
    | .neither => nestingFrom bracket depth xs

theorem le_nestingFrom (bracket : α → Bracket) (depth : Nat) (xs : List α) :
    depth ≤ nestingFrom bracket depth xs := by
  -- on the row, for any number of parentheses before it
  induction xs generalizing depth with
  | nil => exact Nat.le_refl _
  | cons x xs ih =>
    unfold nestingFrom
    split
    · exact Nat.le_trans (Nat.le_succ depth) (ih (depth + 1))
    · exact Nat.le_max_left ..
    · exact ih depth

/-- A row that closes all that it opens and nothing else, with at most `k` parentheses open at a time. -/
def Balanced (bracket : α → Bracket) (k : Nat) (xs : List α) : Prop :=
  -- said of every count and of whatever follows, so that rows can be put together
  ∀ depth rest, nestingFrom bracket depth (xs ++ rest) =
    max (depth + k) (nestingFrom bracket depth rest)

namespace Balanced

theorem nestingFrom_eq {k : Nat} {xs : List α} (h : Balanced bracket k xs) (depth : Nat) :
    nestingFrom bracket depth xs = depth + k := by
  have := h depth []
  simp only [List.append_nil, nestingFrom] at this
  omega

theorem nil : Balanced bracket 0 [] := by
  intro depth rest
  have := le_nestingFrom bracket depth rest
  simp only [List.nil_append]
  omega

theorem append {k l : Nat} {xs ys : List α} (hx : Balanced bracket k xs) (hy : Balanced bracket l ys) :
    Balanced bracket (max k l) (xs ++ ys) := by
  intro depth rest
  rw [List.append_assoc, hx, hy]
  omega

theorem single {x : α} (h : bracket x = .neither) : Balanced bracket 0 [x] := by
  intro depth rest
  have hx : nestingFrom bracket depth ([x] ++ rest) = nestingFrom bracket depth rest := by
    simp [nestingFrom, h]
  have := le_nestingFrom bracket depth rest
  omega

theorem cons {k : Nat} {x : α} {xs : List α} (h : bracket x = .neither)
    (hx : Balanced bracket k xs) : Balanced bracket k (x :: xs) := by
  simpa using (single h).append hx

theorem of_forall {xs : List α} (h : ∀ x ∈ xs, bracket x = .neither) : Balanced bracket 0 xs := by
  induction xs with
  | nil => exact nil
  | cons x xs ih => exact cons (h x (by simp)) (ih fun y hy => h y (by simp [hy]))

/-- A pair of parentheses opens one more. -/
theorem enclose {k : Nat} {xs : List α} {x y : α} (hx : bracket x = .opening)
    (hy : bracket y = .closing) (h : Balanced bracket k xs) :
    Balanced bracket (k + 1) (x :: (xs ++ [y])) := by
  intro depth rest
  -- inside, one more is open; the closing one takes it back
  have hin := h (depth + 1) (y :: rest)
  have hout : nestingFrom bracket (depth + 1) (y :: rest) =
      max (depth + 1) (nestingFrom bracket depth rest) := by
    simp [nestingFrom, hy]
  have hall : nestingFrom bracket depth (x :: (xs ++ [y]) ++ rest) =
      nestingFrom bracket (depth + 1) (xs ++ y :: rest) := by
    simp [nestingFrom, hx]
  omega

end Balanced

end Counting

/-! ## §2 Tokens -/

/-- Parentheses are tokens of their own. -/
def Token.bracket (t : Token) : Bracket :=
  match t.kind with
  | .openParen => .opening
  | .closeParen => .closing
  | _ => .neither

/-- The most parentheses that are open at a time in a row of tokens. -/
def nesting (ts : List Token) : Nat := nestingFrom Token.bracket 0 ts

theorem Balanced.nesting_eq {k : Nat} {ts : List Token} (h : Balanced Token.bracket k ts) :
    nesting ts = k := by
  unfold nesting
  rw [h.nestingFrom_eq, Nat.zero_add]

theorem Token.bracket_of_operator {t : Token} {k : Keyword} (h : t.kind = .operator k) :
    t.bracket = .neither := by
  simp [bracket, h]

theorem nesting_append {ts : List Token} (h : Balanced Token.bracket (nesting ts) ts)
    (us : List Token) : nesting (ts ++ us) = max (nesting ts) (nesting us) := by
  have := h 0 us
  rwa [Nat.zero_add] at this

theorem nesting_cons {t : Token} (h : t.bracket = .neither) (ts : List Token) :
    nesting (t :: ts) = nesting ts := by
  simp [nesting, nestingFrom, h]

theorem nesting_enclose {ts : List Token} (h : Balanced Token.bracket (nesting ts) ts)
    {opening closing : Token} (ho : opening.bracket = .opening) (hc : closing.bracket = .closing) :
    nesting (opening :: (ts ++ [closing])) = nesting ts + 1 :=
  (h.enclose ho hc).nesting_eq

/-! ## §3 Texts -/

/-- The characters that stand outside of quotes, when the text before them has left the given quote
open.  A doubled quote inside quotes closes them and opens them again. -/
def unquotedFrom : Option Char → List Char → List Char
  | _, [] => []
  | none, c :: cs =>
    if c = '\'' ∨ c = '"' then unquotedFrom (some c) cs else c :: unquotedFrom none cs
  | some quote, c :: cs => unquotedFrom (if c = quote then none else some quote) cs

/-- The characters of a text that stand outside of quotes. -/
def unquoted (cs : List Char) : List Char := unquotedFrom none cs

/-- The parentheses among characters. -/
def charBracket (c : Char) : Bracket :=
  if c = '(' then .opening else if c = ')' then .closing else .neither

/-- The most parentheses that a text opens at a time, none of them inside quotes. -/
def openDepth (cs : List Char) : Nat := nestingFrom charBracket 0 (unquoted cs)

/-- A text that closes all that it opens, quotes as well as parentheses, with at most `k` parentheses open
at a time. -/
def Nests (k : Nat) (cs : List Char) : Prop :=
  -- its characters outside of quotes, and no quote left open for what follows
  ∃ free, (∀ rest, unquoted (cs ++ rest) = free ++ unquoted rest) ∧ Balanced charBracket k free

/-- A character that is neither a quote nor a parenthesis. -/
def isPlainChar (c : Char) : Bool := c != '\'' && c != '"' && c != '(' && c != ')'

namespace Nests

theorem openDepth_eq {k : Nat} {cs : List Char} (h : Nests k cs) : openDepth cs = k := by
  obtain ⟨free, hfree, hb⟩ := h
  have hcs : unquoted cs = free := by simpa [unquoted, unquotedFrom] using hfree []
  rw [openDepth, hcs, hb.nestingFrom_eq, Nat.zero_add]

theorem append {k l : Nat} {cs ds : List Char} (hc : Nests k cs) (hd : Nests l ds) :
    Nests (max k l) (cs ++ ds) := by
  obtain ⟨free, hfree, hb⟩ := hc
  obtain ⟨more, hmore, hb'⟩ := hd
  refine ⟨free ++ more, fun rest => ?_, hb.append hb'⟩
  rw [List.append_assoc, hfree, hmore, List.append_assoc]

theorem nil : Nests 0 [] := ⟨[], fun _ => rfl, Balanced.nil⟩

theorem cons {k : Nat} {c : Char} {cs : List Char} (hc : isPlainChar c = true) (h : Nests k cs) :
    Nests k (c :: cs) := by
  obtain ⟨free, hfree, hb⟩ := h
  simp only [isPlainChar, Bool.and_eq_true, bne_iff_ne] at hc
  refine ⟨c :: free, fun rest => ?_, hb.cons (by simp [charBracket, hc])⟩
  have := hfree rest
  simp only [unquoted, List.cons_append] at this ⊢
  simp [unquotedFrom, hc, this]

theorem of_forall {cs : List Char} (h : ∀ c ∈ cs, isPlainChar c = true) : Nests 0 cs := by
  induction cs with
  | nil => exact nil
  | cons c cs ih => exact cons (h c (by simp)) (ih fun d hd => h d (by simp [hd]))

theorem of_all {cs : List Char} (h : cs.all isPlainChar = true) : Nests 0 cs :=
  of_forall (List.all_eq_true.1 h)

theorem enclose {k : Nat} {cs : List Char} (h : Nests k cs) : Nests (k + 1) ('(' :: (cs ++ [')'])) := by
  obtain ⟨free, hfree, hb⟩ := h
  refine ⟨'(' :: (free ++ [')']), fun rest => ?_, hb.enclose rfl rfl⟩
  have := hfree (')' :: rest)
  simp only [unquoted] at this ⊢
  simp [unquotedFrom, this]

theorem unquotedFrom_doubled {quote : Char} (hq : quote = '\'' ∨ quote = '"') (cs rest : List Char) :
    unquotedFrom (some quote) (Text.doubled quote cs ++ quote :: rest) = unquotedFrom none rest := by
  -- on the characters inside, the quotes being open
  induction cs with
  | nil => simp [Text.doubled, unquotedFrom]
  | cons c cs ih =>
    by_cases hc : c = quote
    · -- the doubled quote closes the quotes and opens them again
      simp [Text.doubled, unquotedFrom, hc, hq, ih]
    · simp [Text.doubled, unquotedFrom, hc, ih]

/-- Nothing inside quotes counts. -/
theorem quoted {quote : Char} (hq : quote = '\'' ∨ quote = '"') (cs : List Char) :
    Nests 0 (Text.quoted quote cs) := by
  refine ⟨[], fun rest => ?_, Balanced.nil⟩
  simp [unquoted, Text.quoted, unquotedFrom, hq, unquotedFrom_doubled hq]

end Nests

end CatalogFilter
