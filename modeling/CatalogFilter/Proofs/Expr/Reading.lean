import CatalogFilter.Proofs.Expr.Acceptance
import CatalogFilter.Proofs.Expr.Chains
import CatalogFilter.Proofs.Token.Names

/-!
# Texts that are read as expressions

The rules by which larger texts are read, put together from smaller ones: `Spells` for texts and their
tokens, and above it `Reads` for texts and their expressions, with one rule for each form of the grammar.
Both count the parentheses that are open at a time, in the text and in the tokens alike.

**Main statements**: `Reads.chain` for texts joined by a connective, and `Reads.parse`: what is read within
the limit of depth is what the library answers.
-/

namespace CatalogFilter

open Lexer

/-! ## §1 Levels and how tightly they bind -/

/-- How tightly what is derived at a level binds. -/
def Level.least : Level → Nat
  | operand => 5
  | test => 4
  | comparison => 4
  | negation => 3
  | chain c => c.least

/-- What is derived at a level is derived at every looser one.  A test is more than an operand, so there is
no way to that level. -/
theorem Derives.raise {level level' : Level} {ts : List Token} {e : Expr} (h : Derives level ts e)
    (htest : level' ≠ .test) (hle : level'.least ≤ level.least) : Derives level' ts e := by
  -- each level up to the looser one, in turn
  have hcomparison : 4 ≤ level.least → Derives .comparison ts e := by
    intro hl
    cases level with
    | operand => exact h.operand
    | test => exact h.test
    | comparison => exact h
    | negation => simp [Level.least] at hl
    | chain c => cases c <;> simp [Level.least, Connective.least] at hl
  have hnegation : 3 ≤ level.least → Derives .negation ts e := by
    intro hl
    cases level with
    | negation => exact h
    | chain c => cases c <;> simp [Level.least, Connective.least] at hl
    | operand | test | comparison => exact (hcomparison (by simp [Level.least])).plain
  have hand : 2 ≤ level.least → Derives (.chain .and) ts e := by
    intro hl
    cases level with
    | chain c =>
      cases c with
      | and => exact h
      | or => simp [Level.least, Connective.least] at hl
    | operand | test | comparison | negation => exact .first (hnegation (by simp [Level.least]))
  -- the looser level is one of these, or the level itself
  cases level' with
  | operand =>
    cases level with
    | operand => exact h
    | test | comparison | negation => simp [Level.least] at hle
    | chain c => cases c <;> simp [Level.least, Connective.least] at hle
  | test => exact absurd rfl htest
  | comparison => exact hcomparison hle
  | negation => exact hnegation hle
  | chain c =>
    cases c with
    | and => exact hand hle
    | or =>
      cases level with
      | chain c =>
        cases c with
        | and => exact .first h
        | or => exact h
      | operand | test | comparison | negation => exact .first (hand (by simp [Level.least]))

/-! ## §2 Texts that spell tokens -/

/-- A text that is read as a row of tokens, with at most `k` parentheses open at a time in both. -/
structure Spells (k : Nat) (text : List Char) (ts : List Token) : Prop where
  /-- The text is read as these tokens. -/
  tokens : tokenize text = .ok ts
  /-- The tokens close all that they open. -/
  balanced : Balanced Token.bracket k ts
  /-- So does the text, quotes included. -/
  nests : Nests k text

theorem isPlainChar_of_not_isWordBreak {c : Char} (h : isWordBreak c = false) :
    isPlainChar c = true := by
  simp only [isWordBreak, opensName, Bool.or_eq_false_iff, beq_eq_false_iff_ne] at h
  simp [isPlainChar, h]

theorem Nests.of_unbroken {cs : List Char} (h : Unbroken cs) : Nests 0 cs :=
  Nests.of_forall fun c hc => isPlainChar_of_not_isWordBreak (h c hc)

theorem Nests.namePart (cs : List Char) : Nests 0 (Sql.namePart cs) := by
  unfold Sql.namePart
  split
  next h => exact Nests.of_unbroken (unbroken_of_isPlainPart h)
  next => exact Nests.quoted (.inr rfl) cs

theorem Nests.field (table field : List Char) : Nests 0 (Sql.field table field) :=
  (Nests.namePart table).append ((Nests.namePart field).cons (by decide))

theorem Nests.literal (kind : LiteralKind) (cs : List Char) : Nests 0 (Sql.literal kind cs) := by
  cases kind with
  | string | regex | bare => exact Nests.quoted (.inl rfl) cs
  | null =>
    rw [Sql.literal]
    exact Nests.of_all rfl
  | number =>
    rw [Sql.literal]
    split
    next h => exact Nests.of_unbroken (unbroken_of_isNumber h)
    next => exact Nests.quoted (.inl rfl) cs

theorem Nests.joinedBy {k l : Nat} {left word right : List Char} (hl : Nests k left)
    (hw : Nests 0 word) (hr : Nests l right) : Nests (max k l) (joinedBy word left right) := by
  have h := hl.append ((hw.append (hr.cons (c := ' ') (by decide))).cons (c := ' ') (by decide))
  rwa [Nat.zero_max] at h

theorem Nests.keyword (k : Keyword) : Nests 0 k.text.toList :=
  Nests.of_all (by cases k <;> rfl)

theorem Nests.name (cs : List Char) : Nests 0 (Sql.name cs) := by
  unfold Sql.name
  -- on the parts of the name, each plain or in quotes
  induction cs.splitOn '.' with
  | nil => exact Nests.nil
  | cons part parts ih =>
    cases parts with
    | nil => simpa [List.intercalate_singleton] using Nests.namePart part
    | cons next parts =>
      have hnext := (Nests.namePart part).append (ih.cons (c := '.') (by decide))
      simpa [List.intercalate] using hnext

namespace Spells

theorem single {text : List Char} {t : Token} (h : tokenize text = .ok [t])
    (ht : t.bracket = .neither) (hn : Nests 0 text) : Spells 0 text [t] :=
  ⟨h, Balanced.single ht, hn⟩

theorem keyword {k : Keyword} (h : k ≠ .null) : Spells 0 k.text.toList [Token.operator k] :=
  single (tokenize_keyword h) rfl (Nests.keyword k)

theorem string (cs : List Char) : Spells 0 (Sql.string cs) [Token.literal .string cs] :=
  single (tokenize_string cs) rfl (Nests.quoted (.inl rfl) cs)

theorem number {cs : List Char} (h : Text.isNumber cs = true) :
    Spells 0 cs [Token.literal .number cs] :=
  single (tokenize_number h) rfl (Nests.of_unbroken (unbroken_of_isNumber h))

theorem null : Spells 0 "NULL".toList [Token.literal .null "NULL".toList] :=
  single tokenize_null rfl (Nests.of_all rfl)

/-- Two texts with a blank between them. -/
theorem spaced {k l : Nat} {left right : List Char} {ts us : List Token} (hl : Spells k left ts)
    (hr : Spells l right us) : Spells (max k l) (left ++ ' ' :: right) (ts ++ us) where
  -- the blank ends the last token of the first text, and is skipped before the second
  tokens := by
    apply tokenize_append_ok hl.tokens (separates_space right)
    rw [tokenize_cons_of_isBlank (by decide), hr.tokens]
  balanced := hl.balanced.append hr.balanced
  nests := hl.nests.append (hr.nests.cons (by decide))

/-- A text in parentheses. -/
theorem enclosed {k : Nat} {text : List Char} {ts : List Token} (h : Spells k text ts) :
    Spells (k + 1) ('(' :: (text ++ [')'])) (Token.openParen :: (ts ++ [Token.closeParen])) where
  tokens := by
    have hclose : tokenize [')'] = .ok [Token.closeParen] := by
      rw [tokenize_closeParen, tokenize_nil]
      rfl
    rw [tokenize_openParen, tokenize_append_ok h.tokens (separates_closing []) hclose]
    rfl
  balanced := h.balanced.enclose rfl rfl
  nests := h.nests.enclose

/-- Two texts with a word between them. -/
theorem joinedBy {k l : Nat} {left word right : List Char} {ts ws us : List Token}
    (hl : Spells k left ts) (hw : Spells 0 word ws) (hr : Spells l right us) :
    Spells (max k l) (joinedBy word left right) (ts ++ (ws ++ us)) := by
  have h := hl.spaced (hw.spaced hr)
  rwa [Nat.zero_max] at h

/-- The text of an operator of comparisons spells it. -/
theorem operator {op : Operator} (h : op.comparisonKeywords ≠ []) :
    ∃ ts, Spells 0 op.text.toList ts ∧ op.WrittenBy ts := by
  -- `IS NOT` is written as two words
  by_cases hop : op = .isNot
  · subst hop
    exact ⟨_, (keyword (k := .is) (by decide)).spaced (keyword (k := .not) (by decide)),
      by simp [Operator.comparisonKeywords], rfl⟩
  · obtain ⟨k, hk, htext, hnull⟩ :
        ∃ k, op.comparisonKeywords = [k] ∧ op.text = k.text ∧ k ≠ .null := by
      cases op <;> simp_all [Operator.comparisonKeywords, Operator.text, Keyword.text]
    refine ⟨[Token.operator k], ?_, h, by simp [hk, Token.operator]⟩
    rw [htext]
    exact keyword hnull

end Spells

/-! ## §3 Texts that are read at a level of the grammar -/

/-- A text that is read as an expression at a level of the grammar, with at most `k` parentheses open at a
time. -/
def Reads (level : Level) (k : Nat) (text : List Char) (e : Expr) : Prop :=
  ∃ d ts, d ≤ k ∧ Spells d text ts ∧ Derives level ts e

namespace Reads

variable {k l : Nat} {text left right : List Char} {e x y : Expr}

theorem mono {level : Level} (h : Reads level k text e) (hk : k ≤ l) : Reads level l text e := by
  obtain ⟨d, ts, hd, hs, he⟩ := h
  exact ⟨d, ts, Nat.le_trans hd hk, hs, he⟩

/-- What is derived at one level may be derived at another. -/
theorem lift {level level' : Level} (h : Reads level k text e)
    (hlift : ∀ ts, Derives level ts e → Derives level' ts e) : Reads level' k text e := by
  obtain ⟨d, ts, hd, hs, he⟩ := h
  exact ⟨d, ts, hd, hs, hlift ts he⟩

/-- What is read at a level is read at every looser one. -/
theorem raise {level level' : Level} (h : Reads level k text e) (htest : level' ≠ .test)
    (hle : level'.least ≤ level.least) : Reads level' k text e :=
  h.lift fun _ hd => hd.raise htest hle

theorem name {cs : List Char} (h : tokenize (Sql.name cs) = .ok [Token.identifier cs]) :
    Reads .operand 0 (Sql.name cs) (.name (String.ofList cs)) :=
  ⟨0, _, Nat.le_refl 0, Spells.single h rfl (Nests.name cs), .name rfl⟩

theorem field (table field : List Char) :
    Reads .operand 0 (Sql.field table field) (.name (String.ofList (table ++ '.' :: field))) :=
  ⟨0, _, Nat.le_refl 0, Spells.single (tokenize_field table field) rfl (Nests.field table field),
    .name rfl⟩

theorem string (cs : List Char) :
    Reads .operand 0 (Sql.string cs) (.literal .string (String.ofList cs)) :=
  ⟨0, _, Nat.le_refl 0, Spells.string cs, .literal rfl⟩

theorem number {cs : List Char} (h : Text.isNumber cs = true) :
    Reads .operand 0 cs (.literal .number (String.ofList cs)) :=
  ⟨0, _, Nat.le_refl 0, Spells.number h, .literal rfl⟩

theorem null : Reads .operand 0 "NULL".toList (.literal .null "NULL") :=
  ⟨0, _, Nat.le_refl 0, Spells.null, .literal rfl⟩

theorem group (h : Reads (.chain .or) k text e) :
    Reads .operand (k + 1) ('(' :: (text ++ [')'])) e := by
  obtain ⟨d, ts, hd, hs, he⟩ := h
  exact ⟨d + 1, _, by omega, hs.enclosed, .group rfl rfl he⟩

theorem compared (op : Operator) (hl : Reads .operand k left x) (ho : op.comparisonKeywords ≠ [])
    (hr : Reads .operand k right y) :
    Reads .test k (joinedBy op.text.toList left right) (.binary op x y) := by
  obtain ⟨d, ts, hd, hs, hx⟩ := hl
  obtain ⟨d', us, hd', hs', hy⟩ := hr
  obtain ⟨ops, hops, hwritten⟩ := Spells.operator ho
  exact ⟨max d d', _, by omega, hs.joinedBy hops hs', hx.compared hwritten hy⟩

theorem between {low high : List Char} {lo hi : Expr} (hv : Reads .operand k text e)
    (hl : Reads .operand k low lo) (hh : Reads .operand k high hi) :
    Reads .test k
      (joinedBy Keyword.between.text.toList text (joinedBy Keyword.and.text.toList low high))
      (.binary .between e (.binary .and lo hi)) := by
  obtain ⟨d, ts, hd, hs, he⟩ := hv
  obtain ⟨d', us, hd', hs', hlo⟩ := hl
  obtain ⟨d'', vs, hd'', hs'', hhi⟩ := hh
  -- first the bounds around their `AND`, then the value before them
  have hbounds := hs'.joinedBy (Spells.keyword (k := .and) (by decide)) hs''
  have hall := hs.joinedBy (Spells.keyword (k := .between) (by decide)) hbounds
  exact ⟨_, _, by omega, hall, he.between rfl hlo rfl hhi⟩

theorem escaped (ht : Reads .test k left x) (he : Reads .operand k right y) :
    Reads .comparison k (joinedBy Keyword.escape.text.toList left right) (.binary .escape x y) := by
  obtain ⟨d, ts, hd, hs, hx⟩ := ht
  obtain ⟨d', us, hd', hs', hy⟩ := he
  exact ⟨max d d', _, by omega, hs.joinedBy (Spells.keyword (k := .escape) (by decide)) hs',
    hx.escaped rfl hy⟩

theorem negated (h : Reads .comparison k text e) :
    Reads .negation k (Keyword.not.text.toList ++ ' ' :: text) (.node .not [e]) := by
  obtain ⟨d, ts, hd, hs, he⟩ := h
  exact ⟨max 0 d, _, by omega, (Spells.keyword (k := .not) (by decide)).spaced hs,
    Derives.negated rfl he⟩

/-- Two chains of one connective, joined by it. -/
theorem joined {c : Connective} (hl : Reads (.chain c) k left x) (hr : Reads (.chain c) k right y) :
    ∃ u v, Reads (.chain c) k (joinedBy c.word left right) (.binary c.operator u v) ∧
      (Expr.binary c.operator u v).flattenChains = (Expr.binary c.operator x y).flattenChains ∧
      (Expr.binary c.operator u v).render = (Expr.binary c.operator x y).render := by
  obtain ⟨d, ts, hd, hs, hx⟩ := hl
  obtain ⟨d', us, hd', hs', hy⟩ := hr
  have hword : Spells 0 c.word [Token.operator c.keyword] :=
    Spells.keyword (by cases c <;> decide)
  have hjoint : (Token.operator c.keyword).kind = .operator c.keyword := rfl
  obtain ⟨u, v, huv, hflat, hform⟩ := hx.join hjoint hy
  exact ⟨u, v, ⟨max d d', _, by omega, hs.joinedBy hword hs', huv⟩, hflat, hform⟩

/-- **Any number of chains of one connective**, joined by it: texts for the members of a list.  What holds
of each alone, and of one joined with the rest, holds of the expression of them all. -/
theorem chain {c : Connective} {α : Type} {text : α → List Char} {P : List α → Expr → Prop}
    {as : List α} (hne : as ≠ [])
    (hone : ∀ a ∈ as, ∃ x, Reads (.chain c) k (text a) x ∧ P [a] x)
    (hmore : ∀ a bs x y u v, bs ≠ [] → P [a] x → P bs y →
      (Expr.binary c.operator u v).flattenChains = (Expr.binary c.operator x y).flattenChains →
      (Expr.binary c.operator u v).render = (Expr.binary c.operator x y).render →
      P (a :: bs) (.binary c.operator u v)) :
    ∃ z, Reads (.chain c) k (c.separator.intercalate (as.map text)) z ∧ P as z := by
  -- the first member is joined with all that follow
  induction as with
  | nil => exact absurd rfl hne
  | cons a as ih =>
    obtain ⟨x, hx, hpx⟩ := hone a (by simp)
    cases as with
    | nil =>
      refine ⟨x, ?_, hpx⟩
      rwa [List.map_singleton, List.intercalate_singleton]
    | cons b bs =>
      obtain ⟨y, hy, hpy⟩ := ih (by simp) fun d hd => hone d (by simp [hd])
      obtain ⟨u, v, huv, hflat, hform⟩ := joined hx hy
      refine ⟨.binary c.operator u v, ?_, hmore a (b :: bs) x y u v (by simp) hpx hpy hflat hform⟩
      simpa only [List.map_cons, intercalate_separator] using huv

/-- The flattened form of such a chain, when no member is a chain of the same connective. -/
theorem chain_joined {c : Connective} {α : Type} {text : α → List Char} {flat : α → Expr}
    {as : List α} (hne : as ≠ [])
    (h : ∀ a ∈ as, Expr.chainOf c.operator (flat a) = [flat a] ∧
      ∃ x, Reads (.chain c) k (text a) x ∧ x.flattenChains = flat a) :
    ∃ z, Reads (.chain c) k (c.separator.intercalate (as.map text)) z ∧
      z.flattenChains = Expr.joined c.operator (as.map flat) := by
  -- what is kept of a part of the list is its flattened form, and that its links are the members
  obtain ⟨z, hz, hflat, _⟩ := chain (P := fun as z =>
      z.flattenChains = Expr.joined c.operator (as.map flat) ∧
        Expr.chainOf c.operator z.flattenChains = as.map flat) hne
    (fun a ha => by
      obtain ⟨hsingle, x, hx, hflat⟩ := h a ha
      exact ⟨x, hx, hflat, by rw [hflat, hsingle]; rfl⟩)
    (fun a bs x y u v hbs hx hy hflat _ => by
      obtain ⟨b, bs, rfl⟩ := List.exists_cons_of_ne_nil hbs
      rw [hflat, Expr.flattenChains_binary, Expr.chainOf_self, hx.2, hy.2]
      exact ⟨rfl, rfl⟩)
  exact ⟨z, hz, hflat⟩

/-- **What is read within the limit of depth is what the library answers.** -/
theorem parse (h : Reads (.chain .or) k text e) (hk : k ≤ maxDepth) : Expr.parse text = .ok e := by
  obtain ⟨d, ts, hd, hs, he⟩ := h
  have hdepth : nesting ts ≤ maxDepth := by
    rw [hs.balanced.nesting_eq]
    omega
  simp [Expr.parse, hs.tokens, Expr.ofTokens_of_derives he hdepth]

/-- A text opens as many parentheses at a time as its tokens do. -/
theorem at_openDepth {level : Level} (h : Reads level k text e) : Reads level (openDepth text) text e := by
  obtain ⟨d, ts, _, hs, he⟩ := h
  exact ⟨d, ts, Nat.le_of_eq hs.nests.openDepth_eq.symm, hs, he⟩

end Reads
end CatalogFilter
