import CatalogFilter.Proofs.Expr.Soundness

/-!
# Every expression is accepted

The other direction: from tokens that are derived from the grammar and do not nest too deep, the reader
takes exactly these tokens and answers their tree.  What follows the tokens must not go on with them; the
keywords that would are named by `EndsComparison`, `EndsLink` and `EndsChain`.

The induction follows the derivation and is written over any family of readers for what stands in
parentheses, together with a condition `Fits` under which its members have enough room.  The reader of the
library is one such family.  A reader that never counts is another, and it shows that the grammar is
unambiguous at any depth.

**Main statements**: `expression_of_derives` and `Derives.unique`.
-/

namespace CatalogFilter
namespace Parser

/-! ## §1 What may follow -/

/-- The keyword at the front of a row of tokens. -/
def nextKeyword (ts : List Token) : Option Keyword := ts.head?.bind Token.keyword?

theorem keyword?_mk (ts : List Token) (n d : Nat) :
    Cursor.keyword? ⟨ts, n, d⟩ = nextKeyword ts := rfl

theorem nextKeyword_cons {t : Token} {k : Keyword} (h : t.kind = .operator k) (ts : List Token) :
    nextKeyword (t :: ts) = some k := by
  simp [nextKeyword, Token.keyword?, h]

/-- A comparison does not go on. -/
def EndsComparison (rest : List Token) : Prop :=
  ∀ k, nextKeyword rest = some k → comparison? k = none ∧ k ≠ .between ∧ k ≠ .escape

/-- A link of a chain does not go on. -/
def EndsLink : Connective → List Token → Prop
  | .and, rest => EndsComparison rest
  | .or, rest => EndsComparison rest ∧ nextKeyword rest ≠ some .and

/-- A chain does not go on. -/
def EndsChain (k : Connective) (rest : List Token) : Prop :=
  EndsLink k rest ∧ nextKeyword rest ≠ some k.keyword

theorem endsLink_joint {k : Connective} {joint : Token} (h : joint.kind = .operator k.keyword)
    (rest : List Token) : EndsLink k (joint :: rest) := by
  have hend : EndsComparison (joint :: rest) := by
    intro keyword hk
    rw [nextKeyword_cons h] at hk
    obtain rfl : k.keyword = keyword := by simpa using hk
    cases k <;> decide
  cases k with
  | and => exact hend
  | or => exact ⟨hend, by simp [nextKeyword_cons h, Connective.keyword]⟩

theorem endsChain_of_none {rest : List Token} (h : nextKeyword rest = none) (k : Connective) :
    EndsChain k rest := by
  have hend : EndsComparison rest := by
    intro keyword hk
    simp [h] at hk
  refine ⟨?_, by simp [h]⟩
  cases k with
  | and => exact hend
  | or => exact ⟨hend, by simp [h]⟩

/-- No keyword stands at the front of an operand, and so of a test or a comparison. -/
theorem nextKeyword_operand {ts : List Token} {e : Expr} (h : Derives .operand ts e)
    (rest : List Token) : nextKeyword (ts ++ rest) = none := by
  cases h with
  | name ht => simp [nextKeyword, Token.keyword?, ht]
  | literal ht => simp [nextKeyword, Token.keyword?, ht]
  | group ho _ _ => simp [nextKeyword, Token.keyword?, ho]

theorem nextKeyword_test {ts : List Token} {e : Expr} (h : Derives .test ts e)
    (rest : List Token) : nextKeyword (ts ++ rest) = none := by
  cases h with
  | compared hl _ _ =>
    rw [List.append_assoc]
    exact nextKeyword_operand hl _
  | between hv _ _ _ _ =>
    rw [List.append_assoc]
    exact nextKeyword_operand hv _

theorem nextKeyword_comparison {ts : List Token} {e : Expr} (h : Derives .comparison ts e)
    (rest : List Token) : nextKeyword (ts ++ rest) = none := by
  cases h with
  | operand h => exact nextKeyword_operand h rest
  | test h => exact nextKeyword_test h rest
  | escaped h _ _ =>
    rw [List.append_assoc]
    exact nextKeyword_test h _

/-! ## §2 One step of a reader -/

theorem comparison_stop {inside : Reader} {c c' : Cursor} {left : Expr}
    (h : operand inside c = (.ok left, c'))
    (hk : ∀ k, c'.keyword? = some k → comparison? k = none ∧ k ≠ .between) :
    comparison inside c = (.ok left, c') := by
  unfold comparison
  rw [h]
  simp only [andThen]
  split
  next => rfl
  next hb => exact absurd rfl (hk .between hb).2
  next k _ hk' => simp [(hk k hk').1]

theorem comparison_between {inside : Reader} {c c' : Cursor} {left : Expr}
    (h : operand inside c = (.ok left, c')) (hk : c'.keyword? = some .between) :
    comparison inside c = range inside left c'.advance := by
  simp [comparison, h, andThen, hk]

theorem comparison_second {inside : Reader} {c c' : Cursor} {left : Expr} {k : Keyword}
    {op : Operator} (h : operand inside c = (.ok left, c')) (hk : c'.keyword? = some k)
    (hop : comparison? k = some op) :
    comparison inside c = secondOperand inside left op c'.advance := by
  -- `BETWEEN` is read on another path
  have hne : k ≠ .between := by
    rintro rfl
    simp [comparison?] at hop
  unfold comparison
  rw [h]
  simp only [andThen]
  split
  next hn => simp [hn] at hk
  next hb => simp [hb] at hk; exact absurd hk.symm hne
  next k' _ hk' =>
    obtain rfl : k' = k := by simpa [hk'] using hk
    simp [hop]

theorem escaped_stop {inside : Reader} {c : Cursor} {e : Expr} (h : c.keyword? ≠ some .escape) :
    escaped inside e c = (.ok e, c) := by
  simp [escaped, h]

theorem chain_stop {link : Reader} {keyword : Keyword} {op : Operator} {links : Nat} {e : Expr}
    {c : Cursor} (h : c.keyword? ≠ some keyword) : chain link keyword op links e c = (.ok e, c) := by
  cases links with
  | zero => rfl
  | succ links => simp [chain, h]

/-! ## §3 Families of readers -/

/-- Tokens of a level are taken by the reader of the level, if what follows does not go on with them.  A
test is taken up to its `ESCAPE`, and a chain up to a further link. -/
def Completes (inside : Reader) (d : Nat) : Level → List Token → Expr → Prop
  | .operand, ts, e => ∀ rest n n', n' = n + ts.length →
      operand inside ⟨ts ++ rest, n, d⟩ = (.ok e, ⟨rest, n', d⟩)
  | .test, ts, e => ∀ rest n n', n' = n + ts.length →
      comparison inside ⟨ts ++ rest, n, d⟩ = escaped inside e ⟨rest, n', d⟩
  | .comparison, ts, e => ∀ rest n n', n' = n + ts.length → EndsComparison rest →
      comparison inside ⟨ts ++ rest, n, d⟩ = (.ok e, ⟨rest, n', d⟩)
  | .negation, ts, e => ∀ rest n n', n' = n + ts.length → EndsComparison rest →
      negation inside ⟨ts ++ rest, n, d⟩ = (.ok e, ⟨rest, n', d⟩)
  | .chain k, ts, e => ∀ rest n n', n' = n + ts.length → EndsLink k rest →
      ∃ links, rest.length ≤ links ∧ chainReader inside k ⟨ts ++ rest, n, d⟩ =
        chain (linkReader inside k) k.keyword k.operator links e ⟨rest, n', d⟩

/-- Readers for what stands in parentheses: `Fits b d k` says that the reader with the number `b` has room
for `k` more parentheses when `d` are open. -/
structure Family (inside : Nat → Reader) (Fits : Nat → Nat → Nat → Prop) : Prop where
  mono : ∀ {b d k l}, Fits b d k → l ≤ k → Fits b d l
  group : ∀ {b d k ts e} {opening closing : Token}, opening.kind = .openParen →
    closing.kind = .closeParen → Fits b d (k + 1) →
    (∀ {b' d'}, Fits b' d' k → ∀ rest n n', n' = n + ts.length → EndsChain .or rest →
      disjunction (inside b') ⟨ts ++ rest, n, d'⟩ = (.ok e, ⟨rest, n', d'⟩)) →
    ∀ rest n n', n' = n + (ts.length + 2) →
      group (inside b) ⟨opening :: (ts ++ closing :: rest), n, d⟩ = (.ok e, ⟨rest, n', d⟩)

theorem chainReader_of_completes {inside : Reader} {d : Nat} {k : Connective} {ts : List Token}
    {e : Expr} (h : Completes inside d (.chain k) ts e) {rest : List Token} {n n' : Nat}
    (hn : n' = n + ts.length) (hrest : EndsChain k rest) :
    chainReader inside k ⟨ts ++ rest, n, d⟩ = (.ok e, ⟨rest, n', d⟩) := by
  obtain ⟨links, _, hread⟩ := h rest n n' hn hrest.1
  rw [hread]
  exact chain_stop hrest.2

theorem linkReader_of_completes {inside : Reader} {d : Nat} {k : Connective} {ts : List Token}
    {e : Expr} (h : Completes inside d k.link ts e) {rest : List Token} {n n' : Nat}
    (hn : n' = n + ts.length) (hrest : EndsLink k rest) :
    linkReader inside k ⟨ts ++ rest, n, d⟩ = (.ok e, ⟨rest, n', d⟩) := by
  cases k with
  | and => exact h rest n n' hn hrest
  | or => exact chainReader_of_completes (k := .and) h hn hrest

section Completeness

variable {inside : Reader} {d : Nat}

theorem completes_compared {op : Operator} {ls ops rs : List Token} {left right : Expr}
    (hleft : Completes inside d .operand ls left) (ho : op.WrittenBy ops)
    (hr : Derives .operand rs right) (hright : Completes inside d .operand rs right) :
    Completes inside d .test (ls ++ (ops ++ rs)) (.binary op left right) := by
  intro rest n n' hn
  have hfirst := hleft (ops ++ (rs ++ rest)) n _ rfl
  rw [List.append_assoc, List.append_assoc]
  rcases ho.eq_one_or_two with ⟨t, k, rfl, ht, hk⟩ | ⟨is, not, rfl, rfl, his, hnot⟩
  · have hsecond := hright rest (n + ls.length + 1) n' (by simp at hn; omega)
    rw [comparison_second hfirst (nextKeyword_cons ht _) hk]
    -- no `NOT` can stand in front of the second operand
    have hnot : nextKeyword (rs ++ rest) ≠ some .not := by simp [nextKeyword_operand hr]
    simp [secondOperand, Cursor.advance, keyword?_mk, hnot, hsecond, andThen]
  · have hsecond := hright rest (n + ls.length + 2) n' (by simp at hn; omega)
    rw [comparison_second hfirst (nextKeyword_cons his _) rfl]
    simp [secondOperand, Cursor.advance, keyword?_mk, nextKeyword_cons hnot, hsecond, andThen]

theorem completes_between {between and : Token} {vs ls hs : List Token} {value low high : Expr}
    (hvalue : Completes inside d .operand vs value) (hb : between.kind = .operator .between)
    (hlow : Completes inside d .operand ls low) (ha : and.kind = .operator .and)
    (hhigh : Completes inside d .operand hs high) :
    Completes inside d .test (vs ++ between :: (ls ++ and :: hs))
      (.binary .between value (.binary .and low high)) := by
  intro rest n n' hn
  have hv := hvalue (between :: (ls ++ and :: (hs ++ rest))) n _ rfl
  have hl := hlow (and :: (hs ++ rest)) (n + vs.length + 1) _ rfl
  have hh := hhigh rest (n + vs.length + 1 + ls.length + 1) n' (by simp at hn; omega)
  -- the reader sees the tokens grouped the other way
  have hassoc : vs ++ between :: (ls ++ and :: hs) ++ rest =
      vs ++ between :: (ls ++ and :: (hs ++ rest)) := by simp
  rw [hassoc, comparison_between hv (nextKeyword_cons hb _)]
  simp [range, Cursor.advance, keyword?_mk, nextKeyword_cons ha, hl, hh, andThen]

theorem completes_escaped {escape : Token} {ts xs : List Token} {e x : Expr}
    (htest : Completes inside d .test ts e) (hk : escape.kind = .operator .escape)
    (hoperand : Completes inside d .operand xs x) :
    Completes inside d .comparison (ts ++ escape :: xs) (.binary .escape e x) := by
  intro rest n n' hn _
  have ht := htest (escape :: (xs ++ rest)) n _ rfl
  have hx := hoperand rest (n + ts.length + 1) n' (by simp at hn; omega)
  have hassoc : ts ++ escape :: xs ++ rest = ts ++ escape :: (xs ++ rest) := by simp
  rw [hassoc, ht]
  simp [escaped, Cursor.advance, keyword?_mk, nextKeyword_cons hk, hx, andThen]

theorem completes_first {k : Connective} {ts : List Token} {e : Expr}
    (hlink : Completes inside d k.link ts e) : Completes inside d (.chain k) ts e := by
  intro rest n n' hn hrest
  refine ⟨rest.length, Nat.le_refl _, ?_⟩
  rw [chainReader_eq, linkReader_of_completes hlink hn hrest]
  rfl

theorem completes_joined {k : Connective} {joint : Token} {ls rs : List Token} {left right : Expr}
    (hchain : Completes inside d (.chain k) ls left) (hj : joint.kind = .operator k.keyword)
    (hlink : Completes inside d k.link rs right) :
    Completes inside d (.chain k) (ls ++ joint :: rs) (.binary k.operator left right) := by
  intro rest n n' hn hrest
  have hassoc : ls ++ joint :: rs ++ rest = ls ++ joint :: (rs ++ rest) := by simp
  obtain ⟨links, hlinks, hl⟩ :=
    hchain (joint :: (rs ++ rest)) n _ rfl (endsLink_joint hj (rs ++ rest))
  have hr : linkReader inside k ⟨rs ++ rest, n + ls.length + 1, d⟩ = (.ok right, ⟨rest, n', d⟩) :=
    linkReader_of_completes hlink (by simp at hn; omega) hrest
  rw [hassoc, hl]
  -- the joint is one of the tokens that the number of links counts
  cases links with
  | zero => simp at hlinks
  | succ links =>
    refine ⟨links, by simp at hlinks; omega, ?_⟩
    simp [chain, Cursor.advance, keyword?_mk, nextKeyword_cons hj, hr, andThen]

end Completeness

/-- Nothing but a link or a joint of the chain can follow a closing parenthesis of it. -/
theorem endsChain_closing {closing : Token} (h : closing.kind = .closeParen) (rest : List Token)
    (k : Connective) : EndsChain k (closing :: rest) :=
  endsChain_of_none (by simp [nextKeyword, Token.keyword?, h]) k

/-- **Completeness** for a family: its readers take whatever is derived and fits. -/
theorem Family.completes {inside : Nat → Reader} {Fits : Nat → Nat → Nat → Prop}
    (family : Family inside Fits) {level : Level} {ts : List Token} {e : Expr}
    (h : Derives level ts e) {b d : Nat} (hfits : Fits b d (nesting ts)) :
    Completes (inside b) d level ts e := by
  induction h generalizing b d with
  | @name t ht =>
    intro rest n n' hn
    obtain ⟨kind, text⟩ := t
    obtain rfl : kind = .identifier := ht
    simp [operand, Cursor.advance, hn]
  | @literal t kind ht =>
    intro rest n n' hn
    obtain ⟨kind', text⟩ := t
    obtain rfl : kind' = .literal kind := ht
    simp [operand, Cursor.advance, hn]
  -- the reader of the group is a smaller member of the family
  | @group opening closing ts e ho hc h ih =>
    intro rest n n' hn
    have hdepth : nesting (opening :: (ts ++ [closing])) = nesting ts + 1 :=
      nesting_enclose h.balanced (by simp [Token.bracket, ho]) (by simp [Token.bracket, hc])
    rw [hdepth] at hfits
    have hgroup := family.group ho hc hfits (fun hfits' rest n n' hn' hrest =>
      chainReader_of_completes (k := .or) (ih hfits') hn' hrest) rest n n' (by simp at hn; omega)
    obtain ⟨kind, text⟩ := opening
    obtain rfl : kind = .openParen := ho
    simpa [operand] using hgroup
  -- the parts nest no deeper than the whole
  | @compared op ls ops rs left right hl ho hr ihl ihr =>
    have hops : Balanced Token.bracket (nesting ops) ops := by
      have hb := Balanced.of_forall ho.bracket
      rwa [hb.nesting_eq]
    rw [nesting_append hl.balanced, nesting_append hops] at hfits
    exact completes_compared (ihl (family.mono hfits (by omega))) ho hr
      (ihr (family.mono hfits (by omega)))
  | between hv hb hl ha hh ihv ihl ihh =>
    rw [nesting_append hv.balanced, nesting_cons (Token.bracket_of_operator hb),
      nesting_append hl.balanced, nesting_cons (Token.bracket_of_operator ha)] at hfits
    exact completes_between (ihv (family.mono hfits (by omega))) hb
      (ihl (family.mono hfits (by omega))) ha (ihh (family.mono hfits (by omega)))
  | operand h ih =>
    intro rest n n' hn hrest
    apply comparison_stop (ih hfits rest n n' hn)
    intro k hk
    exact ⟨(hrest k hk).1, (hrest k hk).2.1⟩
  | test h ih =>
    intro rest n n' hn hrest
    rw [ih hfits rest n n' hn]
    -- no `ESCAPE` follows
    exact escaped_stop fun hk => (hrest .escape hk).2.2 rfl
  | escaped h hk hx ih ihx =>
    rw [nesting_append h.balanced, nesting_cons (Token.bracket_of_operator hk)] at hfits
    exact completes_escaped (ih (family.mono hfits (by omega))) hk
      (ihx (family.mono hfits (by omega)))
  | @plain ts e h ih =>
    intro rest n n' hn hrest
    -- a comparison does not begin with `NOT`
    have hnot : nextKeyword (ts ++ rest) ≠ some .not := by simp [nextKeyword_comparison h]
    simp [negation, keyword?_mk, hnot, ih hfits rest n n' hn hrest]
  | @negated not ts e hnot h ih =>
    intro rest n n' hn hrest
    rw [nesting_cons (Token.bracket_of_operator hnot)] at hfits
    have hread := ih hfits rest (n + 1) n' (by simp at hn; omega) hrest
    simp [negation, Cursor.advance, keyword?_mk, nextKeyword_cons hnot, hread, andThen]
  | first h ih => exact completes_first (ih hfits)
  | joined hl hj hr ihl ihr =>
    rw [nesting_append hl.balanced, nesting_cons (Token.bracket_of_operator hj)] at hfits
    exact completes_joined (ihl (family.mono hfits (by omega))) hj
      (ihr (family.mono hfits (by omega)))

/-! ## §4 The reader of the library -/

/-- The reader for what stands in parentheses, with a budget for further ones. -/
def insideOf : Nat → Reader
  | 0 => fail .tooDeep
  | budget + 1 => disjunction (insideOf budget)

theorem expression_eq (budget : Nat) : expression budget = disjunction (insideOf budget) := by
  induction budget with
  | zero => rfl
  | succ budget ih =>
    unfold expression insideOf
    rw [ih]

/-- The budget and the open parentheses make up what may be open. -/
theorem family_insideOf :
    Family insideOf fun b d k => d + b = maxDepth ∧ d + k ≤ maxDepth where
  mono := fun ⟨hb, hk⟩ hl => ⟨hb, by omega⟩
  group := by
    intro b d k ts e opening closing _ hc ⟨hb, hk⟩ hread rest n n' hn
    obtain ⟨kind, text⟩ := closing
    obtain rfl : kind = .closeParen := hc
    cases b with
    | zero => omega
    | succ b =>
      have hin := @hread b (d + 1) ⟨by omega, by omega⟩ (⟨.closeParen, text⟩ :: rest)
        (n + 1) (n + 1 + ts.length) rfl (endsChain_closing rfl rest .or)
      have hroom : ¬ maxDepth < d + 1 := by omega
      simp [group, insideOf, Cursor.deeper, Cursor.advance, Cursor.shallower, hroom, hin, andThen]
      omega

/-- **Completeness**: what is derived and opens no more parentheses than may be is read to its end, with
the tree of the derivation. -/
theorem expression_of_derives {ts : List Token} {e : Expr} (h : Derives (.chain .or) ts e)
    (hdepth : nesting ts ≤ maxDepth) (n : Nat) :
    expression maxDepth ⟨ts, n, 0⟩ = (.ok e, ⟨[], n + ts.length, 0⟩) := by
  have hfits : 0 + maxDepth = maxDepth ∧ 0 + nesting ts ≤ maxDepth := ⟨by omega, by omega⟩
  have hread : disjunction (insideOf maxDepth) ⟨ts ++ [], n, 0⟩ = _ :=
    chainReader_of_completes (k := .or) (family_insideOf.completes h hfits) rfl
      (endsChain_of_none rfl .or)
  rw [expression_eq]
  simpa using hread

/-! ## §5 One tree -/

/-- A reader that counts from zero again inside parentheses, and so never runs out of depth. -/
def recounting : Nat → Reader
  | 0 => fail .tooDeep
  | b + 1 => fun c =>
    let outcome := disjunction (recounting b) { c with depth := 0 }
    (outcome.1, { outcome.2 with depth := outcome.2.depth + 1 })

theorem family_recounting : Family recounting fun b d k => d = 0 ∧ k ≤ b where
  mono := fun ⟨hd, hk⟩ hl => ⟨hd, Nat.le_trans hl hk⟩
  group := by
    intro b d k ts e opening closing _ hc ⟨hd, hk⟩ hread rest n n' hn
    obtain ⟨kind, text⟩ := closing
    obtain rfl : kind = .closeParen := hc
    subst hd
    cases b with
    | zero => omega
    | succ b =>
      have hin := @hread b 0 ⟨rfl, by omega⟩ (⟨.closeParen, text⟩ :: rest)
        (n + 1) (n + 1 + ts.length) rfl (endsChain_closing rfl rest .or)
      have hroom : ¬ maxDepth < 0 + 1 := by decide
      simp [group, recounting, Cursor.deeper, Cursor.advance, Cursor.shallower, hroom, hin, andThen]
      omega

end Parser

/-- **The grammar is unambiguous**, at any depth: tokens have one tree. -/
theorem Derives.unique {ts : List Token} {e e' : Expr} (h : Derives (.chain .or) ts e)
    (h' : Derives (.chain .or) ts e') : e = e' := by
  -- one reader, started on the same tokens, answers each of the trees
  have hread : ∀ {x : Expr}, Derives (.chain .or) ts x →
      Parser.disjunction (Parser.recounting (nesting ts)) ⟨ts ++ [], 0, 0⟩ =
        (.ok x, ⟨[], ts.length, 0⟩) := by
    intro x hx
    exact Parser.chainReader_of_completes (k := .or)
      (Parser.family_recounting.completes hx ⟨rfl, Nat.le_refl _⟩) (by simp)
      (Parser.endsChain_of_none rfl .or)
  have heq := (hread h).symm.trans (hread h')
  simpa using heq

end CatalogFilter
