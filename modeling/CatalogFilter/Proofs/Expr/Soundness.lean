import CatalogFilter.Proofs.Expr.Grammar

/-!
# What the reader accepts is an expression

Every reader of the recursive descent, from whatever cursor it starts, either stops after tokens that are
derived at its level of the grammar, with the tree it answers, or fails.  It fails for depth only where more
parentheses are open at a time than may be.

**Main definition**: `Sound c P outcome`, which says this of one outcome; `Sound.andThen` is the rule by
which the readers are put together.  **Main statements**: `sound_expression` and `sound_whole`.
-/

namespace CatalogFilter
namespace Parser

/-! ## §1 Passing tokens -/

/-- The cursor has passed tokens that close what they open, not too deep. -/
structure Took (c : Cursor) (ts : List Token) (c' : Cursor) : Prop where
  rest : c.rest = ts ++ c'.rest
  position : c'.position = c.position + ts.length
  depth : c'.depth = c.depth
  balanced : Balanced Token.bracket (nesting ts) ts
  shallow : c.depth + nesting ts ≤ max c.depth maxDepth

namespace Took

theorem refl (c : Cursor) : Took c [] c where
  rest := rfl
  position := rfl
  depth := rfl
  balanced := Balanced.nil
  shallow := Nat.le_max_left ..

theorem trans {c c' c'' : Cursor} {ts us : List Token} (h : Took c ts c') (h' : Took c' us c'') :
    Took c (ts ++ us) c'' where
  rest := by rw [h.rest, h'.rest, List.append_assoc]
  position := by rw [h'.position, h.position, List.length_append, Nat.add_assoc]
  depth := by rw [h'.depth, h.depth]
  balanced := by
    have hb := h.balanced.append h'.balanced
    rwa [hb.nesting_eq]
  shallow := by
    have hb := (h.balanced.append h'.balanced).nesting_eq
    have h1 := h.shallow
    have h2 := h'.shallow
    have hd := h.depth
    omega

theorem one {c : Cursor} {t : Token} {ts : List Token} (h : c.rest = t :: ts)
    (ht : t.bracket = .neither) : Took c [t] c.advance where
  rest := by simp [Cursor.advance, h]
  position := rfl
  depth := rfl
  balanced := by
    have hb := Balanced.single ht
    rwa [hb.nesting_eq]
  shallow := by
    have hb := (Balanced.single ht).nesting_eq
    omega

/-- Cutting balanced tokens off the front lets no more parentheses be open. -/
theorem nestingFrom_le {c c' : Cursor} {ts : List Token} (h : Took c ts c') :
    nestingFrom Token.bracket c'.depth c'.rest ≤ nestingFrom Token.bracket c.depth c.rest := by
  -- what was taken raises the count to its own depth and leaves it as it was
  rw [h.rest, h.balanced, h.depth]
  exact Nat.le_max_right ..

theorem le_depth {c c' : Cursor} {ts : List Token} {floor : Nat} (h : Took c ts c')
    (hf : floor ≤ c.depth) : floor ≤ c'.depth := by
  rw [h.depth]
  exact hf

end Took

theorem exists_of_keyword? {c : Cursor} {k : Keyword} (h : c.keyword? = some k) :
    ∃ t ts, c.rest = t :: ts ∧ t.kind = .operator k := by
  unfold Cursor.keyword? at h
  cases hr : c.rest with
  | nil => simp [hr] at h
  | cons t ts =>
    refine ⟨t, ts, rfl, ?_⟩
    have hk : t.keyword? = some k := by simpa [hr] using h
    unfold Token.keyword? at hk
    split at hk
    next k' hk' =>
      obtain rfl : k' = k := by simpa using hk
      exact hk'
    next => simp at hk

/-- The cursor has passed some tokens, and has perhaps left parentheses open. -/
structure Advanced (c c' : Cursor) : Prop where
  passed : ∃ ts, c.rest = ts ++ c'.rest ∧ c'.position = c.position + ts.length
  depth : c.depth ≤ c'.depth

namespace Advanced

theorem refl (c : Cursor) : Advanced c c :=
  ⟨⟨[], rfl, rfl⟩, Nat.le_refl _⟩

theorem trans {c c' c'' : Cursor} (h : Advanced c c') (h' : Advanced c' c'') : Advanced c c'' := by
  obtain ⟨ts, hr, hp⟩ := h.passed
  obtain ⟨us, hr', hp'⟩ := h'.passed
  refine ⟨⟨ts ++ us, ?_, ?_⟩, Nat.le_trans h.depth h'.depth⟩
  · rw [hr, hr', List.append_assoc]
  · rw [hp', hp, List.length_append, Nat.add_assoc]

end Advanced

theorem Took.advanced {c c' : Cursor} {ts : List Token} (h : Took c ts c') : Advanced c c' :=
  ⟨⟨ts, h.rest, h.position⟩, Nat.le_of_eq h.depth.symm⟩

/-! ## §2 Sound outcomes -/

/-- An outcome of reading from `c`: tokens with a tree that fit `P`, or a fault on the way.  A fault for
depth means that too many parentheses are open at a time in what was to be read. -/
def Sound (c : Cursor) (P : List Token → Expr → Prop) : Outcome → Prop
  | (.ok e, c') => ∃ ts, Took c ts c' ∧ P ts e
  | (.error fault, c') =>
    Advanced c c' ∧ (fault = .tooDeep → maxDepth < nestingFrom Token.bracket c.depth c.rest)

namespace Sound

variable {c : Cursor} {P Q : List Token → Expr → Prop} {outcome : Outcome}

theorem done {e : Expr} (h : P [] e) : Sound c P (.ok e, c) :=
  ⟨[], Took.refl c, h⟩

theorem fault {fault : ParseError} (h : fault ≠ .tooDeep) : Sound c P (.error fault, c) :=
  ⟨Advanced.refl c, fun hf => absurd hf h⟩

theorem mono (hpq : ∀ ts e, P ts e → Q ts e) (h : Sound c P outcome) : Sound c Q outcome := by
  obtain ⟨result, c'⟩ := outcome
  cases result with
  | ok e =>
    obtain ⟨ts, ht, hp⟩ := h
    exact ⟨ts, ht, hpq ts e hp⟩
  | error fault => exact h

/-- What is sound after some tokens is sound before them. -/
theorem after {c' : Cursor} {ts : List Token} (ht : Took c ts c')
    (h : Sound c' (fun us e => Q (ts ++ us) e) outcome) : Sound c Q outcome := by
  obtain ⟨result, c''⟩ := outcome
  cases result with
  | ok e =>
    obtain ⟨us, hu, hq⟩ := h
    exact ⟨ts ++ us, ht.trans hu, hq⟩
  | error fault =>
    exact ⟨ht.advanced.trans h.1, fun hf => Nat.lt_of_lt_of_le (h.2 hf) ht.nestingFrom_le⟩

/-- **The rule of composition**: a sound outcome, and sound reading after whatever it took. -/
theorem andThen {next : Expr → Reader} (h : Sound c P outcome)
    (hn : ∀ ts e c', Took c ts c' → P ts e → Sound c' (fun us x => Q (ts ++ us) x) (next e c')) :
    Sound c Q (Parser.andThen outcome next) := by
  obtain ⟨result, c'⟩ := outcome
  cases result with
  | ok e =>
    obtain ⟨ts, ht, hp⟩ := h
    exact after ht (hn ts e c' ht hp)
  | error fault => exact h

end Sound

/-! ## §3 The levels of the grammar -/

/-- A reader is sound from every cursor that has more than `floor` parentheses open, and no more than may
be.  That is where a reader for what stands in parentheses is used. -/
def SoundAbove (floor : Nat) (inside : Reader) : Prop :=
  ∀ c, floor < c.depth → c.depth ≤ maxDepth → Sound c (Derives (.chain .or)) (inside c)

section Levels

variable {inside : Reader} {floor : Nat} (hinside : SoundAbove floor inside)
include hinside

theorem sound_group {c : Cursor} {t : Token} {ts : List Token} (hf : floor ≤ c.depth)
    (hr : c.rest = t :: ts) (ht : t.kind = .openParen) : Sound c (Derives .operand) (group inside c) := by
  have hopen : nestingFrom Token.bracket c.depth c.rest =
      nestingFrom Token.bracket (c.depth + 1) ts := by
    simp [hr, nestingFrom, Token.bracket, ht]
  have hstart : Advanced c ⟨ts, c.position + 1, c.depth + 1⟩ :=
    ⟨⟨[t], by simp [hr], rfl⟩, Nat.le_succ _⟩
  unfold group
  split
  next hdeep =>
    -- one more than may be open; the parenthesis itself is not passed
    refine ⟨⟨⟨[], rfl, rfl⟩, Nat.le_succ _⟩, fun _ => ?_⟩
    have hle := le_nestingFrom Token.bracket (c.depth + 1) ts
    have hd : maxDepth < c.depth + 1 := hdeep
    omega
  next hdeep =>
    have hd : ¬ maxDepth < c.depth + 1 := hdeep
    have hi := hinside c.deeper.advance (Nat.lt_succ_of_le hf) (Nat.le_of_not_lt hd)
    have hc : c.deeper.advance = ⟨ts, c.position + 1, c.depth + 1⟩ := by
      simp [Cursor.deeper, Cursor.advance, hr]
    rw [hc] at hi ⊢
    generalize inside ⟨ts, c.position + 1, c.depth + 1⟩ = outcome at hi ⊢
    obtain ⟨result, c'⟩ := outcome
    cases result with
    | error fault =>
      exact ⟨hstart.trans hi.1, fun hf => hopen ▸ hi.2 hf⟩
    | ok e =>
      obtain ⟨us, hu, he⟩ := hi
      simp only [Parser.andThen]
      split
      next text left hclose =>
        have hb := hu.balanced.enclose (x := t) (y := ⟨.closeParen, text⟩)
          (by simp [Token.bracket, ht]) rfl
        have hs : c.depth + 1 + nesting us ≤ max (c.depth + 1) maxDepth := hu.shallow
        have hrest : ts = us ++ c'.rest := hu.rest
        have hdepth : c'.depth = c.depth + 1 := hu.depth
        have hposition : c'.position = c.position + 1 + us.length := hu.position
        refine ⟨t :: (us ++ [⟨.closeParen, text⟩]), ⟨?_, ?_, ?_, ?_, ?_⟩, .group ht rfl he⟩
        · simp [hr, hrest, hclose, Cursor.advance, Cursor.shallower]
        · simp [Cursor.advance, Cursor.shallower, hposition]
          omega
        · simp [Cursor.advance, Cursor.shallower, hdepth]
        · rwa [hb.nesting_eq]
        · rw [hb.nesting_eq]
          omega
      next =>
        exact ⟨hstart.trans hu.advanced, by simp⟩

theorem sound_operand {c : Cursor} (hf : floor ≤ c.depth) :
    Sound c (Derives .operand) (operand inside c) := by
  -- a name, a literal, a parenthesis, or a fault
  unfold operand
  split
  next text ts hr =>
    exact ⟨[⟨.identifier, text⟩], Took.one hr rfl, .name rfl⟩
  next kind text ts hr =>
    exact ⟨[⟨.literal kind, text⟩], Took.one hr rfl, .literal rfl⟩
  next text ts hr => exact sound_group hinside hf hr rfl
  next => exact Sound.fault (by simp)

theorem sound_escaped {ts : List Token} {e : Expr} (h : Derives .test ts e) {c : Cursor}
    (hf : floor ≤ c.depth) :
    Sound c (fun us x => Derives .comparison (ts ++ us) x) (escaped inside e c) := by
  unfold escaped
  split
  next hk =>
    obtain ⟨k, left, hr, hkind⟩ := exists_of_keyword? hk
    apply Sound.after (Took.one hr (Token.bracket_of_operator hkind))
    -- the operand of `ESCAPE` ends the comparison
    refine Sound.andThen (sound_operand hinside hf) ?_
    intro xs x c' _ hx
    exact Sound.done (by simpa using h.escaped hkind hx)
  next => exact Sound.done (by simpa using h.test)

theorem sound_range {vs : List Token} {value : Expr} {between : Token}
    (hv : Derives .operand vs value) (hb : between.kind = .operator .between) {c : Cursor}
    (hf : floor ≤ c.depth) :
    Sound c (fun us x => Derives .comparison (vs ++ between :: us) x) (range inside value c) := by
  unfold range
  refine Sound.andThen (sound_operand hinside hf) ?_
  intro ls low c' ht hl
  split
  next hk =>
    obtain ⟨and, left, hr, hkind⟩ := exists_of_keyword? hk
    apply Sound.after (Took.one hr (Token.bracket_of_operator hkind))
    -- this `AND` belongs to the range, not to a chain
    refine Sound.andThen (sound_operand hinside (ht.le_depth hf)) ?_
    intro hs high c'' ht' hh
    have htest := Derives.between hv hb hl hkind hh
    simpa using sound_escaped hinside htest (ht'.le_depth (ht.le_depth hf))
  next => exact Sound.fault (by simp)

theorem sound_secondOperand {ls ops : List Token} {left : Expr} {op : Operator}
    (hl : Derives .operand ls left) (ho : op.WrittenBy ops) {c : Cursor} (hf : floor ≤ c.depth) :
    Sound c (fun us x => Derives .comparison (ls ++ (ops ++ us)) x)
      (secondOperand inside left op c) := by
  unfold secondOperand
  split
  next hk =>
    -- `IS` followed by `NOT` is one operator of two keywords
    obtain ⟨rfl, hk⟩ := hk
    obtain ⟨not, after, hr, hkind⟩ := exists_of_keyword? hk
    have hnot : Operator.isNot.WrittenBy (ops ++ [not]) :=
      ⟨by simp [Operator.comparisonKeywords], by
        simp [ho.2, hkind, Operator.comparisonKeywords]⟩
    apply Sound.after (Took.one hr (Token.bracket_of_operator hkind))
    refine Sound.andThen (sound_operand hinside hf) ?_
    intro rs right c' ht hr
    simpa using sound_escaped hinside (Derives.compared hl hnot hr) (ht.le_depth hf)
  next =>
    refine Sound.andThen (sound_operand hinside hf) ?_
    intro rs right c' ht hr
    simpa using sound_escaped hinside (Derives.compared hl ho hr) (ht.le_depth hf)

theorem sound_comparison {c : Cursor} (hf : floor ≤ c.depth) :
    Sound c (Derives .comparison) (comparison inside c) := by
  unfold comparison
  refine Sound.andThen (sound_operand hinside hf) ?_
  intro ls left c' ht hl
  split
  -- no keyword follows: an operand alone
  next => exact Sound.done (by simpa using hl.operand)
  -- a range test
  next hk =>
    obtain ⟨between, after, hr, hkind⟩ := exists_of_keyword? hk
    apply Sound.after (Took.one hr (Token.bracket_of_operator hkind))
    simpa using sound_range hinside hl hkind (c := c'.advance) (ht.le_depth hf)
  -- any other keyword, which is an operator of comparisons or ends the comparison
  next keyword _ hk =>
    obtain ⟨t, after, hr, hkind⟩ := exists_of_keyword? hk
    split
    next op hop =>
      have hkeys : op.comparisonKeywords = [keyword] := comparison?_eq_some_iff.1 hop
      have ho : op.WrittenBy [t] := ⟨by simp [hkeys], by simp [hkeys, hkind]⟩
      apply Sound.after (Took.one hr (Token.bracket_of_operator hkind))
      simpa using sound_secondOperand hinside hl ho (c := c'.advance) (ht.le_depth hf)
    next => exact Sound.done (by simpa using hl.operand)

theorem sound_negation {c : Cursor} (hf : floor ≤ c.depth) :
    Sound c (Derives .negation) (negation inside c) := by
  unfold negation
  split
  next hk =>
    obtain ⟨not, after, hr, hkind⟩ := exists_of_keyword? hk
    apply Sound.after (Took.one hr (Token.bracket_of_operator hkind))
    refine Sound.andThen (sound_comparison hinside hf) ?_
    intro ts e c' _ he
    exact Sound.done (by simpa using Derives.negated hkind he)
  next => exact Sound.mono (fun _ _ h => h.plain) (sound_comparison hinside hf)

end Levels

/-! ## §4 Chains -/

/-- The reader of what a chain links. -/
def linkReader (inside : Reader) : Connective → Reader
  | .and => negation inside
  | .or => conjunction inside

/-- The reader of chains. -/
def chainReader (inside : Reader) : Connective → Reader
  | .and => conjunction inside
  | .or => disjunction inside

theorem chainReader_eq (inside : Reader) (k : Connective) (c : Cursor) :
    chainReader inside k c = andThen (linkReader inside k c) fun left c =>
      chain (linkReader inside k) k.keyword k.operator c.rest.length left c := by
  cases k <;> rfl

/-- Each link that is read extends the chain on its left. -/
theorem sound_chain {k : Connective} {link : Reader} {floor : Nat}
    (hlink : ∀ c, floor ≤ c.depth → Sound c (Derives k.link) (link c)) (links : Nat) {ls : List Token}
    {left : Expr} (hl : Derives (.chain k) ls left) {c : Cursor} (hf : floor ≤ c.depth) :
    Sound c (fun us x => Derives (.chain k) (ls ++ us) x)
      (chain link k.keyword k.operator links left c) := by
  -- by the number of links that may still follow
  induction links generalizing ls left c with
  | zero => exact Sound.done (by simpa using hl)
  | succ links ih =>
    unfold chain
    split
    next hk =>
      obtain ⟨joint, after, hr, hkind⟩ := exists_of_keyword? hk
      apply Sound.after (Took.one hr (Token.bracket_of_operator hkind))
      refine Sound.andThen (hlink _ hf) ?_
      intro rs right c' ht hr
      simpa using ih (Derives.joined hl hkind hr) (ht.le_depth hf)
    next => exact Sound.done (by simpa using hl)

theorem sound_chainReader {inside : Reader} {floor : Nat} (hinside : SoundAbove floor inside)
    (k : Connective) {c : Cursor} (hf : floor ≤ c.depth) :
    Sound c (Derives (.chain k)) (chainReader inside k c) := by
  have hstep : ∀ k, (∀ c, floor ≤ c.depth → Sound c (Derives k.link) (linkReader inside k c)) →
      ∀ c, floor ≤ c.depth → Sound c (Derives (.chain k)) (chainReader inside k c) := by
    intro k hlink c hf
    rw [chainReader_eq]
    refine Sound.andThen (hlink c hf) ?_
    intro ls left c' ht hl
    exact sound_chain hlink _ hl.first (ht.le_depth hf)
  -- conjunctions first: they are the links of disjunctions
  have hand := hstep .and fun _ hf => sound_negation hinside hf
  cases k with
  | and => exact hand c hf
  | or => exact hstep .or hand c hf

/-! ## §5 Whole expressions -/

/-- **Soundness**: what is accepted is derived from the grammar, when the budget leaves room for all
parentheses that may still be opened. -/
theorem sound_expression (budget : Nat) {c : Cursor} (hb : maxDepth ≤ budget + c.depth) :
    Sound c (Derives (.chain .or)) (expression budget c) := by
  -- the budget falls as the depth grows, so their sum stays at the limit
  induction budget generalizing c with
  | zero =>
    have hinside : SoundAbove maxDepth (fail .tooDeep) := by
      -- without a budget no parenthesis can be opened, so nothing is read inside of one
      intro c hlt hle
      omega
    exact sound_chainReader hinside .or (by omega)
  | succ budget ih =>
    have hinside : SoundAbove (maxDepth - (budget + 1)) (expression budget) := by
      intro c hlt _
      exact ih (by omega)
    exact sound_chainReader hinside .or (by omega)

/-- What is accepted as a whole is all that is left. -/
theorem sound_whole (c : Cursor) :
    Sound c (fun ts e => Derives (.chain .or) ts e ∧ ts = c.rest) (whole c) := by
  unfold whole
  refine Sound.andThen (sound_expression (maxDepth - c.depth) (by omega)) ?_
  intro ts e c' ht he
  split
  next hend => exact Sound.done ⟨by simpa using he, by simp [ht.rest, List.isEmpty_iff.1 hend]⟩
  next => exact Sound.fault (by simp)

end Parser
end CatalogFilter
