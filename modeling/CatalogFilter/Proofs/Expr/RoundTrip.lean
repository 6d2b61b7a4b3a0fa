import CatalogFilter.Proofs.Expr.Reading

/-!
# Written expressions are read again

The written form of an expression, read again, gives an expression that is written the same way and that
flattens to the same chains.  Printer and reader speak of how tightly operators bind in two languages: the
printer by numbers, the reader by the levels of the grammar.  `Expr.level` translates, and `Reads.placed`
says that every operand, in whatever place, is read at the level that the place asks for.

**Main definitions**: `Expr.Grammatical`, the expressions that the grammar has words for, and
`Expr.readBack`, the only thing that reading changes: the kinds of literals.
**Main statement**: `Expr.parse_render`.
-/

namespace CatalogFilter

/-! ## §1 Places of operands -/

/-- The level at which an expression is derived without parentheses around it. -/
def Expr.level : Expr → Level
  | .node .or _ => .chain .or
  | .node .and _ => .chain .and
  | .node .not _ => .negation
  | .node .escape _ => .comparison
  | .node _ _ => .test
  | _ => .operand

theorem Expr.least_level (e : Expr) : e.level.least = e.precedence := by
  cases e with
  | node op es => cases op <;> rfl
  | name text => rfl
  | literal kind value => rfl

/-- **Every place reads what is put into it**: with parentheses or without, as the printer decides. -/
theorem Reads.placed {k : Nat} {e x : Expr} (h : Reads e.level k e.render x) (level : Level)
    (htest : level ≠ .test) : Reads level (k + 1) (e.placed level.least) x := by
  by_cases hp : e.precedence < level.least
  -- too loose for the place: as a group it is an operand
  · rw [Expr.placed_of_lt hp]
    have hor : Reads (.chain .or) k e.render x := by
      apply h.raise (by simp)
      rw [e.least_level]
      exact e.one_le_precedence
    apply hor.group.raise htest
    cases level with
    | chain c => cases c <;> simp [Level.least, Connective.least]
    | operand | test | comparison | negation => simp [Level.least]
  -- tight enough: its level is no looser than that of the place
  · rw [Expr.placed_of_le (Nat.le_of_not_lt hp)]
    refine (h.raise htest ?_).mono (Nat.le_succ k)
    rw [e.least_level]
    exact Nat.le_of_not_lt hp

/-! ## §2 What reading changes -/

namespace Expr

mutual

/-- An expression with the literals that its written form has: numbers that are no plain numbers, regular
expressions and bare words are written as strings, and every NULL alike. -/
def readBack : Expr → Expr
  | .node op operands => .node op (readBackAll operands)
  | .name text => .name text
  | .literal .null _ => .literal .null "NULL"
  | .literal .number value =>
    .literal (if Text.isNumber value.toList then .number else .string) value
  | .literal _ value => .literal .string value

/-- `readBack` for each expression of a list. -/
def readBackAll : List Expr → List Expr
  | [] => []
  | e :: es => readBack e :: readBackAll es

end

theorem readBackAll_eq_map (es : List Expr) : readBackAll es = es.map readBack := by
  induction es with
  | nil => rfl
  | cons e es ih => simp [readBackAll, ih]

theorem readBack_node (op : Operator) (es : List Expr) :
    readBack (.node op es) = .node op (es.map readBack) := by
  rw [readBack, readBackAll_eq_map]

theorem chainOf_readBack (op : Operator) (e : Expr) :
    chainOf op e.readBack = (chainOf op e).map readBack := by
  cases e with
  | node op' es =>
    by_cases h : op' = op
    · simp [readBack_node, chainOf, h]
    · simp [readBack_node, chainOf, h]
  | name text => rfl
  | literal kind value =>
    have hleaf : ∃ kind' value', readBack (.literal kind value) = .literal kind' value' := by
      cases kind <;> exact ⟨_, _, rfl⟩
    obtain ⟨kind', value', h⟩ := hleaf
    simp [h, chainOf]

/-! ## §3 Grammatical expressions -/

/-- Is the expression a comparison or a range test? -/
def isTest : Expr → Bool
  | .node op _ => op = .between || !op.comparisonKeywords.isEmpty
  | _ => false

/-- The expressions that the grammar has words for.  A chain may have any number of operands from two on,
though the reader itself only makes chains of two. -/
inductive Grammatical : Expr → Prop where
  | name (text : String) : Grammatical (.name text)
  | literal (kind : LiteralKind) (value : String) : Grammatical (.literal kind value)
  | chain (c : Connective) {es : List Expr} (hlength : 2 ≤ es.length)
      (h : ∀ e ∈ es, Grammatical e) : Grammatical (.node c.operator es)
  | not {e : Expr} (h : Grammatical e) : Grammatical (.node .not [e])
  | compared {op : Operator} {left right : Expr} (ho : op.comparisonKeywords ≠ [])
      (hl : Grammatical left) (hr : Grammatical right) : Grammatical (.binary op left right)
  | between {value low high : Expr} (hv : Grammatical value) (hl : Grammatical low)
      (hh : Grammatical high) : Grammatical (.binary .between value (.binary .and low high))
  | escape {e x : Expr} (htest : e.isTest = true) (he : Grammatical e) (hx : Grammatical x) :
      Grammatical (.binary .escape e x)

theorem level_of_isTest {e : Expr} (h : e.isTest = true) : e.level = .test := by
  cases e with
  | node op es => cases op <;> simp [isTest, Operator.comparisonKeywords] at h <;> rfl
  | name text => simp [isTest] at h
  | literal kind value => simp [isTest] at h

theorem isTest_of_comparison {op : Operator} (h : op.comparisonKeywords ≠ []) (es : List Expr) :
    isTest (.node op es) = true := by
  simp [isTest, h]

/-- What binds more tightly than a chain is none. -/
theorem ne_connective (op : Operator) (h : 3 ≤ op.precedence) (c : Connective) :
    op ≠ c.operator := by
  rintro rfl
  cases c <;> simp [Connective.operator, Operator.precedence] at h

theorem four_le_of_comparison {op : Operator} (h : op.comparisonKeywords ≠ []) :
    4 ≤ op.precedence := by
  cases op <;> simp [Operator.comparisonKeywords] at h <;> decide

theorem level_chain (c : Connective) (es : List Expr) : (node c.operator es).level = .chain c := by
  cases c <;> rfl

/-! ## §4 Reading what was written -/

/-- The written form of `e` is read as `x`, which is as good as `e`. -/
structure RereadAs (k : Nat) (e x : Expr) : Prop where
  reads : Reads e.level k e.render x
  precedence : x.precedence = e.precedence
  flat : x.flattenChains = e.flattenChains.readBack
  form : x.render = e.render

namespace RereadAs

variable {k : Nat} {e x y z value low high : Expr}

theorem mono {l : Nat} (h : RereadAs k e x) (hk : k ≤ l) : RereadAs l e x :=
  { h with reads := h.reads.mono hk }

theorem placed_eq (h : RereadAs k e x) (least : Nat) : x.placed least = e.placed least :=
  placed_congr h.precedence h.form least

/-- The operands that a flattened chain takes from it. -/
theorem chainOf_eq (h : RereadAs k e x) (op : Operator) :
    chainOf op x.flattenChains = (chainOf op e.flattenChains).map readBack := by
  rw [h.flat, chainOf_readBack]

theorem name {text : String}
    (h : Lexer.tokenize (Sql.name text.toList) = .ok [Token.identifier text.toList]) :
    RereadAs 0 (.name text) (.name text) where
  reads := by
    have hread := Reads.name h
    rw [String.ofList_toList] at hread
    rw [render]
    exact hread
  precedence := rfl
  flat := rfl
  form := rfl

theorem literal (kind : LiteralKind) (value : String) :
    RereadAs 0 (.literal kind value) (readBack (.literal kind value)) := by
  have hstring : Reads .operand 0 (Sql.string value.toList) (.literal .string value) := by
    have hread := Reads.string value.toList
    rwa [String.ofList_toList] at hread
  cases kind with
  | string | regex | bare => exact ⟨hstring, rfl, rfl, rfl⟩
  | null => exact ⟨Reads.null, rfl, rfl, rfl⟩
  | number =>
    by_cases hn : Text.isNumber value.toList = true
    · have hwritten : render (.literal .number value) = value.toList := by
        simp [render, Sql.literal, hn]
      have hback : readBack (.literal .number value) = .literal .number value := by
        simp [readBack, hn]
      have hread := Reads.number hn
      rw [String.ofList_toList, ← hwritten] at hread
      rw [hback]
      exact ⟨hread, rfl, hback.symm, rfl⟩
    · have hwritten : render (.literal .number value) = Sql.string value.toList := by
        simp [render, Sql.literal, hn]
      have hback : readBack (.literal .number value) = .literal .string value := by
        simp [readBack, hn]
      have hread := hstring
      rw [← hwritten] at hread
      rw [hback]
      exact ⟨hread, rfl, hback.symm, hwritten.symm⟩

theorem not (h : RereadAs k e x) : RereadAs (k + 1) (.node .not [e]) (.node .not [x]) where
  reads := by
    rw [render_not]
    exact (h.reads.placed .comparison (by simp)).negated
  precedence := rfl
  flat := by
    have hnot := ne_connective .not (by decide)
    simp [flattenChains_node hnot, readBack_node, h.flat]
  form := by rw [render_not, render_not, h.placed_eq]

theorem compared {op : Operator} (ho : op.comparisonKeywords ≠ []) (hl : RereadAs k e x)
    (hr : RereadAs k y z) : RereadAs (k + 1) (.binary op e y) (.binary op x z) where
  reads := by
    rw [render_compared ho, binary, level_of_isTest (isTest_of_comparison ho _)]
    exact (hl.reads.placed .operand (by simp)).compared op ho
      (hr.reads.placed .operand (by simp))
  precedence := rfl
  flat := by
    have hop := ne_connective op (Nat.le_of_succ_le (four_le_of_comparison ho))
    simp [binary, flattenChains_node hop, readBack_node, hl.flat, hr.flat]
  form := by rw [render_compared ho, render_compared ho, hl.placed_eq, hr.placed_eq]

theorem between (hv : RereadAs k value x) (hl : RereadAs k low y) (hh : RereadAs k high z) :
    RereadAs (k + 1) (.binary .between value (.binary .and low high))
      (.binary .between x (.binary .and y z)) where
  reads := by
    rw [render_between]
    exact (hv.reads.placed .operand (by simp)).between
      (hl.reads.placed .operand (by simp))
      (hh.reads.placed .operand (by simp))
  precedence := rfl
  flat := by
    have hbetween := ne_connective .between (by decide)
    -- the bounds are an AND and flatten like any chain, on both sides alike
    have hbounds : (Expr.binary .and y z).flattenChains =
        (Expr.binary .and low high).flattenChains.readBack := by
      have h := flattenChains_binary .and
      simp only [Connective.operator] at h
      simp [h, readBack_node, hl.chainOf_eq, hh.chainOf_eq]
    show flattenChains (.node .between [x, .binary .and y z]) =
      readBack (flattenChains (.node .between [value, .binary .and low high]))
    simp [flattenChains_node hbetween, readBack_node, hv.flat, hbounds]
  form := by rw [render_between, render_between, hv.placed_eq, hl.placed_eq, hh.placed_eq]

theorem escape (htest : e.isTest = true) (he : RereadAs k e x) (hx : RereadAs k y z) :
    RereadAs (k + 1) (.binary .escape e y) (.binary .escape x z) where
  reads := by
    have hlevel : e.level = .test := level_of_isTest htest
    -- `ESCAPE` is read after a test, so no parentheses may stand around it
    have hplaced : e.placed 4 = e.render := by
      apply placed_of_le
      rw [← e.least_level, hlevel]
      exact Nat.le_refl 4
    have hread := he.reads.mono (Nat.le_succ k)
    rw [hlevel] at hread
    rw [render_escape, hplaced]
    exact hread.escaped (hx.reads.placed .operand (by simp))
  precedence := rfl
  flat := by
    have hescape := ne_connective .escape (by decide)
    simp [binary, flattenChains_node hescape, readBack_node, he.flat, hx.flat]
  form := by rw [render_escape, render_escape, he.placed_eq, hx.placed_eq]

/-- What a chain of the members of a list is read as: it has their operands and is written as they are. -/
structure ChainOf (c : Connective) (es : List Expr) (z : Expr) : Prop where
  operands : chainOf c.operator z.flattenChains =
    es.flatMap fun e => (chainOf c.operator e.flattenChains).map readBack
  form : z.placed c.least = c.separator.intercalate (es.map (Expr.placed c.least))
  binary : 2 ≤ es.length → ∃ u v, z = .binary c.operator u v

theorem ChainOf.single {c : Connective} (h : RereadAs k e x) : ChainOf c [e] x where
  operands := by simp [h.chainOf_eq c.operator]
  form := by rw [List.map_singleton, List.intercalate_singleton, h.placed_eq]
  binary := by simp

/-- A chain is read as a chain of two, which has the same operands when it is flattened. -/
theorem chain {c : Connective} {es : List Expr} (hlength : 2 ≤ es.length)
    (h : ∀ e ∈ es, ∃ x, RereadAs k e x) : ∃ x, RereadAs (k + 1) (.node c.operator es) x := by
  have hne : es ≠ [] := by
    rintro rfl
    simp at hlength
  have hchain : ∃ z, Reads (.chain c) (k + 1)
      (c.separator.intercalate (es.map (Expr.placed c.least))) z ∧ ChainOf c es z := by
    refine Reads.chain hne (fun e he => ?_) ?_
    · obtain ⟨x, hx⟩ := h e he
      exact ⟨x, hx.reads.placed (.chain c) (by simp), .single hx⟩
    · intro a bs x y u v hbs hx hy hflat hform
      obtain ⟨b, bs, rfl⟩ := List.exists_cons_of_ne_nil hbs
      refine ⟨?_, ?_, fun _ => ⟨u, v, rfl⟩⟩
      · rw [hflat, flattenChains_binary, chainOf_self, hx.operands, hy.operands]
        simp
      · rw [placed_joined, hform, render_joined, hx.form, hy.form]
        simp only [List.map_cons, List.map_nil, List.intercalate_singleton, intercalate_separator]
  obtain ⟨z, hread, hz⟩ := hchain
  obtain ⟨u, v, rfl⟩ := hz.binary hlength
  have hoperands := hz.operands
  rw [flattenChains_binary, chainOf_self] at hoperands
  refine ⟨.binary c.operator u v, ?_, ?_, ?_, ?_⟩
  · rw [render_chain, level_chain]
    exact hread
  · rfl
  · rw [flattenChains_binary, hoperands, flattenChains_chain, readBack_node, List.map_flatMap]
  · rw [render_chain, ← hz.form, placed_joined]

end RereadAs

theorem exists_bound {α : Type} (f : α → Nat) (as : List α) : ∃ k, ∀ a ∈ as, f a ≤ k := by
  induction as with
  | nil => exact ⟨0, by simp⟩
  | cons a as ih =>
    obtain ⟨k, hk⟩ := ih
    refine ⟨max (f a) k, fun b hb => ?_⟩
    rcases List.mem_cons.1 hb with rfl | hb
    · exact Nat.le_max_left ..
    · exact Nat.le_trans (hk b hb) (Nat.le_max_right ..)

/-- What holds of the names of a node holds of those of its operands. -/
theorem forall_names_of_mem {op : Operator} {es : List Expr} {e : Expr} {P : String → Prop}
    (h : ∀ n ∈ (node op es).names, P n) (he : e ∈ es) : ∀ n ∈ e.names, P n := by
  intro n hn
  apply h
  rw [names, namesOfAll_eq_flatMap]
  exact List.mem_flatMap.2 ⟨e, he, hn⟩

/-- Is the name read back, when it is written alone? -/
def NameReads (n : String) : Prop :=
  Lexer.tokenize (Sql.name n.toList) = .ok [Token.identifier n.toList]

/-- Every grammatical expression is read again, if its names are. -/
theorem Grammatical.rereads {e : Expr} (h : e.Grammatical) (hnames : ∀ n ∈ e.names, NameReads n) :
    ∃ k x, RereadAs k e x := by
  -- by the expression; depths of operands are raised to their maximum
  induction h with
  | name text => exact ⟨0, _, .name (hnames text (by simp [names]))⟩
  | literal kind value => exact ⟨0, _, .literal kind value⟩
  | @chain c es hlength _ ih =>
    -- the operands differ in depth; what the deepest may open is enough for all
    obtain ⟨k, hk⟩ := exists_bound (fun e => openDepth e.render) es
    obtain ⟨x, hx⟩ := RereadAs.chain (k := k) (c := c) hlength fun e he => by
      obtain ⟨l, x, hx⟩ := ih e he (forall_names_of_mem hnames he)
      exact ⟨x, { hx with reads := hx.reads.at_openDepth.mono (hk e he) }⟩
    exact ⟨k + 1, x, hx⟩
  | not _ ih =>
    obtain ⟨k, x, hx⟩ := ih (forall_names_of_mem hnames (by simp))
    exact ⟨k + 1, _, hx.not⟩
  | compared ho _ _ ihl ihr =>
    obtain ⟨k, x, hx⟩ := ihl (forall_names_of_mem hnames (by simp))
    obtain ⟨l, y, hy⟩ := ihr (forall_names_of_mem hnames (by simp))
    exact ⟨_, _, (hx.mono (Nat.le_max_left k l)).compared ho (hy.mono (Nat.le_max_right k l))⟩
  | between _ _ _ ihv ihl ihh =>
    obtain ⟨k, x, hx⟩ := ihv (forall_names_of_mem hnames (by simp))
    -- the bounds stand one node deeper, under the AND between them
    have hbounds := forall_names_of_mem hnames (List.mem_cons_of_mem _ List.mem_cons_self)
    obtain ⟨l, y, hy⟩ := ihl (forall_names_of_mem hbounds (by simp))
    obtain ⟨m, z, hz⟩ := ihh (forall_names_of_mem hbounds (by simp))
    exact ⟨_, _, (hx.mono (l := max k (max l m)) (by omega)).between (hy.mono (by omega))
      (hz.mono (by omega))⟩
  | escape htest _ _ ihe ihx =>
    obtain ⟨k, x, hx⟩ := ihe (forall_names_of_mem hnames (by simp))
    obtain ⟨l, y, hy⟩ := ihx (forall_names_of_mem hnames (by simp))
    exact ⟨_, _, (hx.mono (Nat.le_max_left k l)).escape htest (hy.mono (Nat.le_max_right k l))⟩

/-! ## §5 What the reader answers -/

theorem isTest_of_derives {ts : List Token} {e : Expr} (h : Derives .test ts e) : e.isTest = true := by
  cases h with
  | compared _ ho _ => exact isTest_of_comparison ho.1 _
  | between _ _ _ _ _ => rfl

/-- The reader answers grammatical expressions only. -/
theorem grammatical_of_derives {level : Level} {ts : List Token} {e : Expr} (h : Derives level ts e) :
    e.Grammatical := by
  induction h with
  | name _ => exact .name _
  | literal _ => exact .literal _ _
  | group _ _ _ ih => exact ih
  | compared _ ho _ ihl ihr => exact .compared ho.1 ihl ihr
  | between _ _ _ _ _ ihv ihl ihh => exact .between ihv ihl ihh
  | operand _ ih | test _ ih | plain _ ih | first _ ih => exact ih
  | escaped h _ _ ih ihx => exact .escape (isTest_of_derives h) ih ihx
  | negated _ _ ih => exact .not ih
  | @joined c _ _ _ left right _ _ _ ihl ihr =>
    have hes : ∀ x ∈ [left, right], x.Grammatical := by simp [ihl, ihr]
    exact .chain c (Nat.le_refl 2) hes

/-- The written form opens no more than `d` parentheses at a time, also with those that the place of the
level asks for. -/
def WrittenWithin (level : Level) (d : Nat) (e : Expr) : Prop :=
  ∃ k, Nests k e.render ∧ k ≤ d ∧ (e.precedence < level.least → k < d)

namespace WrittenWithin

variable {level level' : Level} {d : Nat} {e : Expr}

theorem of_nests {k : Nat} (h : Nests k e.render) (hk : k ≤ d) (hp : level.least ≤ e.precedence) :
    WrittenWithin level d e :=
  ⟨k, h, hk, fun hlt => absurd hp (Nat.not_le.2 hlt)⟩

theorem loosen (h : WrittenWithin level d e) (hle : level'.least ≤ level.least) :
    WrittenWithin level' d e := by
  obtain ⟨k, hk, hd, hlt⟩ := h
  exact ⟨k, hk, hd, fun hp => hlt (Nat.lt_of_lt_of_le hp hle)⟩

theorem placed (h : WrittenWithin level d e) : ∃ k, k ≤ d ∧ Nests k (e.placed level.least) := by
  obtain ⟨k, hk, hd, hlt⟩ := h
  by_cases hp : e.precedence < level.least
  · rw [placed_of_lt hp]
    exact ⟨k + 1, hlt hp, hk.enclose⟩
  · rw [placed_of_le (Nat.le_of_not_lt hp)]
    exact ⟨k, hd, hk⟩

end WrittenWithin

/-- Writing what was read opens no more parentheses than the tokens did: only those that a place needs are
written, and there the tokens had them. -/
theorem writtenWithin_of_derives {level : Level} {ts : List Token} {e : Expr}
    (h : Derives level ts e) : WrittenWithin level (nesting ts) e := by
  induction h with
  | @name t _ =>
    refine .of_nests (k := 0) ?_ (Nat.zero_le _) (Nat.le_refl 5)
    rw [render]
    exact Nests.name _
  | @literal t kind _ =>
    refine .of_nests (k := 0) ?_ (Nat.zero_le _) (Nat.le_refl 5)
    rw [render]
    exact Nests.literal kind _
  -- the parentheses are dropped, and may come back where a place needs them
  | group ho hc h ih =>
    obtain ⟨k, hk, hd, _⟩ := ih
    rw [nesting_enclose h.balanced (by simp [Token.bracket, ho]) (by simp [Token.bracket, hc])]
    exact ⟨k, hk, by omega, fun _ => by omega⟩
  | @compared op ls ops rs left right hl ho hr ihl ihr =>
    obtain ⟨k, hk, hleft⟩ := ihl.placed
    obtain ⟨l, hl', hright⟩ := ihr.placed
    obtain ⟨_, hop, _⟩ := Spells.operator ho.1
    have hops : Balanced Token.bracket (nesting ops) ops := by
      have hb := Balanced.of_forall ho.bracket
      rwa [hb.nesting_eq]
    rw [nesting_append hl.balanced, nesting_append hops]
    refine .of_nests (k := max k l) ?_ (by omega) (four_le_of_comparison ho.1)
    rw [render_compared ho.1]
    exact hleft.joinedBy hop.nests hright
  | between hv hb hl ha hh ihv ihl ihh =>
    obtain ⟨k, hk, hvalue⟩ := ihv.placed
    obtain ⟨l, hl', hlow⟩ := ihl.placed
    obtain ⟨m, hm, hhigh⟩ := ihh.placed
    rw [nesting_append hv.balanced, nesting_cons (Token.bracket_of_operator hb),
      nesting_append hl.balanced, nesting_cons (Token.bracket_of_operator ha)]
    refine .of_nests (k := max k (max l m)) ?_ (by omega) (Nat.le_refl 4)
    rw [render_between]
    exact hvalue.joinedBy (Nests.keyword _) (hlow.joinedBy (Nests.keyword _) hhigh)
  | operand _ ih => exact ih.loosen (Nat.le_succ 4)
  | test _ ih => exact ih.loosen (Nat.le_refl 4)
  | escaped h hk _ ih ihx =>
    obtain ⟨k, hk', hpattern⟩ := ih.placed
    obtain ⟨l, hl, hescape⟩ := ihx.placed
    rw [nesting_append h.balanced, nesting_cons (Token.bracket_of_operator hk)]
    refine .of_nests (k := max k l) ?_ (by omega) (Nat.le_refl 4)
    rw [render_escape]
    exact hpattern.joinedBy (Nests.keyword _) hescape
  | plain _ ih => exact ih.loosen (Nat.le_succ 3)
  | negated hn _ ih =>
    obtain ⟨k, hk, hplaced⟩ := ih.placed
    rw [nesting_cons (Token.bracket_of_operator hn)]
    refine .of_nests (k := max 0 k) ?_ (by omega) (Nat.le_refl 3)
    rw [render_not]
    exact (Nests.keyword .not).append (hplaced.cons (by decide))
  | @first c _ _ _ ih => exact ih.loosen (by cases c <;> decide)
  | @joined c _ _ _ _ _ hl hj _ ihl ihr =>
    obtain ⟨k, hk, hleft⟩ := ihl.placed
    have hlink : WrittenWithin (.chain c) _ _ := ihr.loosen (by cases c <;> decide)
    obtain ⟨l, hl', hright⟩ := hlink.placed
    rw [nesting_append hl.balanced, nesting_cons (Token.bracket_of_operator hj)]
    refine .of_nests (k := max k l) ?_ (by omega) (Nat.le_of_eq (precedence_chain c _).symm)
    rw [render_joined]
    exact hleft.joinedBy (Nests.keyword _) hright

/-! ## §6 The round trip -/

/-- **Written expressions are read again.**  A grammatical expression whose names are read back, and whose
written form stays within the limit of depth, is read from its written form as an expression that flattens
to the same chains up to the kinds of literals, and that has the same written form.  Whatever is read at all
is grammatical and stays within the limit. -/
theorem parse_render :
    (∀ e : Expr, e.Grammatical → (∀ n ∈ e.names, NameReads n) → openDepth e.render ≤ maxDepth →
      ∃ x, parse e.render = .ok x ∧ x.flattenChains = e.flattenChains.readBack ∧
        x.render = e.render) ∧
    (∀ (text : List Char) (e : Expr), parse text = .ok e →
      e.Grammatical ∧ openDepth e.render ≤ maxDepth) := by
  constructor
  · intro e he hnames hdepth
    obtain ⟨k, x, hx⟩ := he.rereads hnames
    have hor : Reads (.chain .or) (openDepth e.render) e.render x := by
      apply hx.reads.at_openDepth.raise (by simp)
      rw [e.least_level]
      exact e.one_le_precedence
    exact ⟨x, hor.parse hdepth, hx.flat, hx.form⟩
  -- what was read is derived, and its written form is no deeper than its tokens
  · intro text e h
    unfold parse at h
    split at h
    next => simp at h
    next tokens _ =>
      obtain ⟨hd, hdepth⟩ := (ofTokens_sound tokens).1 e h
      obtain ⟨k, hk, hle, _⟩ := writtenWithin_of_derives hd
      refine ⟨grammatical_of_derives hd, ?_⟩
      rw [hk.openDepth_eq]
      omega

/-- A chain of three under NOT, with literals whose kinds are not read back. -/
theorem parse_render_not_chain :
    let e : Expr := .node .not [.node .or
      [.name "t.f", .literal .bare "x", .binary .is (.name "t.f") (.literal .null "")]]
    e.Grammatical ∧ openDepth e.render ≤ maxDepth ∧
      ∃ x, parse e.render = .ok x ∧ x.flattenChains = e.flattenChains.readBack ∧
        x.render = e.render := by
  intro e
  have hname : NameReads "t.f" := Lexer.tokenize_field ['t'] ['f']
  have hnames : ∀ n ∈ e.names, NameReads n := by simp [e, binary, names, namesOfAll, hname]
  have hes : ∀ x ∈ [Expr.name "t.f", .literal .bare "x",
      .binary .is (.name "t.f") (.literal .null "")], x.Grammatical := by
    have his : (binary .is (.name "t.f") (.literal .null "")).Grammatical :=
      .compared (by decide) (.name _) (.literal _ _)
    simp [Grammatical.name, Grammatical.literal, his]
  have he : e.Grammatical := .not (.chain .or (by decide) hes)
  have hdepth : openDepth e.render ≤ maxDepth := by decide +kernel
  exact ⟨he, hdepth, parse_render.1 e he hnames hdepth⟩

end Expr
end CatalogFilter
