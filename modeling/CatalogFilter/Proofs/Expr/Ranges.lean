import CatalogFilter.Proofs.Expr.RoundTrip
import Mathlib.Data.List.Basic

/-!
# Range tests in flattened expressions

The bounds of a range test are written as an AND, but they are a pair and no conjunction.  Flattening keeps
every range test at its place, and never merges its bounds with a chain around it.  A bound that is itself a
conjunction, in parentheses, is merged with the pair: there are more than two bounds then, and the range test
means nothing any more.  This is the only way to lose one.

**Main definitions**: `RangeTest`, `Expr.rangeOperands`, `Expr.Interpretation.meaning`, and
`Expr.Merges`, what the flattenings have in common.
**Main statement**: `Expr.rangeOperands_flatten_of_parse`.
-/

namespace CatalogFilter

/-! ## §1 Range tests -/

/-- A value and the two bounds that it is to lie between. -/
structure RangeTest where
  value : Expr
  low : Expr
  high : Expr

namespace RangeTest

/-- The operands of a range test: the value, and the pair of bounds. -/
def operands (r : RangeTest) : List Expr := [r.value, .binary .and r.low r.high]

/-- The range test with its value and its bounds changed. -/
def map (f : Expr → Expr) (r : RangeTest) : RangeTest := ⟨f r.value, f r.low, f r.high⟩

theorem operands_injective {r r' : RangeTest} (h : r.operands = r'.operands) : r = r' := by
  cases r
  cases r'
  simpa [operands, Expr.binary] using h

/-- Is no bound a conjunction? -/
def Separate (r : RangeTest) : Prop := ∀ es, r.low ≠ .node .and es ∧ r.high ≠ .node .and es

end RangeTest

theorem Connective.operator_ne_between (c : Connective) : c.operator ≠ .between := by
  cases c <;> decide

namespace Expr

mutual

/-- The operands of every range test in an expression, from left to right, an outer one before those in
it. -/
def rangeOperands : Expr → List (List Expr)
  | .node op es => if op = .between then es :: rangeOperandsOfAll es else rangeOperandsOfAll es
  | .name _ => []
  | .literal _ _ => []

/-- The operands of the range tests in a list of expressions. -/
def rangeOperandsOfAll : List Expr → List (List Expr)
  | [] => []
  | e :: es => rangeOperands e ++ rangeOperandsOfAll es

end

theorem rangeOperandsOfAll_eq_flatMap (es : List Expr) :
    rangeOperandsOfAll es = es.flatMap rangeOperands := by
  induction es with
  | nil => rfl
  | cons e es ih => simp [rangeOperandsOfAll, ih]

theorem rangeOperands_between (es : List Expr) :
    rangeOperands (.node .between es) = es :: es.flatMap rangeOperands := by
  simp [rangeOperands, rangeOperandsOfAll_eq_flatMap]

theorem rangeOperands_node {op : Operator} (h : op ≠ .between) (es : List Expr) :
    rangeOperands (.node op es) = es.flatMap rangeOperands := by
  simp [rangeOperands, rangeOperandsOfAll_eq_flatMap, h]

theorem mem_rangeOperands_node {op : Operator} {es xs : List Expr} {e : Expr} (he : e ∈ es)
    (h : xs ∈ rangeOperands e) : xs ∈ rangeOperands (.node op es) := by
  have hmem : xs ∈ es.flatMap rangeOperands := List.mem_flatMap.2 ⟨e, he, h⟩
  by_cases hop : op = .between
  · rw [hop, rangeOperands_between]
    exact List.mem_cons_of_mem es hmem
  · rwa [rangeOperands_node hop]

/-- A chain has the range tests of its operands. -/
theorem rangeOperands_chainOf (c : Connective) (e : Expr) :
    (chainOf c.operator e).flatMap rangeOperands = rangeOperands e := by
  unfold chainOf
  split
  next op es =>
    split
    next hop => rw [hop, rangeOperands_node (Connective.operator_ne_between c)]
    next => simp
  next => simp

/-! ## §2 Expressions of the grammar -/

/-- A grammatical chain has two operands or more, all of them grammatical. -/
theorem Grammatical.operands_of_chain {c : Connective} {es : List Expr}
    (h : Grammatical (.node c.operator es)) : 2 ≤ es.length ∧ ∀ e ∈ es, e.Grammatical := by
  generalize hnode : Expr.node c.operator es = e at h
  -- the node is named, so that the cases can be told apart by their operators
  cases h with
  | chain d hlength hes =>
    injection hnode with _ hoperands
    subst hoperands
    exact ⟨hlength, hes⟩
  | compared ho =>
    injection hnode with hop
    exact absurd hop.symm (ne_connective _ (Nat.le_of_succ_le (four_le_of_comparison ho)) c)
  | not | between | escape =>
    injection hnode with hop
    exact absurd hop.symm (ne_connective _ (by decide) c)
  | name | literal => cases hnode

/-- **The range tests of a grammatical expression** have two operands, the second an AND of two bounds. -/
theorem Grammatical.exists_rangeTest {e : Expr} (h : e.Grammatical) {es : List Expr}
    (hes : es ∈ rangeOperands e) :
    ∃ r : RangeTest, r.operands = es ∧ r.low.Grammatical ∧ r.high.Grammatical := by
  -- one case for each form of the grammar; only a range test has operands of its own to add
  induction h with
  | name | literal => cases hes
  | @chain c xs _ _ ih =>
    rw [rangeOperands_node (Connective.operator_ne_between c)] at hes
    obtain ⟨x, hx, hes⟩ := List.mem_flatMap.1 hes
    exact ih x hx hes
  | not _ ih => exact ih (by simpa [rangeOperands, rangeOperandsOfAll] using hes)
  | @compared op left right ho _ _ ihl ihr =>
    have hop : op ≠ .between := by
      rintro rfl
      simp [Operator.comparisonKeywords] at ho
    rw [binary, rangeOperands_node hop] at hes
    rcases List.mem_append.1 (by simpa using hes) with hl | hr
    · exact ihl hl
    · exact ihr hr
  | @between value low high _ hl hh ihv ihl ihh =>
    rw [binary, rangeOperands_between, List.mem_cons] at hes
    rcases hes with rfl | hes
    · exact ⟨⟨value, low, high⟩, rfl, hl, hh⟩
    · simp only [List.flatMap_cons, List.flatMap_nil, List.append_nil, binary,
        rangeOperands_node (show Operator.and ≠ .between by decide), List.mem_append] at hes
      rcases hes with hv | hl | hh
      · exact ihv hv
      · exact ihl hl
      · exact ihh hh
  | escape _ _ _ ihe ihx =>
    rw [binary, rangeOperands_node (by decide)] at hes
    rcases List.mem_append.1 (by simpa using hes) with he | hx
    · exact ihe he
    · exact ihx hx

/-! ## §3 Flattenings -/

/-- Lists that are not empty have at least as many items, put together, as there are lists. -/
theorem length_le_length_flatMap {es : List Expr} {g : Expr → List Expr}
    (h : ∀ e ∈ es, 1 ≤ (g e).length) : es.length ≤ (es.flatMap g).length := by
  induction es with
  | nil => exact Nat.le_refl 0
  | cons e es ih =>
    obtain ⟨he, hes⟩ := List.forall_mem_cons.1 h
    have hrest := ih hes
    simp only [List.flatMap_cons, List.length_cons, List.length_append]
    omega

/-- What the flattenings have in common: the chains of some connectives are merged with the chains of the
same connective right under them, and nothing else is changed. -/
structure Merges (merged : Connective → Bool) (f : Expr → Expr) : Prop where
  chain : ∀ c es, f (.node c.operator es) = .node c.operator
    (if merged c then es.flatMap fun e => chainOf c.operator (f e) else es.map f)
  node : ∀ op es, (∀ c : Connective, op ≠ c.operator) → f (.node op es) = .node op (es.map f)
  name : ∀ text, f (.name text) = .name text
  literal : ∀ kind value, f (.literal kind value) = .literal kind value

theorem merges_flatten (c : Connective) : Merges (fun d => d = c) (flatten c.operator) where
  chain d es := by
    have hiff : d.operator = c.operator ↔ d = c := by cases c <;> cases d <;> decide
    rw [flatten_node]
    by_cases h : d = c
    · simp [h]
    · simp [h, hiff]
  node op es h := by rw [flatten_node, if_neg (h c)]
  name _ := rfl
  literal _ _ := rfl

theorem merges_flattenChains : Merges (fun _ => true) flattenChains where
  chain c es := by rw [flattenChains_chain, if_pos rfl]
  node _ es h := flattenChains_node h es
  name _ := rfl
  literal _ _ := rfl

namespace Merges

variable {merged : Connective → Bool} {f : Expr → Expr} {e : Expr}

/-- The pair of bounds takes in the operands of a bound that is a conjunction, if conjunctions are
merged. -/
theorem bounds (hf : Merges merged f) (low high : Expr) :
    f (.binary .and low high) = .node .and
      (if merged .and then chainOf .and (f low) ++ chainOf .and (f high) else [f low, f high]) := by
  have h := hf.chain .and [low, high]
  simp only [Connective.operator, List.flatMap_cons, List.flatMap_nil, List.append_nil] at h
  exact h

/-- **Every range test stays at its place**, and its operands are flattened. -/
theorem rangeOperands_eq (hf : Merges merged f) (e : Expr) :
    rangeOperands (f e) = (rangeOperands e).map (List.map f) := by
  induction e using operandsInduction with
  | name text => rw [hf.name]; rfl
  | literal kind value => rw [hf.literal]; rfl
  | node op es ih =>
    have hall : es.flatMap (fun e => rangeOperands (f e)) =
        (es.flatMap rangeOperands).map (List.map f) := by
      rw [List.map_flatMap]
      exact List.flatMap_congr ih
    by_cases hop : ∃ c : Connective, op = c.operator
    · obtain ⟨c, rfl⟩ := hop
      have hne := Connective.operator_ne_between c
      rw [hf.chain, rangeOperands_node hne, rangeOperands_node hne, ← hall]
      -- merged or not, a chain has the range tests of its operands
      split
      · rw [List.flatMap_assoc]
        simp only [rangeOperands_chainOf]
      · rw [List.flatMap_map]
    · rw [hf.node op es fun c hc => hop ⟨c, hc⟩]
      by_cases hbetween : op = .between
      · rw [hbetween, rangeOperands_between, rangeOperands_between, List.flatMap_map, hall]
        rfl
      · rw [rangeOperands_node hbetween, rangeOperands_node hbetween, List.flatMap_map, hall]

/-- What is no chain of a connective is none after flattening. -/
theorem chainOf_eq_singleton (hf : Merges merged f) {c : Connective}
    (h : ∀ es, e ≠ .node c.operator es) : chainOf c.operator (f e) = [f e] := by
  cases e with
  | name text => rw [hf.name]; rfl
  | literal kind value => rw [hf.literal]; rfl
  | node op es =>
    have hop : op ≠ c.operator := by
      rintro rfl
      exact h es rfl
    by_cases hchain : ∃ d : Connective, op = d.operator
    · obtain ⟨d, rfl⟩ := hchain
      rw [hf.chain, chainOf, if_neg hop]
    · rw [hf.node op es fun d hd => hchain ⟨d, hd⟩, chainOf, if_neg hop]

/-- A grammatical chain has two operands or more, and flattening does not take them away. -/
theorem le_length_chainOf (hf : Merges merged f) (h : e.Grammatical) (c : Connective) :
    1 ≤ (chainOf c.operator (f e)).length ∧
      ∀ es, e = .node c.operator es → 2 ≤ (chainOf c.operator (f e)).length := by
  -- on the operands: a merged chain has at least one operand from each of two
  induction e using operandsInduction with
  | name text => rw [hf.chainOf_eq_singleton (by simp)]; simp
  | literal kind value => rw [hf.chainOf_eq_singleton (by simp)]; simp
  | node op es ih =>
    by_cases hop : op = c.operator
    · subst hop
      obtain ⟨hlength, hes⟩ := h.operands_of_chain
      have htwo : 2 ≤ (chainOf c.operator (f (.node c.operator es))).length := by
        rw [hf.chain, chainOf_self]
        split
        · exact Nat.le_trans hlength (length_le_length_flatMap fun e he => (ih e he (hes e he)).1)
        · rwa [List.length_map]
      exact ⟨Nat.le_of_succ_le htwo, fun _ _ => htwo⟩
    · have hne : ∀ es', Expr.node op es ≠ .node c.operator es' := by
        intro es' h
        injection h with h
        exact hop h
      rw [hf.chainOf_eq_singleton hne]
      exact ⟨Nat.le_refl 1, fun es' h => absurd h (hne es')⟩

/-- Bounds stay apart if conjunctions are not merged, or neither of them is one. -/
theorem bounds_of_separate (hf : Merges merged f) {r : RangeTest}
    (h : merged .and = true → r.Separate) :
    f (.binary .and r.low r.high) = .binary .and (f r.low) (f r.high) := by
  rw [hf.bounds]
  split
  next hm =>
    have hlow : chainOf .and (f r.low) = [f r.low] :=
      hf.chainOf_eq_singleton (c := .and) fun es => (h hm es).1
    have hhigh : chainOf .and (f r.high) = [f r.high] :=
      hf.chainOf_eq_singleton (c := .and) fun es => (h hm es).2
    rw [hlow, hhigh]
    rfl
  next => rfl

/-- There are two bounds only if conjunctions are not merged, or neither bound is one. -/
theorem separate_of_bounds (hf : Merges merged f) {r : RangeTest} (hl : r.low.Grammatical)
    (hh : r.high.Grammatical) {low high : Expr}
    (h : f (.binary .and r.low r.high) = .binary .and low high) (hm : merged .and = true) :
    r.Separate := by
  rw [hf.bounds, if_pos hm] at h
  injection h with _ hoperands
  have hlength := congrArg List.length hoperands
  rw [List.length_append] at hlength
  have htwo : [low, high].length = 2 := rfl
  obtain ⟨hlow, hlows⟩ := hf.le_length_chainOf hl .and
  obtain ⟨hhigh, hhighs⟩ := hf.le_length_chainOf hh .and
  simp only [Connective.operator] at hlow hlows hhigh hhighs
  -- a bound that is a conjunction would bring two operands at least, and the other one more
  intro es
  constructor
  · intro he
    have := hlows es he
    omega
  · intro he
    have := hhighs es he
    omega

/-- A range test keeps exactly its two bounds, both flattened, unless conjunctions are merged and a bound
is one. -/
theorem map_operands_iff (hf : Merges merged f) {r : RangeTest} (hl : r.low.Grammatical)
    (hh : r.high.Grammatical) :
    r.operands.map f = (r.map f).operands ↔ (merged .and = true → r.Separate) := by
  have hmap : r.operands.map f = [f r.value, f (.binary .and r.low r.high)] := rfl
  rw [hmap]
  constructor
  · intro h
    obtain ⟨hbounds, -⟩ := List.cons.inj (List.cons.inj h).2
    exact hf.separate_of_bounds hl hh hbounds
  · intro h
    rw [hf.bounds_of_separate h]
    rfl

end Merges

/-! ## §4 Meanings -/

/-- What the parts of expressions mean.  The connectives are associative, a range test reads its second
operand as a pair of bounds, and all other operators are free. -/
structure Interpretation (α : Type) where
  name : String → α
  literal : LiteralKind → String → α
  join : Connective → α → α → α
  join_assoc : ∀ c x y z, join c (join c x y) z = join c x (join c y z)
  between : α → α → α → α
  apply : Operator → List α → α

namespace Interpretation

variable {α : Type} (I : Interpretation α)

/-- A chain joins its operands, one after the other. -/
def joinAll (c : Connective) : List α → α
  | [] => I.apply c.operator []
  | x :: xs => xs.foldl (I.join c) x

mutual

def meaning : Expr → α
  | .name text => I.name text
  | .literal kind value => I.literal kind value
  | .node .and es => I.joinAll .and (meaningOfAll es)
  | .node .or es => I.joinAll .or (meaningOfAll es)
  | .node .between [value, .node .and [low, high]] =>
    I.between (meaning value) (meaning low) (meaning high)
  | .node op es => I.apply op (meaningOfAll es)

/-- The meaning of each expression of a list. -/
def meaningOfAll : List Expr → List α
  | [] => []
  | e :: es => meaning e :: meaningOfAll es

end

theorem meaningOfAll_eq_map (es : List Expr) : I.meaningOfAll es = es.map I.meaning := by
  induction es with
  | nil => rfl
  | cons e es ih => simp [meaningOfAll, ih]

theorem meaning_chain (c : Connective) (es : List Expr) :
    I.meaning (.node c.operator es) = I.joinAll c (es.map I.meaning) := by
  cases c <;> simp [Connective.operator, meaning, meaningOfAll_eq_map]

theorem meaning_node {op : Operator} (hc : ∀ c : Connective, op ≠ c.operator) (hb : op ≠ .between)
    (es : List Expr) : I.meaning (.node op es) = I.apply op (es.map I.meaning) := by
  have hand : op ≠ .and := hc .and
  have hor : op ≠ .or := hc .or
  rw [meaning, meaningOfAll_eq_map]
  · exact fun h => absurd h hand
  · exact fun h => absurd h hor
  · exact fun _ _ _ h => absurd h hb

theorem meaning_rangeTest (r : RangeTest) : I.meaning (.node .between r.operands) =
    I.between (I.meaning r.value) (I.meaning r.low) (I.meaning r.high) := by
  simp [RangeTest.operands, binary, meaning]

theorem joinAll_append (c : Connective) {xs ys : List α} (hx : xs ≠ []) (hy : ys ≠ []) :
    I.joinAll c (xs ++ ys) = I.join c (I.joinAll c xs) (I.joinAll c ys) := by
  -- by associativity, the first operand can be taken out of a fold
  have hfold : ∀ (ys : List α) (x y : α),
      ys.foldl (I.join c) (I.join c x y) = I.join c x (ys.foldl (I.join c) y) := by
    intro ys
    induction ys with
    | nil => exact fun _ _ => rfl
    | cons z ys ih =>
      intro x y
      rw [List.foldl_cons, I.join_assoc, ih, List.foldl_cons]
  obtain ⟨x, xs, rfl⟩ := List.exists_cons_of_ne_nil hx
  obtain ⟨y, ys, rfl⟩ := List.exists_cons_of_ne_nil hy
  simp only [joinAll, List.cons_append, List.foldl_append, List.foldl_cons, hfold]

/-- Chains in a chain may be joined first. -/
theorem joinAll_flatten (c : Connective) {xss : List (List α)} (h : ∀ xs ∈ xss, xs ≠ []) :
    I.joinAll c xss.flatten = I.joinAll c (xss.map (I.joinAll c)) := by
  induction xss with
  | nil => rfl
  | cons xs xss ih =>
    obtain ⟨hxs, hrest⟩ := List.forall_mem_cons.1 h
    -- the last list is joined to nothing, and the others to what the rest comes to
    cases xss with
    | nil => simp [joinAll]
    | cons ys yss =>
      have hne : (ys :: yss).flatten ≠ [] := by
        simp [(List.forall_mem_cons.1 hrest).1]
      calc I.joinAll c (xs ++ (ys :: yss).flatten)
          = I.join c (I.joinAll c xs) (I.joinAll c (ys :: yss).flatten) :=
            I.joinAll_append c hxs hne
        _ = I.join c (I.joinAll c [I.joinAll c xs]) (I.joinAll c ((ys :: yss).map (I.joinAll c))) := by
            rw [ih hrest]
            rfl
        _ = I.joinAll c ([I.joinAll c xs] ++ (ys :: yss).map (I.joinAll c)) :=
            (I.joinAll_append c (by simp) (by simp)).symm

/-- A chain means what its operands mean together. -/
theorem joinAll_chainOf (c : Connective) (e : Expr) :
    I.joinAll c ((chainOf c.operator e).map I.meaning) = I.meaning e := by
  unfold chainOf
  split
  next op es =>
    split
    next hop => rw [hop, meaning_chain]
    next => rfl
  next => rfl

end Interpretation

namespace Merges

variable {merged : Connective → Bool} {f : Expr → Expr} {e : Expr} {α : Type}

/-- An operator that is neither a connective nor a range test means what it does of its operands. -/
theorem meaning_node (hf : Merges merged f) (I : Interpretation α) {op : Operator} {es : List Expr}
    (hc : ∀ c : Connective, op ≠ c.operator) (hb : op ≠ .between)
    (h : ∀ e ∈ es, I.meaning (f e) = I.meaning e) :
    I.meaning (f (.node op es)) = I.meaning (.node op es) := by
  rw [hf.node op es hc, I.meaning_node hc hb, I.meaning_node hc hb, List.map_map]
  exact congrArg (I.apply op) (List.map_congr_left h)

/-- A chain means the same, if its operands do. -/
theorem meaning_chain (hf : Merges merged f) (I : Interpretation α) (c : Connective) {es : List Expr}
    (hes : ∀ e ∈ es, e.Grammatical) (h : ∀ e ∈ es, I.meaning (f e) = I.meaning e) :
    I.meaning (f (.node c.operator es)) = I.meaning (.node c.operator es) := by
  rw [hf.chain, I.meaning_chain, I.meaning_chain]
  split
  next =>
    -- an empty chain in the chain could not be joined first, but a grammatical one is not empty
    have hne : ∀ xs ∈ es.map (fun e => (chainOf c.operator (f e)).map I.meaning), xs ≠ [] := by
      intro xs hxs
      obtain ⟨e, he, rfl⟩ := List.mem_map.1 hxs
      have hlength := (hf.le_length_chainOf (hes e he) c).1
      exact fun hnil => by simp [List.map_eq_nil_iff.1 hnil] at hlength
    rw [List.map_flatMap, List.flatMap_def, I.joinAll_flatten c hne, List.map_map]
    congr 1
    exact List.map_congr_left fun e he => (I.joinAll_chainOf c (f e)).trans (h e he)
  next =>
    rw [List.map_map]
    exact congrArg (I.joinAll c) (List.map_congr_left h)

/-- **Flattening keeps the meaning**, unless it merges conjunctions and a bound is one. -/
theorem meaning_eq (hf : Merges merged f) (I : Interpretation α) (h : e.Grammatical)
    (hseparate : merged .and = true → ∀ r : RangeTest, r.operands ∈ rangeOperands e → r.Separate) :
    I.meaning (f e) = I.meaning e := by
  -- on the grammar; the range tests of an operand are among those of the whole
  induction h with
  | name text => rw [hf.name]
  | literal kind value => rw [hf.literal]
  | @chain c es hlength h ih =>
    apply hf.meaning_chain I c h
    exact fun e he => ih e he fun hm r hr => hseparate hm r (mem_rangeOperands_node he hr)
  | not _ ih =>
    apply hf.meaning_node I (ne_connective _ (by decide)) (by decide)
    simpa using ih fun hm r hr => hseparate hm r (mem_rangeOperands_node (by simp) hr)
  | @compared op left right ho _ _ ihl ihr =>
    have hb : op ≠ .between := by
      rintro rfl
      simp [Operator.comparisonKeywords] at ho
    apply hf.meaning_node I (ne_connective _ (Nat.le_of_succ_le (four_le_of_comparison ho))) hb
    have hl := ihl fun hm r hr => hseparate hm r (mem_rangeOperands_node (by simp) hr)
    have hr := ihr fun hm r hr => hseparate hm r (mem_rangeOperands_node (by simp) hr)
    simp [hl, hr]
  | @between value low high _ _ _ ihv ihl ihh =>
    let r : RangeTest := ⟨value, low, high⟩
    have hself : r.operands ∈ rangeOperands (.node .between r.operands) := by
      rw [rangeOperands_between]
      exact List.mem_cons_self
    -- the range test itself is one of those whose bounds are separate
    have hbounds := hf.bounds_of_separate fun hm => hseparate hm r hself
    have hrange : f (.node .between r.operands) = .node .between (r.map f).operands := by
      rw [hf.node _ _ (ne_connective _ (by decide))]
      exact congrArg (fun pair => Expr.node .between [f value, pair]) hbounds
    have hpair : ∀ {xs}, xs ∈ rangeOperands (.binary .and low high) →
        xs ∈ rangeOperands (.node .between r.operands) :=
      fun hxs => mem_rangeOperands_node (by simp [RangeTest.operands, r]) hxs
    have hv := ihv fun hm r' hr => hseparate hm r' (mem_rangeOperands_node (by simp) hr)
    have hl := ihl fun hm r' hr => hseparate hm r' (hpair (mem_rangeOperands_node (by simp) hr))
    have hh := ihh fun hm r' hr => hseparate hm r' (hpair (mem_rangeOperands_node (by simp) hr))
    calc I.meaning (f (.node .between r.operands))
        = I.meaning (.node .between (r.map f).operands) := by rw [hrange]
      _ = I.between (I.meaning (f value)) (I.meaning (f low)) (I.meaning (f high)) :=
          I.meaning_rangeTest (r.map f)
      _ = I.between (I.meaning value) (I.meaning low) (I.meaning high) := by rw [hv, hl, hh]
      _ = I.meaning (.node .between r.operands) := (I.meaning_rangeTest r).symm
  | escape _ _ _ ihe ihx =>
    apply hf.meaning_node I (ne_connective _ (by decide)) (by decide)
    have he := ihe fun hm r hr => hseparate hm r (mem_rangeOperands_node (by simp) hr)
    have hx := ihx fun hm r hr => hseparate hm r (mem_rangeOperands_node (by simp) hr)
    simp [he, hx]

end Merges

/-! ## §5 What is lost with a pair of bounds -/

/-- True of the expressions whose range tests all have a value and two bounds. -/
def Interpretation.paired : Interpretation Bool where
  name _ := true
  literal _ _ := true
  join _ x y := x && y
  join_assoc _ := Bool.and_assoc
  between value low high := value && low && high
  apply op xs := op ≠ .between && xs.all id

theorem joinAll_paired (c : Connective) (xs : List Bool) :
    Interpretation.paired.joinAll c xs = xs.all id := by
  -- joining is `&&` here, from the first operand on
  have hfold : ∀ (xs : List Bool) (x : Bool),
      xs.foldl (fun x y => x && y) x = (x && xs.all id) := by
    intro xs
    induction xs with
    | nil => simp
    | cons y xs ih =>
      intro x
      rw [List.foldl_cons, ih, List.all_cons, id, Bool.and_assoc]
  cases xs with
  | nil => cases c <;> rfl
  | cons x xs => exact hfold xs x

theorem meaning_paired_iff (e : Expr) : Interpretation.paired.meaning e = true ↔
    ∀ es ∈ rangeOperands e, ∃ r : RangeTest, r.operands = es := by
  induction e using operandsInduction with
  | name text => simp [Interpretation.meaning, Interpretation.paired, rangeOperands]
  | literal kind value => simp [Interpretation.meaning, Interpretation.paired, rangeOperands]
  | node op es ih =>
    have hall : (es.map Interpretation.paired.meaning).all id = true ↔
        ∀ xs ∈ es.flatMap rangeOperands, ∃ r : RangeTest, r.operands = xs := by
      simp only [List.all_map, List.all_eq_true, Function.comp, id, List.mem_flatMap]
      constructor
      · rintro h xs ⟨e, he, hxs⟩
        exact (ih e he).1 (h e he) xs hxs
      · exact fun h e he => (ih e he).2 fun xs hxs => h xs ⟨e, he, hxs⟩
    -- a connective and a free operator ask their operands only, a range test its own form too
    by_cases hc : ∃ c : Connective, op = c.operator
    · obtain ⟨c, rfl⟩ := hc
      rw [Interpretation.meaning_chain, joinAll_paired, hall,
        rangeOperands_node (Connective.operator_ne_between c)]
    by_cases hb : op = .between
    · subst hb
      rw [rangeOperands_between, List.forall_mem_cons]
      by_cases hr : ∃ r : RangeTest, r.operands = es
      · obtain ⟨r, rfl⟩ := hr
        have hpair := Interpretation.paired.meaning_chain .and [r.low, r.high]
        have heq : Interpretation.paired.meaning (.node .between r.operands) =
            (r.operands.map Interpretation.paired.meaning).all id := by
          have hbetween : ∀ x y z, Interpretation.paired.between x y z = (x && y && z) :=
            fun _ _ _ => rfl
          simp only [Connective.operator, joinAll_paired] at hpair
          rw [Interpretation.meaning_rangeTest, hbetween]
          simp [RangeTest.operands, binary, hpair, Bool.and_assoc]
        rw [heq, hall]
        exact ⟨fun h => ⟨⟨r, rfl⟩, h⟩, And.right⟩
      · -- without two bounds it is read as a free operator, and these are told apart from the others
        have hfalse : Interpretation.paired.meaning (.node .between es) = false := by
          rw [Interpretation.meaning]
          · rfl
          · exact fun h => by cases h
          · exact fun h => by cases h
          · rintro value low high - rfl
            exact hr ⟨⟨value, low, high⟩, rfl⟩
        simp [hfalse, hr]
    · rw [Interpretation.meaning_node _ (fun c hop => hc ⟨c, hop⟩) hb, rangeOperands_node hb, ← hall]
      simp [Interpretation.paired, hb]

/-- **Flattening keeps the meaning exactly if** it does not merge conjunctions, or no bound is one. -/
theorem Merges.meaning_eq_iff {merged : Connective → Bool} {f : Expr → Expr} {e : Expr}
    (hf : Merges merged f) (h : e.Grammatical) :
    (∀ (α : Type) (I : Interpretation α), I.meaning (f e) = I.meaning e) ↔
      (merged .and = true → ∀ r : RangeTest, r.operands ∈ rangeOperands e → r.Separate) := by
  constructor
  · intro hkeeps hm r hr
    -- a range test with more than two bounds tells the flattened expression apart
    have htrue : Interpretation.paired.meaning (f e) = true := by
      rw [hkeeps]
      refine (meaning_paired_iff e).2 fun es hes => ?_
      obtain ⟨r, hr, _⟩ := h.exists_rangeTest hes
      exact ⟨r, hr⟩
    obtain ⟨r', hr', hl, hh⟩ := h.exists_rangeTest hr
    obtain rfl := RangeTest.operands_injective hr'
    have hmem : r'.operands.map f ∈ rangeOperands (f e) := by
      rw [hf.rangeOperands_eq]
      exact List.mem_map_of_mem hr
    obtain ⟨s, hs⟩ := (meaning_paired_iff (f e)).1 htrue _ hmem
    obtain ⟨hbounds, -⟩ := List.cons.inj (List.cons.inj hs).2
    exact hf.separate_of_bounds hl hh hbounds.symm hm
  · exact fun hseparate α I => hf.meaning_eq I h hseparate

/-! ## §6 What is read -/

theorem grammatical_of_parse {text : List Char} {e : Expr} (h : parse text = .ok e) :
    e.Grammatical := by
  unfold parse at h
  split at h
  next => simp at h
  next tokens _ => exact grammatical_of_derives ((ofTokens_sound tokens).1 e h).1

/-- All range tests of a grammatical expression, in their order. -/
theorem Grammatical.exists_rangeTests {e : Expr} (h : e.Grammatical) :
    ∃ rs : List RangeTest, rangeOperands e = rs.map RangeTest.operands ∧
      ∀ r ∈ rs, r.low.Grammatical ∧ r.high.Grammatical := by
  have hall : ∀ es ∈ rangeOperands e, ∃ r : RangeTest, r.operands = es ∧
      r.low.Grammatical ∧ r.high.Grammatical := fun es hes => h.exists_rangeTest hes
  generalize rangeOperands e = all at hall
  induction all with
  | nil => exact ⟨[], rfl, by simp⟩
  | cons es all ih =>
    obtain ⟨⟨r, rfl, hr⟩, hrest⟩ := List.forall_mem_cons.1 hall
    obtain ⟨rs, rfl, hrs⟩ := ih hrest
    exact ⟨r :: rs, rfl, List.forall_mem_cons.2 ⟨hr, hrs⟩⟩

/-- **Range tests in flattened expressions.**  Of an expression that was read, every flattening keeps the range
tests in their places, each with its operands flattened.  Merging disjunctions leaves each of them exactly its
two bounds, and the expression its meaning.  Merging conjunctions does so exactly if no bound is a conjunction
itself. -/
theorem rangeOperands_flatten_of_parse {text : List Char} {e : Expr} (h : parse text = .ok e) :
    ∃ rs : List RangeTest, e.rangeOperands = rs.map RangeTest.operands ∧
      (∀ f ∈ [flatten .and, flatten .or, flattenChains],
        (f e).rangeOperands = rs.map fun r => r.operands.map f) ∧
      (flatten .or e).rangeOperands = rs.map (fun r => (r.map (flatten .or)).operands) ∧
      (∀ (α : Type) (I : Interpretation α), I.meaning (flatten .or e) = I.meaning e) ∧
      ∀ f ∈ [flatten .and, flattenChains],
        ((f e).rangeOperands = rs.map (fun r => (r.map f).operands) ↔ ∀ r ∈ rs, r.Separate) ∧
        ((∀ (α : Type) (I : Interpretation α), I.meaning (f e) = I.meaning e) ↔
          ∀ r ∈ rs, r.Separate) := by
  have hg := grammatical_of_parse h
  obtain ⟨rs, hrs, hbounds⟩ := hg.exists_rangeTests
  -- each statement once, for all that merges; the three flattenings are cases of it
  have hplaces : ∀ {merged f}, Merges merged f →
      (f e).rangeOperands = rs.map fun r => r.operands.map f := by
    intro merged f hf
    rw [hf.rangeOperands_eq, hrs, List.map_map]
    rfl
  have hoperands : ∀ {merged f}, Merges merged f →
      ((f e).rangeOperands = rs.map (fun r => (r.map f).operands) ↔
        (merged .and = true → ∀ r ∈ rs, r.Separate)) := by
    intro merged f hf
    rw [hplaces hf, List.map_inj_left]
    constructor
    · exact fun hall hm r hr => (hf.map_operands_iff (hbounds r hr).1 (hbounds r hr).2).1 (hall r hr) hm
    · exact fun hall r hr =>
        (hf.map_operands_iff (hbounds r hr).1 (hbounds r hr).2).2 fun hm => hall hm r hr
  have hmeaning : ∀ {merged f}, Merges merged f →
      ((∀ (α : Type) (I : Interpretation α), I.meaning (f e) = I.meaning e) ↔
        (merged .and = true → ∀ r ∈ rs, r.Separate)) := by
    intro merged f hf
    rw [hf.meaning_eq_iff hg, hrs]
    constructor
    · exact fun hall hm r hr => hall hm r (List.mem_map_of_mem hr)
    · intro hall hm r hr
      obtain ⟨r', hr', heq⟩ := List.mem_map.1 hr
      obtain rfl := RangeTest.operands_injective heq
      exact hall hm r' hr'
  have hand : Merges _ (flatten .and) := merges_flatten .and
  have hor : Merges _ (flatten .or) := merges_flatten .or
  have hall := merges_flattenChains
  refine ⟨rs, hrs, ?_, (hoperands hor).2 (by simp), (hmeaning hor).2 (by simp), ?_⟩
  · simp only [List.forall_mem_cons]
    exact ⟨hplaces hand, hplaces hor, hplaces hall, by simp⟩
  · simp only [List.forall_mem_cons]
    exact ⟨⟨by simpa using hoperands hand, by simpa using hmeaning hand⟩,
      ⟨by simpa using hoperands hall, by simpa using hmeaning hall⟩, by simp⟩

/-- A disjunction as one bound, a range test as the other, and a conjunction around them. -/
theorem rangeOperands_flatten_of_parse_nested :
    let text := "a BETWEEN (b OR c) AND (d BETWEEN 1 AND 2) AND e AND f".toList
    let inner : RangeTest := ⟨.name "d", .literal .number "1", .literal .number "2"⟩
    let outer : RangeTest :=
      ⟨.name "a", .binary .or (.name "b") (.name "c"), .node .between inner.operands⟩
    let e : Expr := .binary .and (.binary .and (.node .between outer.operands) (.name "e")) (.name "f")
    parse text = .ok e ∧
    ∃ rs : List RangeTest, e.rangeOperands = rs.map RangeTest.operands ∧
      (∀ f ∈ [flatten .and, flatten .or, flattenChains],
        (f e).rangeOperands = rs.map fun r => r.operands.map f) ∧
      (flatten .or e).rangeOperands = rs.map (fun r => (r.map (flatten .or)).operands) ∧
      (∀ (α : Type) (I : Interpretation α), I.meaning (flatten .or e) = I.meaning e) ∧
      ∀ f ∈ [flatten .and, flattenChains],
        ((f e).rangeOperands = rs.map (fun r => (r.map f).operands) ↔ ∀ r ∈ rs, r.Separate) ∧
        ((∀ (α : Type) (I : Interpretation α), I.meaning (f e) = I.meaning e) ↔
          ∀ r ∈ rs, r.Separate) := by
  intro text inner outer e
  have hread : parse text = .ok e := by decide +kernel
  exact ⟨hread, rangeOperands_flatten_of_parse hread⟩

/-- A bound that is a conjunction is merged with the pair: what is left is a range test with three bounds. -/
theorem rangeOperands_flatten_of_conjunction :
    let text := "x BETWEEN (a AND b) AND c".toList
    let r : RangeTest := ⟨.name "x", .binary .and (.name "a") (.name "b"), .name "c"⟩
    parse text = .ok (.node .between r.operands) ∧
      ∀ f ∈ [flatten .and, flattenChains],
        f (.node .between r.operands) =
          .node .between [.name "x", .node .and [.name "a", .name "b", .name "c"]] ∧
        ¬ ∃ r' : RangeTest, (f (.node .between r.operands)).rangeOperands = [r'.operands] := by
  intro text r
  have hread : parse text = .ok (.node .between r.operands) := by decide +kernel
  have hflat : ∀ f ∈ [flatten .and, flattenChains], f (.node .between r.operands) =
      .node .between [.name "x", .node .and [.name "a", .name "b", .name "c"]] := by
    simp only [List.forall_mem_cons]
    exact ⟨rfl, rfl, by simp⟩
  refine ⟨hread, fun f hf => ⟨hflat f hf, ?_⟩⟩
  rintro ⟨r', hr'⟩
  rw [hflat f hf] at hr'
  simp [rangeOperands, rangeOperandsOfAll, RangeTest.operands, binary] at hr'

end Expr
end CatalogFilter
