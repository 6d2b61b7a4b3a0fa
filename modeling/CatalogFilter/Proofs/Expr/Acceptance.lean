import CatalogFilter.Proofs.Expr.Completeness

/-!
# Which rows of tokens are expressions

Both directions put together: a row of tokens is read exactly if it is derived from the grammar and opens
no more parentheses at a time than may be.  What one call does is said of every cursor from which it may
start.

**Main statements**: `Expr.parseAt_sound` and `Expr.ofTokens_accepts_grammar`.
-/

namespace CatalogFilter

/-! ## §1 Rows of tokens -/

/-- Every derivation has tokens. -/
theorem Derives.ne_nil {level : Level} {ts : List Token} {e : Expr} (h : Derives level ts e) :
    ts ≠ [] := by
  induction h with
  | name _ | literal _ | group _ _ _ _ | between _ _ _ _ _ _ _ _ | escaped _ _ _ _ _ | negated _ _ _
  | joined _ _ _ _ _ => simp
  | compared _ _ _ ih _ => simp [ih]
  | operand _ ih | test _ ih | plain _ ih | first _ ih => exact ih

/-- Parts that close what they open do not add up. -/
theorem nesting_flatten_le {parts : List (List Token)} {k : Nat}
    (h : ∀ p ∈ parts, Balanced Token.bracket (nesting p) p ∧ nesting p ≤ k) :
    nesting parts.flatten ≤ k := by
  induction parts with
  | nil => exact Nat.zero_le k
  | cons p parts ih =>
    obtain ⟨hp, hle⟩ := h p (by simp)
    have hrest := ih fun q hq => h q (by simp [hq])
    -- a part that is balanced leaves the count as it was, so the others start from none
    rw [List.flatten_cons, nesting_append hp]
    omega

namespace Expr

/-! ## §2 Reading at a cursor -/

section AtCursor

open CatalogFilter.Parser

theorem parseAt_nil (c : Cursor) : parseAt [] c = (.error .empty, c) := rfl

theorem parseAt_cons (token : Token) (tokens : List Token) (c : Cursor) :
    parseAt (token :: tokens) c =
      match whole c with
      | (.ok e, c) => (.ok e, c)
      | (.error fault, c) => (.error (.parse fault), c) := rfl

/-- An expression is all that is left at the cursor, every call moves the cursor on, and a fault for depth
means that too many parentheses are open at a time in what is left. -/
theorem parseAt_sound (tokens : List Token) (c : Cursor) :
    (∀ e, (parseAt tokens c).1 = .ok e →
      Took c c.rest (parseAt tokens c).2 ∧ Derives (.chain .or) c.rest e) ∧
    Advanced c (parseAt tokens c).2 ∧
    ((parseAt tokens c).1 = .error (.parse .tooDeep) →
      maxDepth < nestingFrom Token.bracket c.depth c.rest) := by
  cases tokens with
  | nil => simp [parseAt_nil, Advanced.refl]
  | cons token tokens =>
    rw [parseAt_cons]
    -- the outcome at the cursor is all that a call depends on
    have hsound := sound_whole c
    generalize whole c = outcome at hsound ⊢
    obtain ⟨result, c'⟩ := outcome
    cases result with
    | error fault =>
      obtain ⟨hadvanced, hdeep⟩ := hsound
      exact ⟨by simp, hadvanced, fun h => hdeep (by simpa using h)⟩
    | ok x =>
      obtain ⟨ts, htook, hderives, rfl⟩ := hsound
      refine ⟨fun e h => ?_, htook.advanced, by simp⟩
      obtain rfl : x = e := by simpa using h
      exact ⟨htook, hderives⟩

end AtCursor

theorem ofTokens_of_derives {tokens : List Token} {e : Expr} (h : Derives (.chain .or) tokens e)
    (hdepth : nesting tokens ≤ maxDepth) : ofTokens tokens = .ok e := by
  have hread := Parser.expression_of_derives h hdepth 0
  -- the expression takes all tokens, so nothing is left that would be a fault
  have hwhole : Parser.whole (.start tokens) = (.ok e, ⟨[], 0 + tokens.length, 0⟩) := by
    simp [Parser.whole, Cursor.start, hread, Parser.andThen]
  simp [ofTokens, parseAt, h.ne_nil, hwhole]

/-- What the reader of whole rows answers, from what the reader at a cursor does. -/
theorem ofTokens_sound (tokens : List Token) :
    (∀ e, ofTokens tokens = .ok e → Derives (.chain .or) tokens e ∧ nesting tokens ≤ maxDepth) ∧
    (ofTokens tokens = .error (.parse .tooDeep) → maxDepth < nesting tokens) := by
  obtain ⟨htook, -, hdeep⟩ := parseAt_sound tokens (.start tokens)
  refine ⟨fun e h => ?_, hdeep⟩
  obtain ⟨htook, hderives⟩ := htook e h
  have hshallow : 0 + nesting tokens ≤ max 0 maxDepth := htook.shallow
  exact ⟨hderives, by omega⟩

/-! ## §3 The language that is read -/

/-- **The reader accepts exactly its grammar.**  Tokens are read with a tree if and only if they are
derived from the grammar with this tree and open no more parentheses at a time than may be.  They have at
most one tree, even those that open more.  A fault for depth says that too many parentheses are open at a
time, so no number of groups one after the other makes one. -/
theorem ofTokens_accepts_grammar (tokens : List Token) :
    (∀ e, ofTokens tokens = .ok e ↔ Derives (.chain .or) tokens e ∧ nesting tokens ≤ maxDepth) ∧
    (∀ e e', Derives (.chain .or) tokens e → Derives (.chain .or) tokens e' → e = e') ∧
    (ofTokens tokens = .error (.parse .tooDeep) → maxDepth < nesting tokens) ∧
    (∀ parts : List (List Token), tokens = parts.flatten →
      (∀ p ∈ parts, Balanced Token.bracket (nesting p) p ∧ nesting p ≤ maxDepth) →
      ofTokens tokens ≠ .error (.parse .tooDeep)) := by
  obtain ⟨hsound, hdeep⟩ := ofTokens_sound tokens
  refine ⟨fun e => ⟨hsound e, fun ⟨h, hdepth⟩ => ofTokens_of_derives h hdepth⟩,
    fun e e' h h' => h.unique h', hdeep, ?_⟩
  -- the depth of the parts bounds that of the row
  intro parts htokens hparts hfault
  have hle := nesting_flatten_le hparts
  have hlt := hdeep hfault
  rw [htokens] at hlt
  omega

end Expr
end CatalogFilter
