import CatalogFilter.Proofs.Expr.Acceptance

/-!
# Reading on

The reader of expressions may be called again and again on one row of tokens, each time at the cursor at
which the call before has stopped.  The cursor stays in the row and never goes back.  An expression ends the
row and closes what it opened; a fault may stop anywhere and leave parentheses open.  After an expression
nothing is left, so every later call fails at once.

**Main definitions**: `Cursor.StandsIn`, `Expr.cursorAfter` and `Expr.answerAfter`.  **Main statement**:
`Expr.answers_sound`.
-/

namespace CatalogFilter

/-! ## §1 Places in a row -/

/-- What is left at a cursor is what stands behind its position in a row of tokens. -/
structure Cursor.StandsIn (c : Cursor) (tokens : List Token) : Prop where
  position : c.position ≤ tokens.length
  rest : c.rest = tokens.drop c.position

namespace Parser

variable {c c' : Cursor} {tokens : List Token}

theorem Advanced.position_le (h : Advanced c c') : c.position ≤ c'.position := by
  obtain ⟨ts, -, hposition⟩ := h.passed
  omega

/-- A cursor that moves on stays in its row. -/
theorem Advanced.standsIn (h : Advanced c c') (hc : c.StandsIn tokens) : c'.StandsIn tokens := by
  obtain ⟨ts, hrest, hposition⟩ := h.passed
  have hbehind : tokens.drop c.position = ts ++ c'.rest := by rw [← hc.rest, hrest]
  constructor
  · -- what has been passed is a part of what was left
    have hlength := congrArg List.length hbehind
    rw [List.length_drop, List.length_append] at hlength
    have hle := hc.position
    omega
  · rw [hposition, ← List.drop_drop, hbehind, List.drop_left]

end Parser

namespace Expr

open CatalogFilter.Parser

variable {tokens : List Token} {c : Cursor}

/-! ## §2 One call -/

/-- Where nothing is left there is no expression, and the cursor stays. -/
theorem parseAt_of_rest_eq_nil (hne : tokens ≠ []) (h : c.rest = []) :
    parseAt tokens c = (.error (.parse (.expectedOperand none)), c) := by
  -- every level asks the one below first, and the lowest finds no operand
  have hoperand : ∀ inside, operand inside c = (.error (.expectedOperand none), c) := by
    intro inside
    simp [operand, h, Cursor.found]
  have hkeyword : c.keyword? = none := by simp [Cursor.keyword?, h]
  have hread : ∀ budget, expression budget c = (.error (.expectedOperand none), c) := by
    intro budget
    simp [expression_eq, disjunction, conjunction, negation, comparison, hkeyword, hoperand, andThen]
  obtain ⟨token, more, rfl⟩ := List.exists_cons_of_ne_nil hne
  simp [parseAt_cons, whole, hread, andThen]

/-! ## §3 Calls one after the other -/

/-- Where the reader of a row stands after so many calls. -/
def cursorAfter (tokens : List Token) : Nat → Cursor
  | 0 => .start tokens
  | calls + 1 => (parseAt tokens (cursorAfter tokens calls)).2

/-- What the reader of a row answers after so many other calls. -/
def answerAfter (tokens : List Token) (calls : Nat) : Except FilterError Expr :=
  (parseAt tokens (cursorAfter tokens calls)).1

theorem advanced_cursorAfter (tokens : List Token) (calls : Nat) :
    Advanced (cursorAfter tokens calls) (cursorAfter tokens (calls + 1)) :=
  (parseAt_sound tokens _).2.1

theorem standsIn_cursorAfter (tokens : List Token) (calls : Nat) :
    (cursorAfter tokens calls).StandsIn tokens := by
  induction calls with
  | zero => exact ⟨Nat.zero_le _, rfl⟩
  | succ calls ih => exact (advanced_cursorAfter tokens calls).standsIn ih

variable {calls later : Nat} {e : Expr}

/-- An expression takes all that is left. -/
theorem took_of_answer (h : answerAfter tokens calls = .ok e) :
    Took (cursorAfter tokens calls) (cursorAfter tokens calls).rest (cursorAfter tokens (calls + 1)) :=
  ((parseAt_sound tokens _).1 e h).1

theorem rest_of_answer (h : answerAfter tokens calls = .ok e) :
    (cursorAfter tokens (calls + 1)).rest = [] :=
  List.self_eq_append_right.1 (took_of_answer h).rest

/-- An expression ends the row, and every parenthesis in it is closed. -/
theorem cursorAfter_of_answer (h : answerAfter tokens calls = .ok e) :
    (cursorAfter tokens (calls + 1)).position = tokens.length ∧
      (cursorAfter tokens (calls + 1)).depth = (cursorAfter tokens calls).depth := by
  have hstands := standsIn_cursorAfter tokens (calls + 1)
  have hend := hstands.rest
  -- nothing is left behind the position, so it is the end of the row
  rw [rest_of_answer h, eq_comm, List.drop_eq_nil_iff] at hend
  exact ⟨Nat.le_antisymm hstands.position hend, (took_of_answer h).depth⟩

theorem ne_nil_of_answer (h : answerAfter tokens calls = .ok e) : tokens ≠ [] := by
  rintro rfl
  simp [answerAfter, parseAt_nil] at h

/-- After an expression nothing is left for any later call. -/
theorem rest_of_answer_of_lt (h : answerAfter tokens calls = .ok e) (hlt : calls < later) :
    (cursorAfter tokens later).rest = [] := by
  -- right after the expression, and then call by call: a call that fails leaves the cursor
  induction hlt with
  | refl => exact rest_of_answer h
  | step _ ih =>
    rw [cursorAfter, parseAt_of_rest_eq_nil (ne_nil_of_answer h) ih]
    exact ih

/-- After an expression every call fails. -/
theorem parseAt_after_answer (h : answerAfter tokens calls = .ok e) (hlt : calls < later) :
    parseAt tokens (cursorAfter tokens later) =
      (.error (.parse (.expectedOperand none)), cursorAfter tokens later) :=
  parseAt_of_rest_eq_nil (ne_nil_of_answer h) (rest_of_answer_of_lt h hlt)

/-- No two calls answer an expression. -/
theorem eq_of_answers {other : Expr} (h : answerAfter tokens calls = .ok e)
    (h' : answerAfter tokens later = .ok other) : calls = later := by
  -- of two answers the later one would be an answer after an expression
  rcases Nat.lt_trichotomy calls later with hlt | heq | hlt
  · simp [answerAfter, parseAt_after_answer h hlt] at h'
  · exact heq
  · simp [answerAfter, parseAt_after_answer h' hlt] at h

/-- **Reading on is sound.**  However often the reader of a row of tokens is called, its cursor stands in the
row, and no call moves it back.  A call that answers an expression stops at the end of the row with as many
parentheses open as it has started with; a call that fails has no fewer open.  At most one call answers an
expression, and every call after it fails for want of an operand and leaves the cursor as it is. -/
theorem answers_sound (tokens : List Token) :
    (∀ calls,
      let before := cursorAfter tokens calls
      let after := cursorAfter tokens (calls + 1)
      after.StandsIn tokens ∧ before.position ≤ after.position ∧
      (∀ e, answerAfter tokens calls = .ok e →
        after.position = tokens.length ∧ after.depth = before.depth) ∧
      (∀ fault, answerAfter tokens calls = .error fault → before.depth ≤ after.depth)) ∧
    (∀ calls later e other, answerAfter tokens calls = .ok e → answerAfter tokens later = .ok other →
      calls = later) ∧
    (∀ calls later e, answerAfter tokens calls = .ok e → calls < later →
      parseAt tokens (cursorAfter tokens later) =
        (.error (.parse (.expectedOperand none)), cursorAfter tokens later)) := by
  refine ⟨fun calls => ?_, fun _ _ _ _ => eq_of_answers, fun _ _ _ => parseAt_after_answer⟩
  have hadvanced := advanced_cursorAfter tokens calls
  exact ⟨standsIn_cursorAfter tokens (calls + 1), hadvanced.position_le, fun _ => cursorAfter_of_answer,
    fun _ _ => hadvanced.depth⟩

/-- Of two names in a row the first call passes one and fails; the second reads the other. -/
example :
    let row : List Token := [.identifier ['x'], .identifier ['y']]
    answerAfter row 0 = .error (.parse (.trailing (some (.identifier ['y'], 2)))) ∧
      answerAfter row 1 = .ok (.name "y") ∧
      answerAfter row 2 = .error (.parse (.expectedOperand none)) := ⟨rfl, rfl, rfl⟩

end Expr
end CatalogFilter
