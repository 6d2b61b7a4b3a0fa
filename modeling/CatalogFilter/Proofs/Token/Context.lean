import CatalogFilter.Catalog.Basic
import CatalogFilter.Criterion.Predicate
import CatalogFilter.Proofs.Token.Names

/-!
# Pieces in their context

A filter text is put together from pieces.  Texts with a blank between them are read one after the other,
as if each stood alone: no reader of the first looks past the blank.  A quoted string and the name of a
field are read as what they were written from, and the reader stops exactly behind them: a string wherever
no further quote follows it, a field where a blank, a closing parenthesis or the end of the text follows it.

**Main statements**: `Lexer.tokens_append_blank` and `Lexer.next_quoted`.
-/

namespace CatalogFilter

open Text

namespace Lexer

/-! ## §1 Texts with a blank between them -/

/-- **Reading at a blank**: behind a text without a fault and a blank, a text is read as if it stood alone.
Its tokens follow those of the first text, and its fault is the fault of the whole. -/
theorem tokens_append_blank {front : String} {found : List Token} {blank : Char}
    (hfront : tokens front = .ok found) (hblank : isBlank blank = true) (back : String) :
    tokens (front ++ String.singleton blank ++ back) = (tokens back).map (found ++ ·) := by
  have hseparates : Separates (blank :: back.toList) := separates_cons_of_isBlank hblank back.toList
  have htext : (front ++ String.singleton blank ++ back).toList = front.toList ++ blank :: back.toList := by
    simp [String.toList_append]
  -- a blank separates, so both parts are read for themselves
  calc tokens (front ++ String.singleton blank ++ back)
      = tokenize (front.toList ++ blank :: back.toList) := by rw [tokens, htext]
    _ = (tokenize (blank :: back.toList)).map (found ++ ·) := tokenize_append hfront hseparates
    _ = (tokens back).map (found ++ ·) := by rw [tokenize_cons_of_isBlank hblank, tokens]

/-- A point at the end of a word takes no quotes from behind a blank, and a symbol takes no second character
from there; what is opened behind the blank and never closed is a fault of the whole. -/
theorem tokens_append_blank_point :
    tokens "x <Games." = .ok [.identifier ['x'], .operator .lessThan, .literal .bare "Games.".toList] ∧
    isBlank '\u00a0' = true ∧
    tokens ("x <Games." ++ String.singleton '\u00a0' ++ "\"Play Count\"=") =
      .ok [.identifier ['x'], .operator .lessThan, .literal .bare "Games.".toList,
        .identifier "Play Count".toList, .operator .equal] ∧
    tokens ("x <Games." ++ String.singleton '\u00a0' ++ "'it") = .error .stringLiteral := by
  have hfront : tokens "x <Games." =
      .ok [.identifier ['x'], .operator .lessThan, .literal .bare "Games.".toList] := by decide +kernel
  have hblank : isBlank '\u00a0' = true := by decide
  have hname : tokens "\"Play Count\"=" = .ok [.identifier "Play Count".toList, .operator .equal] := by
    decide +kernel
  have hfault : tokens "'it" = .error .stringLiteral := by decide +kernel
  refine ⟨hfront, hblank, ?_, ?_⟩
  · rw [tokens_append_blank hfront hblank, hname]
    rfl
  · rw [tokens_append_blank hfront hblank, hfault]
    rfl

/-! ## §2 Strings and fields -/

/-- What a field is read as where a token ends before what follows. -/
theorem next_render (ref : FieldRef) {rest : List Char} (h : Separates rest) :
    next (ref.render ++ rest) = (.ok (some ⟨.identifier, ref.dotted⟩), rest) := by
  -- the table, the point and the field are one text
  have hname : Token.identifier (ref.table.toList ++ '.' :: ref.field.toList) = ⟨.identifier, ref.dotted⟩ := by
    simp [Token.identifier, FieldRef.dotted, ← String.toList_inj]
  have hread : next ref.render = (.ok (some ⟨.identifier, ref.dotted⟩), []) := by
    rw [← hname]
    exact next_field ref.table.toList ref.field.toList
  exact next_append hread h

/-- **Quoting is exact in its context.**  In front of anything but a quote, a quoted string is read as the
string; and in front of a blank, a closing parenthesis or the end of the text, the name of a field is read as
its table, a point and itself, whatever characters they have.  The reader then stands behind them. -/
theorem next_quoted :
    (∀ (text : String) (rest : List Char), rest.head? ≠ some '\'' →
      next (Sql.string text.toList ++ rest) = (.ok (some ⟨.literal .string, text⟩), rest)) ∧
    ∀ (ref : FieldRef) (rest : List Char), (∀ c ∈ rest.head?, isBlank c = true ∨ c = ')') →
      next (ref.render ++ rest) = (.ok (some ⟨.identifier, ref.dotted⟩), rest) := by
  constructor
  · intro text rest h
    have hstring : Token.literal .string text.toList = ⟨.literal .string, text⟩ := by
      simp [Token.literal]
    rw [← hstring]
    exact next_string text.toList h
  · intro ref rest h
    -- a blank and a closing parenthesis end every token
    have hseparates : Separates rest := fun c hc => (h c hc).imp_right .inr
    exact next_render ref hseparates

/-- A string that begins and ends with a quote, before a letter; and a field without letters in the name of
its table, before a parenthesis. -/
theorem next_quoted_points :
    ("x)".toList.head? ≠ some '\'' ∧
      next "'''it''s'''x)".toList = (.ok (some ⟨.literal .string, "'it's'"⟩), "x)".toList)) ∧
    (∀ c ∈ ")='".toList.head?, isBlank c = true ∨ c = ')') ∧
      next "\"\"\".\".\"a.b]\")='".toList = (.ok (some ⟨.identifier, "\"..a.b]"⟩), ")='".toList) := by
  have hstring : "x)".toList.head? ≠ some '\'' := by decide
  have hfield : ∀ c ∈ ")='".toList.head?, isBlank c = true ∨ c = ')' := by
    intro c hc
    exact .inr (Option.mem_some.1 hc).symm
  exact ⟨⟨hstring, next_quoted.1 "'it's'" "x)".toList hstring⟩, hfield,
    next_quoted.2 ⟨"\".", "a.b]"⟩ ")='".toList hfield⟩

end Lexer
end CatalogFilter
