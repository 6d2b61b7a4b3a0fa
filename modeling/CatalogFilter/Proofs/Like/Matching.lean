import Mathlib.Data.List.Forall2
import Mathlib.Data.List.Infix
import CatalogFilter.Proofs.Like.Patterns
import CatalogFilter.Text.Case

/-!
# Texts that LIKE accepts

In a LIKE text `%` stands for any run of characters, `_` for any one character, the character after the
escape character for itself, and every other character for itself in either case.  A pattern knows wildcards
only: its LIKE text accepts what the pattern asks for, but an underscore of the pattern is any character.

**Main definitions**: `likeAccepts` and `Pattern.literalText`.
**Main statements**: `Pattern.likeSigns?_likeText`, `Pattern.likeAccepts_anywhere_iff` and
`Pattern.contains_of_likeAccepts_iff`.
-/

namespace CatalogFilter

open Text

/-! ## §1 LIKE -/

/-- One sign of a LIKE text. -/
inductive LikeSign where
  /-- `%`: any characters, and any number of them. -/
  | run
  /-- `_`: any one character. -/
  | any
  /-- A character, in either case. -/
  | letter (c : Char)
  deriving DecidableEq, Repr

namespace LikeSign

/-- The sign of a character that is no run. -/
def single (c : Char) : LikeSign := if c = '_' then any else letter c

/-- The sign of a character that does not stand after an escape character. -/
def ofChar (c : Char) : LikeSign := if c = '%' then run else single c

/-- Do signs accept a text? -/
def accept : List LikeSign → List Char → Bool
  | [], text => text.isEmpty
  | run :: signs, text => text.tails.any fun rest => accept signs rest
  | any :: signs, _ :: text => accept signs text
  | letter c :: signs, t :: text => c.toUpper == t.toUpper && accept signs text
  | _ :: _, [] => false

theorem accept_run_iff {signs : List LikeSign} {text : List Char} :
    accept (run :: signs) text = true ↔ ∃ rest, rest <:+ text ∧ accept signs rest = true := by
  simp [accept, List.any_eq_true]

end LikeSign

/-- The signs of a LIKE text.  There are none if its last character is an escape character. -/
def likeSigns? (escape : Option Char) : List Char → Option (List LikeSign)
  | [] => some []
  | [c] => if escape = some c then none else some [.ofChar c]
  | c :: d :: cs =>
    if escape = some c then (likeSigns? escape cs).map (.letter d :: ·)
    else (likeSigns? escape (d :: cs)).map (.ofChar c :: ·)

/-- Does a LIKE text accept a text? -/
def likeAccepts (escape : Option Char) (like text : List Char) : Bool :=
  (likeSigns? escape like).any fun signs => LikeSign.accept signs text

theorem likeSigns?_cons {escape : Option Char} {c : Char} (h : escape ≠ some c) (cs : List Char) :
    likeSigns? escape (c :: cs) = (likeSigns? escape cs).map (.ofChar c :: ·) := by
  cases cs <;> simp [likeSigns?, h]

namespace Pattern

/-! ## §2 The LIKE text of a pattern -/

def partSign : PatternPart → LikeSign
  | .wildcard => .run
  | .char c => .single c

/-- The escape character that the LIKE text of a pattern needs, if it needs one. -/
def escapeChar (p : Pattern) : Option Char := if p.needsEscape then some '\\' else none

theorem likeSigns?_partText_true (p : Pattern) :
    likeSigns? (some '\\') (p.flatMap (partText true)) = some (p.map partSign) := by
  induction p with
  | nil => rfl
  | cons part p ih =>
    cases part with
    | wildcard => simp [partText, likeSigns?_cons, ih, partSign, LikeSign.ofChar]
    | char c =>
      -- an escaped character is itself: neither a backslash nor a percent sign is an underscore
      by_cases hescaped : c = '\\' ∨ c = '%'
      · have hletter : LikeSign.single c = .letter c := by
          rcases hescaped with rfl | rfl <;> rfl
        simp [partText, hescaped, likeSigns?, ih, partSign, hletter]
      · obtain ⟨hback, hpercent⟩ := not_or.1 hescaped
        simp [partText, hback, hpercent, likeSigns?_cons, Ne.symm hback, ih, partSign, LikeSign.ofChar]

theorem likeSigns?_partText_false {p : Pattern} (h : PatternPart.char '%' ∉ p) :
    likeSigns? none (p.flatMap (partText false)) = some (p.map partSign) := by
  induction p with
  | nil => rfl
  | cons part p ih =>
    have hrest := ih fun hm => h (List.mem_cons_of_mem part hm)
    cases part with
    | wildcard => simp [partText, likeSigns?_cons, hrest, partSign, LikeSign.ofChar]
    | char c =>
      -- without an escape character a percent sign would be a run
      have hc : c ≠ '%' := by
        rintro rfl
        exact h List.mem_cons_self
      simp [partText, likeSigns?_cons, hrest, partSign, LikeSign.ofChar, hc]

/-- **The LIKE text of a pattern, with the escape character that it needs, has the signs of its parts.** -/
theorem likeSigns?_likeText (p : Pattern) :
    likeSigns? p.escapeChar p.likeText = some (p.map partSign) := by
  unfold likeText escapeChar
  cases h : p.needsEscape with
  | true => exact likeSigns?_partText_true p
  | false => exact likeSigns?_partText_false (by simpa [needsEscape] using h)

/-! ## §3 Characters between wildcards -/

/-- Does a character of a pattern accept one of a text?  An underscore accepts any. -/
def Covers (c t : Char) : Prop := c = '_' ∨ c.toUpper = t.toUpper

instance (c t : Char) : Decidable (Covers c t) := inferInstanceAs (Decidable (_ ∨ _))

theorem accept_single_cons (c t : Char) (signs : List LikeSign) (text : List Char) :
    LikeSign.accept (.single c :: signs) (t :: text) =
      (decide (Covers c t) && LikeSign.accept signs text) := by
  unfold LikeSign.single
  split
  next h => simp [LikeSign.accept, Covers, h]
  next h => simp [LikeSign.accept, Covers, h, Bool.beq_eq_decide_eq]

theorem accept_single_nil (c : Char) (signs : List LikeSign) :
    LikeSign.accept (.single c :: signs) [] = false := by
  unfold LikeSign.single
  split <;> rfl

/-- Characters accept as many characters at the front of a text. -/
theorem accept_singles_append_iff {cs text : List Char} {signs : List LikeSign} :
    LikeSign.accept (cs.map .single ++ signs) text = true ↔
      ∃ front rest, text = front ++ rest ∧ List.Forall₂ Covers cs front ∧
        LikeSign.accept signs rest = true := by
  induction cs generalizing text with
  | nil => simp
  | cons c cs ih =>
    cases text with
    | nil => simp [accept_single_nil, List.forall₂_cons_left_iff]
    | cons t text =>
      simp only [List.map_cons, List.cons_append, accept_single_cons, Bool.and_eq_true,
        decide_eq_true_eq, ih, List.forall₂_cons_left_iff]
      constructor
      · rintro ⟨hc, front, rest, rfl, hfront, hrest⟩
        exact ⟨t :: front, rest, rfl, ⟨t, front, hc, hfront, rfl⟩, hrest⟩
      · rintro ⟨_, rest, htext, ⟨t', front, hc, hfront, rfl⟩, hrest⟩
        -- the front that is covered begins with the first character of the text
        obtain ⟨rfl, rfl⟩ := List.cons.inj htext
        exact ⟨hc, front, rest, rfl, hfront, hrest⟩

/-- **The LIKE text of characters between two wildcards** accepts the texts with a part that they cover. -/
theorem likeAccepts_anywhere_iff {p : Pattern} {cs text : List Char}
    (h : p = Pattern.anywhere (cs.map .char)) :
    likeAccepts p.escapeChar p.likeText text = true ↔
      ∃ part, part <:+: text ∧ List.Forall₂ Covers cs part := by
  have hsigns : p.map partSign = .run :: (cs.map .single ++ [.run]) := by
    simp [h, anywhere, partSign, Function.comp_def]
  -- the last wildcard takes whatever is left
  have hrun : ∀ rest, LikeSign.accept [.run] rest = true := fun rest =>
    LikeSign.accept_run_iff.2 ⟨[], List.nil_suffix, rfl⟩
  simp only [likeAccepts, likeSigns?_likeText, Option.any_some, hsigns, LikeSign.accept_run_iff,
    accept_singles_append_iff, hrun, and_true]
  constructor
  · rintro ⟨_, hsuffix, part, rest, rfl, hpart⟩
    exact ⟨part, List.infix_iff_prefix_suffix.2 ⟨_, List.prefix_append part rest, hsuffix⟩, hpart⟩
  · rintro ⟨part, hinfix, hpart⟩
    obtain ⟨_, ⟨rest, rfl⟩, hsuffix⟩ := List.infix_iff_prefix_suffix.1 hinfix
    exact ⟨_, hsuffix, part, rest, rfl, hpart⟩

/-! ## §4 Texts without wildcards -/

/-- The text that a criterion without wildcards stands for: an escaped percent sign is a percent sign. -/
def literalText : List Char → List Char
  | [] => []
  | '\\' :: '%' :: cs => '%' :: literalText cs
  | c :: cs => c :: literalText cs

/-- A criterion without wildcards is a pattern of the characters that it stands for. -/
theorem ofCriterion_eq_map_literalText {cs : List Char} (h : (ofCriterion cs).hasWildcard = false) :
    ofCriterion cs = (literalText cs).map .char := by
  -- case by case as a criterion is read; a bare percent sign would be a wildcard
  fun_induction ofCriterion cs with
  | case1 => rfl
  | case2 cs ih =>
    have hrest := ih (by simpa [hasWildcard] using h)
    simp [literalText, hrest]
  | case3 cs => simp [hasWildcard] at h
  | case4 c cs hback hpercent ih =>
    have hrest := ih (by simpa [hasWildcard] using h)
    rw [literalText.eq_3 c cs hback, hrest]
    rfl

theorem underscore_mem_literalText_iff {cs : List Char} : '_' ∈ literalText cs ↔ '_' ∈ cs := by
  fun_induction literalText cs with
  | case1 => rfl
  | case2 cs ih => simp [ih]
  | case3 c cs hback ih => simp [ih]

/-! ## §5 Underscores -/

/-- No letter becomes an underscore: that stands between the capital letters and the small ones. -/
theorem toUpper_eq_underscore_iff {c : Char} : c.toUpper = '_' ↔ c = '_' := by
  constructor
  · intro h
    unfold Char.toUpper at h
    split at h
    next hlower =>
      have hlow : 97 ≤ c.val.toNat := UInt32.le_iff_toNat_le.1 hlower.1
      have hhigh : c.val.toNat ≤ 122 := UInt32.le_iff_toNat_le.1 hlower.2
      have hcode := congrArg (fun d : Char => d.val.toNat) h
      simp only [UInt32.toNat_add] at hcode
      -- the shift from small to capital letters is negative, and wraps around
      have hshift : ('A'.val - 'a'.val).toNat = 4294967264 := by decide
      have hunder : '_'.val.toNat = 95 := rfl
      rw [hshift, hunder] at hcode
      omega
    next => exact h
  · rintro rfl
    rfl

/-- Characters cover a text that equals them in either case, and no others if none of them is an
underscore. -/
theorem forall₂_covers_of_upperCase_eq {cs part : List Char} (h : upperCase cs = upperCase part) :
    List.Forall₂ Covers cs part := by
  have hmap : List.Forall₂ (· = ·) (upperCase cs) (upperCase part) := by
    rw [List.forall₂_eq_eq_eq]
    exact h
  rw [upperCase, upperCase, List.forall₂_map_left_iff, List.forall₂_map_right_iff] at hmap
  exact hmap.imp fun _ _ => .inr

theorem upperCase_eq_of_forall₂_covers {cs part : List Char} (h : List.Forall₂ Covers cs part)
    (hunder : '_' ∉ cs) : upperCase cs = upperCase part := by
  induction h with
  | nil => rfl
  | cons hc _ ih =>
    obtain ⟨hne, hrest⟩ := not_or.1 fun hm => hunder (List.mem_cons.2 hm)
    have hupper := hc.resolve_left (Ne.symm hne)
    simpa [upperCase] using ⟨hupper, ih hrest⟩

/-- A character, or another one in the place of an underscore. -/
def replaceUnderscore (c : Char) : Char := if c = '_' then 'x' else c

/-- A text with another character for each underscore is covered, but does not contain the text that it was
made from. -/
theorem exists_covered_of_underscore {cs : List Char} (h : '_' ∈ cs) :
    ∃ text, List.Forall₂ Covers cs text ∧ ¬ upperCase cs <:+: upperCase text := by
  have hcovered : List.Forall₂ Covers cs (cs.map replaceUnderscore) := by
    rw [List.forall₂_map_right_iff, List.forall₂_same]
    intro c _
    by_cases hc : c = '_'
    · exact .inl hc
    · exact .inr (by simp [replaceUnderscore, hc])
  refine ⟨cs.map replaceUnderscore, hcovered, fun hinfix => ?_⟩
  -- a part as long as the whole is the whole, and the underscore would still be there
  have heq : upperCase cs = upperCase (cs.map replaceUnderscore) := hinfix.eq_of_length (by simp [upperCase])
  have hmem : '_' ∈ upperCase (cs.map replaceUnderscore) := by
    rw [← heq]
    exact List.mem_map.2 ⟨'_', h, rfl⟩
  obtain ⟨d, hd, hupper⟩ := List.mem_map.1 hmem
  obtain ⟨c, _, rfl⟩ := List.mem_map.1 hd
  have hunder := toUpper_eq_underscore_iff.1 hupper
  by_cases hc : c = '_' <;> simp [replaceUnderscore, hc] at hunder

/-- What contains the characters, in either case, is accepted. -/
theorem likeAccepts_of_contains {p : Pattern} {cs text : List Char} (hp : p = Pattern.anywhere (cs.map .char))
    (h : upperCase cs <:+: upperCase text) : likeAccepts p.escapeChar p.likeText text = true := by
  obtain ⟨part, hinfix, hpart⟩ := List.infix_map_iff.1 h
  exact (likeAccepts_anywhere_iff hp).2 ⟨part, hinfix, forall₂_covers_of_upperCase_eq hpart⟩

/-- **Nothing else is accepted exactly if** none of the characters is an underscore. -/
theorem contains_of_likeAccepts_iff {p : Pattern} {cs : List Char} (hp : p = Pattern.anywhere (cs.map .char)) :
    (∀ text, likeAccepts p.escapeChar p.likeText text = true → upperCase cs <:+: upperCase text) ↔
      '_' ∉ cs := by
  simp only [likeAccepts_anywhere_iff hp]
  constructor
  · intro hall hunder
    obtain ⟨text, hcovered, hnot⟩ := exists_covered_of_underscore hunder
    exact hnot (hall text ⟨text, List.infix_rfl, hcovered⟩)
  · rintro hunder text ⟨part, hinfix, hpart⟩
    rw [upperCase_eq_of_forall₂_covers hpart hunder]
    exact hinfix.map Char.toUpper

end Pattern
end CatalogFilter
