import CatalogFilter.Text.Numeral

/-!
# Dates and times

A moment is a date, a time of day, or both, the last perhaps with its distance from universal time.
**Main definition**: `moment?` answers the one form in which a moment is written again: a large `T`
between date and time, a large `Z` for universal time, at most nine places of a second without zeros at
their end, and no negative distance of zero.
-/

namespace CatalogFilter.Toml

open Text

/-- Do characters follow a picture in which `d` stands for a digit and any other character for itself? -/
def follows : List Char → List Char → Bool
  | [], [] => true
  | 'd' :: picture, c :: cs => c.isDigit && follows picture cs
  | p :: picture, c :: cs => p == c && follows picture cs
  | _, _ => false

def daysIn (year month : Nat) : Nat :=
  if month = 2 then
    if year % 4 = 0 ∧ (year % 100 ≠ 0 ∨ year % 400 = 0) then 29 else 28
  else if month ∈ [4, 6, 9, 11] then 30
  else 31

def isDate (cs : List Char) : Bool :=
  let year := digitsValue (cs.take 4)
  let month := digitsValue ((cs.drop 5).take 2)
  let day := digitsValue (cs.drop 8)
  follows "dddd-dd-dd".toList cs && 1 ≤ month && month ≤ 12 && 1 ≤ day && day ≤ daysIn year month

/-- The places of a second without zeros at their end, after a point if any are left. -/
def fraction (places : List Char) : List Char :=
  match ((places.take 9).reverse.dropWhile (· == '0')).reverse with
  | [] => []
  | places => '.' :: places

/-- A time of day, with or without a fraction of a second. -/
def time? (cs : List Char) : Option (List Char) :=
  let clock := cs.take 8
  if follows "dd:dd:dd".toList clock && digitsValue (clock.take 2) < 24 &&
      digitsValue ((clock.drop 3).take 2) < 60 && digitsValue (clock.drop 6) ≤ 60 then
    match cs.drop 8 with
    | [] => some clock
    | '.' :: d :: ds => if (d :: ds).all Char.isDigit then some (clock ++ fraction (d :: ds)) else none
    | _ => none
  else none

/-- A distance from universal time, or nothing at all. -/
def zone? : List Char → Option (List Char)
  | [] => some []
  | ['Z'] | ['z'] => some ['Z']
  | sign :: distance =>
    if (sign == '+' || sign == '-') && follows "dd:dd".toList distance &&
        digitsValue (distance.take 2) < 24 && digitsValue (distance.drop 3) < 60 then
      some ((if distance = "00:00".toList then '+' else sign) :: distance)
    else none

def moment? (cs : List Char) : Option (List Char) :=
  if isDate (cs.take 10) then
    match cs.drop 10 with
    | [] => some cs
    | delimiter :: rest =>
      if delimiter == 'T' || delimiter == 't' || delimiter == ' ' then do
        let isClock (c : Char) : Bool := c.isDigit || c == ':' || c == '.'
        let time ← time? (rest.takeWhile isClock)
        let zone ← zone? (rest.dropWhile isClock)
        pure (cs.take 10 ++ 'T' :: time ++ zone)
      else none
  else time? cs

end CatalogFilter.Toml
