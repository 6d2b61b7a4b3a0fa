import CatalogFilter.Text.Numeral

/-!
# Reading doubles

A double is read from a decimal number with an optional sign, fraction and exponent, or from the names of
the values that are not finite.
-/

namespace CatalogFilter.Decimal

open Text

/-- The exponent at the end of a number: nothing, or a letter with an integer after it. -/
def exponent? : List Char → Option Int
  | [] => some 0
  | c :: cs =>
    if c = 'e' ∨ c = 'E' then
      let digits := dropSign cs
      if digits.isEmpty || !digits.all Char.isDigit then none
      else if cs.head? = some '-' then some (-(digitsValue digits : Int))
      else some (digitsValue digits)
    else none

/-- A magnitude as the digits and the exponent of a decimal. -/
def magnitude? (cs : List Char) : Option (Nat × Int) :=
  let whole := leadingDigits cs
  let (fraction, rest) :=
    match afterDigits cs with
    | '.' :: ds => (leadingDigits ds, afterDigits ds)
    | rest => ([], rest)
  if whole.isEmpty && fraction.isEmpty then none
  else (exponent? rest).map fun e => (digitsValue (whole ++ fraction), e - fraction.length)

/-- The double nearest to `digits * 10 ^ exponent`.  Exponents beyond the range of doubles are cut to it,
so that no power is computed that is much larger than the digits. -/
def nearest (digits : Nat) (exponent : Int) : Float :=
  if digits = 0 then 0
  else if exponent < 0 then Float.ofScientific digits true (min exponent.natAbs (digits.log2 + 400))
  else Float.ofScientific digits false (min exponent.toNat 400)

def double? (cs : List Char) : Option Float :=
  let magnitude := dropSign cs
  let value :=
    match String.ofList (magnitude.map Char.toLower) with
    | "inf" | "infinity" => some (1.0 / 0.0)
    | "nan" => some (0.0 / 0.0)
    | _ => (magnitude? magnitude).map fun (digits, exponent) => nearest digits exponent
  if cs.head? = some '-' then value.map fun x => -x else value

end CatalogFilter.Decimal
