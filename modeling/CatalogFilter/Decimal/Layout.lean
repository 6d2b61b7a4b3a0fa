import CatalogFilter.Decimal.Shortest

/-!
# Writing doubles

Two written forms of a double, both with its shortest decimal:

* the **plain** form never has an exponent, and no point without need,
* the **number** form of JSON has at least one place after the point, or an exponent for magnitudes below
  10⁻⁵ and from 10¹⁶ on; what is not finite has no such form.
-/

namespace CatalogFilter.Decimal

def digitChars (d : Decimal) : List Char := (toString d.digits).toList

/-- A decimal without an exponent.  `fraction` stands after an integer. -/
def positional (fraction : List Char) (d : Decimal) : List Char :=
  let digits := digitChars d
  if 0 ≤ d.exponent then digits ++ List.replicate d.exponent.toNat '0' ++ fraction
  else
    let places := (-d.exponent).toNat
    if places < digits.length then
      digits.take (digits.length - places) ++ '.' :: digits.drop (digits.length - places)
    else '0' :: '.' :: (List.replicate (places - digits.length) '0' ++ digits)

/-- A decimal with one digit before its point and an exponent with a sign. -/
def scientific (d : Decimal) : List Char :=
  let digits := digitChars d
  let exponent := d.exponent + digits.length - 1
  let mantissa := if digits.length = 1 then digits else digits.take 1 ++ '.' :: digits.drop 1
  let sign := if exponent < 0 then '-' else '+'
  mantissa ++ 'e' :: sign :: (toString exponent.natAbs).toList

/-- The sign of a double that its bits hold. -/
def signOf (bits : UInt64) : List Char := if bits >>> 63 = 1 then ['-'] else []

def plain (bits : UInt64) : List Char :=
  if (bits >>> 52) &&& 0x7FF = 0x7FF then
    if bits &&& 0xFFFFFFFFFFFFF = 0 then signOf bits ++ "inf".toList else "NaN".toList
  else signOf bits ++ positional [] (shortest .upward (.ofBits bits))

/-- The number form of a double, given by its bits, if it is finite. -/
def jsonNumber? (bits : UInt64) : Option (List Char) :=
  if (bits >>> 52) &&& 0x7FF = 0x7FF then none
  else
    let d := shortest .toEven (.ofBits bits)
    let pointAt := d.exponent + (digitChars d).length
    let text := if d.digits = 0 ∨ (-5 < pointAt ∧ pointAt ≤ 16) then positional ['.', '0'] d else scientific d
    some (signOf bits ++ text)

end CatalogFilter.Decimal
