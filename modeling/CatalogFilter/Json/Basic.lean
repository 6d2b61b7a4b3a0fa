/-!
# JSON values

Schemas and filter sets are stored as JSON.  A value keeps all that a reader may have to know of the text
that it was read from: the members of an object in order, with any that are repeated, and numbers as
integers or as decimals.
-/

namespace CatalogFilter

/-- A JSON value. -/
inductive Json where
  | null
  | bool (value : Bool)
  /-- A number written with neither fraction nor exponent.  Minus zero is a decimal. -/
  | integer (value : Int)
  /-- The number `mantissa * 10 ^ exponent`. -/
  | decimal (mantissa : Int) (exponent : Int)
  | string (text : String)
  | array (items : List Json)
  | object (members : List (String × Json))
  /-- A string with an unpaired surrogate, or an object with such a key.  It may stand where values are passed
  over, and is accepted nowhere else. -/
  | unreadable
  deriving Repr, Inhabited

namespace Json

/-- The largest finite magnitude of a double, with what rounds down to it. -/
def overflowBound : Nat := Nat.pow 2 1024 - Nat.pow 2 970

/-- Is `mantissa * 10 ^ exponent` too large for a double?  The size of the mantissa settles the question
for exponents far from it, so that no power is computed that is much larger than the mantissa. -/
def overflows (mantissa : Nat) (exponent : Int) : Bool :=
  if mantissa = 0 then false
  else
    if 400 < exponent then true
    else if 0 ≤ exponent then overflowBound ≤ mantissa * Nat.pow 10 exponent.toNat
    else if Nat.log2 mantissa < exponent.natAbs then false
    else overflowBound * Nat.pow 10 exponent.natAbs ≤ mantissa

mutual

/-- Can every part of a value be taken in, with so many levels of nesting?  No part may be unreadable, no
number too large, and no nesting too deep. -/
def isSound : Nat → Json → Bool
  | _, .unreadable => false
  | _, .integer n => !overflows n.natAbs 0
  | _, .decimal m e => !overflows m.natAbs e
  | 0, .array _ => false
  | 0, .object _ => false
  | levels + 1, .array items => areSound levels items
  | levels + 1, .object members => membersSound levels members
  | _, _ => true

def areSound (levels : Nat) : List Json → Bool
  | [] => true
  | item :: items => isSound levels item && areSound levels items

/-- `isSound` for the values of all members of an object. -/
def membersSound (levels : Nat) : List (String × Json) → Bool
  | [] => true
  | (_, value) :: members => isSound levels value && membersSound levels members

end

end Json
end CatalogFilter
