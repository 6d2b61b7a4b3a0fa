/-!
# Plain decimal numbers

A plain number is an optional sign, digits, and optionally a point with digits after it.  Such a text
may stand unquoted in a filter.  A plain number is *numeric* when its integer part also fits the
96 bits of a decimal magnitude, so that the value can be computed with.  Integers that are stored or
counted with fit a word of 64 bits.
-/

namespace CatalogFilter.Text

/-! ## §1 Reading the parts of a number -/

def dropSign : List Char → List Char
  | '+' :: cs => cs
  | '-' :: cs => cs
  | cs => cs

def leadingDigits (cs : List Char) : List Char := cs.takeWhile Char.isDigit

def afterDigits (cs : List Char) : List Char := cs.dropWhile Char.isDigit

def digitsValue (cs : List Char) : Nat :=
  cs.foldl (fun n c => 10 * n + (c.toNat - '0'.toNat)) 0

/-! ## §2 Plain and numeric texts -/

/-- Is the text a fraction: nothing at all, or a point with digits after it and nothing more? -/
def isFraction : List Char → Bool
  | [] => true
  | '.' :: ds => !ds.isEmpty && ds.all Char.isDigit
  | _ => false

/-- An optional sign, at least one digit, and an optional fraction. -/
def isNumber (cs : List Char) : Bool :=
  !(leadingDigits (dropSign cs)).isEmpty && isFraction (afterDigits (dropSign cs))

/-- The largest decimal magnitude, 96 bits of ones. -/
def maxMagnitude : Nat := 0xFFFFFFFFFFFFFFFFFFFFFFFF

/-- Does a fraction round its integer part up, that is, does it begin with a five or more? -/
def roundsUp : List Char → Bool
  | '.' :: d :: _ => '5' ≤ d
  | _ => false

/-- Does the magnitude fit?  The largest integer part fits only while its fraction does not round
it up. -/
def fitsMagnitude (cs : List Char) : Bool :=
  let whole := digitsValue (leadingDigits cs)
  whole < maxMagnitude || (whole == maxMagnitude && !roundsUp (afterDigits cs))

def isNumeric (cs : List Char) : Bool := isNumber cs && fitsMagnitude (dropSign cs)

/-! ## §3 Integers of a word -/

/-- Does an integer fit 64 bits, one of them for its sign? -/
def fitsWord (n : Int) : Bool := Int64.minValue.toInt ≤ n && n ≤ Int64.maxValue.toInt

end CatalogFilter.Text
