/-!
# The shortest decimal of a double

A finite double is an integer times a power of two.  The numbers that are rounded to it form an interval
around it, whose ends belong to it when the integer is even.  Its shortest decimal is the decimal with the
fewest digits in that interval, and of those the nearest.  The search goes through 1, 2, … 17 digits and
looks at the two neighbours of the double among the decimals with so many digits, in exact arithmetic.
Only a tie between two neighbours is left to the writer of the format.
-/

namespace CatalogFilter

/-! ## §1 Doubles and decimals -/

/-- The number `digits * 10 ^ exponent`. -/
structure Decimal where
  digits : Nat
  exponent : Int
  deriving DecidableEq, Repr, Inhabited

namespace Decimal

/-- The number `mantissa * 2 ^ exponent`. -/
structure Binary where
  mantissa : Nat
  exponent : Int
  /-- Is the number below only half as far away as the number above? -/
  narrowBelow : Bool
  deriving DecidableEq, Repr

/-- Which of two equally near decimals is taken. -/
inductive Tie where
  | upward
  | toEven
  deriving DecidableEq, Repr

/-- The magnitude of a finite double, from its bits. -/
def Binary.ofBits (bits : UInt64) : Binary :=
  let biased := ((bits >>> 52) &&& 0x7FF).toNat
  let fraction := (bits &&& 0xFFFFFFFFFFFFF).toNat
  if biased = 0 then ⟨fraction, -1074, false⟩
  else ⟨0x10000000000000 + fraction, (biased : Int) - 1075, fraction == 0 && biased > 1⟩

/-! ## §2 Exact comparisons -/

/-- A power of a base, or one where the exponent is negative. -/
def wholePower (base : Nat) (exponent : Int) : Nat := Nat.pow base exponent.toNat

/-- Compares `a * 10 ^ i` with `b * 2 ^ j`. -/
def compareScaled (a : Nat) (i : Int) (b : Nat) (j : Int) : Ordering :=
  compare (a * wholePower 10 i * wholePower 2 (-j)) (b * wholePower 2 j * wholePower 10 (-i))

/-- Is a decimal rounded to a double?  The ends of the interval are given in quarters of the last place
of the double. -/
def roundsTo (d : Decimal) (x : Binary) : Bool :=
  let low := if x.narrowBelow then 4 * x.mantissa - 1 else 4 * x.mantissa - 2
  let high := 4 * x.mantissa + 2
  let closed := x.mantissa % 2 == 0
  let atLow := compareScaled d.digits d.exponent low (x.exponent - 2)
  let atHigh := compareScaled d.digits d.exponent high (x.exponent - 2)
  (atLow == .gt || (closed && atLow == .eq)) && (atHigh == .lt || (closed && atHigh == .eq))

/-- The number of digits before the point of a number that is not zero; it may be negative.  The binary
logarithm gives it but for a step or two. -/
def scale (x : Binary) : Int :=
  let estimate := ((x.mantissa.log2 + x.exponent) * 30103) / 100000
  let isAbove (k : Int) : Bool := compareScaled 1 k x.mantissa x.exponent == .gt
  ([estimate - 1, estimate, estimate + 1].find? isAbove).getD (estimate + 2)

/-! ## §3 The search -/

/-- The decimal with so many digits that a double is written as, if one of them is rounded to it. -/
def withDigits? (tie : Tie) (x : Binary) (scale : Int) (count : Nat) : Option Decimal :=
  let grid := scale - count
  let numerator := x.mantissa * wholePower 2 x.exponent * wholePower 10 (-grid)
  let denominator := wholePower 2 (-x.exponent) * wholePower 10 grid
  let below := numerator / denominator
  let lower : Decimal := ⟨below, grid⟩
  let upper : Decimal := ⟨below + 1, grid⟩
  match roundsTo lower x, roundsTo upper x with
  | false, false => none
  | true, false => some lower
  | false, true => some upper
  | true, true =>
    match compare (2 * numerator) ((2 * below + 1) * denominator) with
    | .lt => some lower
    | .gt => some upper
    | .eq =>
      match tie with
      | .upward => some upper
      | .toEven => some (if below % 2 = 0 then lower else upper)

/-- A decimal without zeros at the end of its digits, as far as a number of steps goes. -/
def stripZeros : Nat → Decimal → Decimal
  | 0, d => d
  | steps + 1, d =>
    if d.digits ≠ 0 ∧ d.digits % 10 = 0 then stripZeros steps ⟨d.digits / 10, d.exponent + 1⟩ else d

def exact (x : Binary) : Decimal :=
  ⟨x.mantissa * wholePower 2 x.exponent * wholePower 5 (-x.exponent), min x.exponent 0⟩

def shortest (tie : Tie) (x : Binary) : Decimal :=
  if x.mantissa = 0 then ⟨0, 0⟩
  else
    let scale := scale x
    let found := (List.range 17).findSome? fun n => withDigits? tie x scale (n + 1)
    stripZeros 17 (found.getD (exact x))

end CatalogFilter.Decimal
