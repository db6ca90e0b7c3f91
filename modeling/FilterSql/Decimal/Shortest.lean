import FilterSql.Decimal.Binary64

/-!
# Shortest decimals

The decimal with the fewest digits that reads back as a given double, and among those the nearest.
The search is exact: a double stands for every real in an interval around it, and for each count of
digits the two neighbours of its value on the decimal grid are tried. Where both are at the same
distance, a `Tie` says which one is taken.
-/

namespace FilterSql.Decimal

/-- A decimal `digits * 10 ^ exponent`. -/
structure Scaled where
  digits : Nat
  exponent : Int
deriving Repr, DecidableEq

/-- Which of two decimals at the same distance is taken. -/
inductive Tie where
  /-- The larger one. -/
  | up
  /-- The one whose last digit is even. -/
  | even
deriving Repr, DecidableEq

/-- The count of decimal digits, none for zero. -/
def digitCount (n : Nat) : Nat := if n = 0 then 0 else (Nat.toDigits 10 n).length

/-- The place of the first digit: `10 ^ (place - 1) ≤ num / den < 10 ^ place`. -/
def leadingPlace (num den : Nat) : Int :=
  if den ≤ num then digitCount (num / den) else 1 - (digitCount ((den - 1) / num) : Int)

/-- The reals that round to a double, as three numbers with a common exponent of two: the lower end,
the value, and the upper end. The ends belong to the interval when `closed`. -/
structure Interval where
  low : Nat
  value : Nat
  high : Nat
  exponent : Int
  closed : Bool

/-- The interval of `mantissa * 2 ^ exponent`. Below a power of two the doubles are denser. -/
def Interval.around (mantissa : Nat) (exponent : Int) : Interval where
  low := if mantissa = twoTo 52 ∧ exponent ≠ Binary64.minExponent then 4 * mantissa - 1
    else 4 * mantissa - 2
  value := 4 * mantissa
  high := 4 * mantissa + 2
  exponent := exponent - 2
  closed := mantissa % 2 = 0

/-- The multiple of `10 ^ place` nearest to the value and inside the interval, if there is one. -/
def Interval.nearest? (tie : Tie) (i : Interval) (place : Int) : Option Scaled :=
  let grow := twoTo i.exponent.toNat * tenTo (-place).toNat
  let unit := twoTo (-i.exponent).toNat * tenTo place.toNat
  let below := i.value * grow / unit
  let reaches (a b : Nat) : Bool := if i.closed then a ≤ b else a < b
  let belowFits := reaches (i.low * grow) (below * unit)
  let aboveFits := reaches ((below + 1) * unit) (i.high * grow)
  let middle := (2 * below + 1) * unit
  let aboveNearer := middle < 2 * (i.value * grow) ||
    middle == 2 * (i.value * grow) && (tie == .up || below % 2 == 1)
  if aboveFits && (!belowFits || aboveNearer) then some ⟨below + 1, place⟩
  else if belowFits then some ⟨below, place⟩
  else none

/-- Moves trailing zeros of the digits into the exponent, at most `count` of them. -/
def Scaled.stripZeros : Nat → Scaled → Scaled
  | 0, d => d
  | count + 1, d =>
    if d.digits ≠ 0 ∧ d.digits % 10 = 0 then stripZeros count ⟨d.digits / 10, d.exponent + 1⟩
    else d

/-- The shortest decimal of a finite, non-zero magnitude. Seventeen digits always suffice. -/
def shortest (tie : Tie) (magnitude : Nat) : Scaled :=
  let (mantissa, exponent) := Binary64.decode magnitude
  let i := Interval.around mantissa exponent
  let place := leadingPlace (mantissa * twoTo exponent.toNat) (twoTo (-exponent).toNat)
  let found := (List.range 17).findSome? fun (n : Nat) => i.nearest? tie (place - (n + 1))
  match found with
  | some d => d.stripZeros 17
  | none => ⟨0, 0⟩

end FilterSql.Decimal
