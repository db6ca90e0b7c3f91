import FilterSql.Decimal.Width

/-!
# Doubles as exact numbers

A double is a sign and a *magnitude*, the 63 bits below the sign read as a natural number. Finite
magnitudes stand for `mantissa * 2 ^ exponent` with a mantissa below `2 ^ 53`. Larger magnitudes
stand for larger numbers, `infinity` is the first one that is not finite, and every ratio of natural
numbers has a nearest magnitude.
-/

namespace FilterSql.Binary64

open Decimal

/-- The first magnitude that is not finite. -/
def infinity : Nat := 0x7FF0000000000000

/-- The least exponent of a mantissa. -/
def minExponent : Int := -1074

/-- The mantissa and exponent that a finite magnitude stands for. -/
def decode (magnitude : Nat) : Nat × Int :=
  let fraction := magnitude % twoTo 52
  let field : Nat := magnitude / twoTo 52
  if field = 0 then (fraction, minExponent) else (twoTo 52 + fraction, (field : Int) - 1075)

/-- `num / den * 2 ^ (-exponent)` as a ratio. -/
def scale (num den : Nat) (exponent : Int) : Nat × Nat :=
  (num * twoTo (-exponent).toNat, den * twoTo exponent.toNat)

/-- A ratio rounded to the nearest natural number, halves to the even one. -/
def roundRatio (num den : Nat) : Nat :=
  let quotient := num / den
  let remainder := 2 * (num % den)
  if remainder > den || (remainder = den && quotient % 2 = 1) then quotient + 1 else quotient

/-- The exponent at which the mantissa of `num / den` has 53 bits, or the least one. -/
def exponentFor (num den : Nat) : Int :=
  let first : Int := (Nat.log2 num : Int) - Nat.log2 den - 52
  let (n, d) := scale num den first
  max minExponent (if n / d < twoTo 52 then first - 1 else first)

/-- The magnitude nearest to `num / den`, halves to the even one. -/
def ofRatio (num den : Nat) : Nat :=
  if num = 0 then 0
  else
    let exponent := exponentFor num den
    let (n, d) := scale num den exponent
    min infinity ((exponent - minExponent).toNat * twoTo 52 + roundRatio n d)

/-- The magnitude nearest to `digits * 10 ^ exponent`. Numbers far outside the range of doubles are
settled by the count of their digits. -/
def ofScaled (digits : Nat) (exponent : Int) : Nat :=
  if digits = 0 then 0
  else
    let top : Int := Nat.log2 digits / 3 + 1 + exponent
    if top < -400 then 0
    else if exponent > 400 then infinity
    else ofRatio (digits * tenTo exponent.toNat) (tenTo (-exponent).toNat)

def toFloat (negative : Bool) (magnitude : Nat) : Float :=
  Float.ofBits (UInt64.ofNat (if negative then twoTo 63 + magnitude else magnitude))

def isNegative (x : Float) : Bool := x.toBits.toNat ≥ twoTo 63

def magnitude (x : Float) : Nat := x.toBits.toNat % twoTo 63

def isFinite (x : Float) : Bool := magnitude x < infinity

/-- The double nearest to an integer. -/
def ofInt (n : Int) : Float := toFloat (n < 0) (ofRatio n.natAbs 1)

end FilterSql.Binary64
