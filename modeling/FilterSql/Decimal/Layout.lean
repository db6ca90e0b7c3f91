import FilterSql.Decimal.Shortest

/-!
# Numbers as text

Two layouts of the shortest decimal of a double, and a layout with a fixed count of places. The
plain layout never writes an exponent. The data layout, used in JSON, always shows that the number is
not an integer and turns to an exponent for very large and very small numbers. Ties go up in the
plain layout and to the even digit in the data layout.
-/

namespace FilterSql.Decimal

/-- The digits of a natural number, as characters. -/
def digitsOf (n : Nat) : List Char := Nat.toDigits 10 n

def zeros (n : Nat) : List Char := List.replicate n '0'

/-- A decimal without an exponent, padded with zeros on the side where digits are missing. -/
def Scaled.plain (d : Scaled) : List Char :=
  let ds := digitsOf d.digits
  let point : Int := ds.length + d.exponent
  if 0 ≤ d.exponent then ds ++ zeros d.exponent.toNat
  else if 0 < point then ds.take point.toNat ++ '.' :: ds.drop point.toNat
  else '0' :: '.' :: (zeros (-point).toNat ++ ds)

/-- A decimal with one digit before the point and a signed exponent. -/
def Scaled.scientific (d : Scaled) : List Char :=
  let ds := digitsOf d.digits
  let exponent : Int := ds.length + d.exponent - 1
  let mantissa := if ds.length ≤ 1 then ds else ds.take 1 ++ '.' :: ds.drop 1
  mantissa ++ 'e' :: (if exponent < 0 then '-' else '+') :: digitsOf exponent.natAbs

/-- A double in the plain layout: `1`, `-0`, `0.1`, `NaN`, `inf`. -/
def plainChars (x : Float) : List Char :=
  let m := Binary64.magnitude x
  if Binary64.infinity < m then "NaN".toList
  else
    let sign := if Binary64.isNegative x then ['-'] else []
    sign ++
      if m = Binary64.infinity then "inf".toList
      else if m = 0 then ['0']
      else (shortest .up m).plain

def plain (x : Float) : String := String.ofList (plainChars x)

/-- A finite double in the data layout: at least one decimal, and an exponent when the first digit
stands below the fifth decimal or above the sixteenth place. -/
def dataChars (x : Float) : List Char :=
  let m := Binary64.magnitude x
  let sign := if Binary64.isNegative x then ['-'] else []
  sign ++
    if m = 0 then "0.0".toList
    else
      let d := shortest .even m
      let exponent : Int := (digitsOf d.digits).length + d.exponent - 1
      if -5 ≤ exponent ∧ exponent ≤ 15 then
        let ds := d.plain
        if ds.contains '.' then ds else ds ++ ['.', '0']
      else d.scientific

/-- A finite double with a fixed count of places. The exact value is rounded, halves to even. -/
def fixedChars (places : Nat) (x : Float) : List Char :=
  let (mantissa, exponent) := Binary64.decode (Binary64.magnitude x)
  let units := Binary64.roundRatio (mantissa * twoTo exponent.toNat * tenTo places)
    (twoTo (-exponent).toNat)
  let ds := digitsOf units
  let ds := zeros (places + 1 - ds.length) ++ ds
  let sign := if Binary64.isNegative x then ['-'] else []
  if places = 0 then sign ++ ds
  else sign ++ ds.take (ds.length - places) ++ '.' :: ds.drop (ds.length - places)

def fixed (places : Nat) (x : Float) : String := String.ofList (fixedChars places x)

end FilterSql.Decimal
