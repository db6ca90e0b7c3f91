import FilterSql.Decimal.Binary64
import FilterSql.Text.AsciiCase

/-!
# Reading numbers

Integers are an optional sign and ASCII digits. Decimals may have a point with a digit on at least
one side and an exponent; a decimal is read as the nearest double. Where a text stands for any
double, the names of infinity and of the undefined number are known too.
-/

namespace FilterSql.Decimal

/-- The number that a list of ASCII digits denotes. -/
def natOfDigits (ds : List Char) : Nat := ds.foldl (fun n c => 10 * n + (c.toNat - 48)) 0

/-- A leading sign, and what follows it. -/
def takeSign : List Char → Bool × List Char
  | '-' :: cs => (true, cs)
  | '+' :: cs => (false, cs)
  | cs => (false, cs)

/-- A non-empty run of ASCII digits. -/
def readNat? (cs : List Char) : Option Nat :=
  if cs.isEmpty || !cs.all Char.isDigit then none else some (natOfDigits cs)

/-- A natural number with an optional plus sign, at most `max`. -/
def readBoundedNat? (max : Nat) (cs : List Char) : Option Nat :=
  let digits := match cs with
    | '+' :: rest => rest
    | _ => cs
  (readNat? digits).filter (· ≤ max)

/-- An integer with an optional sign, between `low` and `high`. -/
def readBoundedInt? (low high : Int) (cs : List Char) : Option Int :=
  let (negative, digits) := takeSign cs
  (readNat? digits).map (fun n => if negative then -(n : Int) else n) |>.filter
    fun n => low ≤ n && n ≤ high

/-- An integer of 64 bits. -/
def readInt64? (cs : List Char) : Option Int := readBoundedInt? minInt64 maxInt64 cs

/-- An integer of 32 bits. -/
def readInt32? (cs : List Char) : Option Int := readBoundedInt? minInt32 maxInt32 cs

/-- A written decimal: `digits * 10 ^ exponent` with a sign. -/
structure Written where
  negative : Bool
  digits : Nat
  exponent : Int
deriving Repr, DecidableEq

/-- The exponent part of a decimal: nothing, or a mark with an optional sign and digits. -/
def readExponent? : List Char → Option Int
  | [] => some 0
  | e :: cs =>
    if e == 'e' || e == 'E' then
      let (negative, digits) := takeSign cs
      (readNat? digits).map fun n => if negative then -(n : Int) else n
    else none

/-- A decimal without names for special numbers. -/
def readWritten? (cs : List Char) : Option Written :=
  let (negative, body) := takeSign cs
  let whole := body.takeWhile Char.isDigit
  let afterWhole := body.dropWhile Char.isDigit
  let (places, afterPlaces) := match afterWhole with
    | '.' :: rest => (rest.takeWhile Char.isDigit, rest.dropWhile Char.isDigit)
    | _ => ([], afterWhole)
  if whole.isEmpty && places.isEmpty then none
  else (readExponent? afterPlaces).map fun exponent =>
    ⟨negative, natOfDigits (whole ++ places), exponent - places.length⟩

/-- The magnitude of the nearest double. -/
def Written.magnitude (d : Written) : Nat := Binary64.ofScaled d.digits d.exponent

def Written.toFloat (d : Written) : Float := Binary64.toFloat d.negative d.magnitude

/-- Any double: a decimal, or a name of infinity or of the undefined number. -/
def readFloat? (cs : List Char) : Option Float :=
  match readWritten? cs with
  | some d => some d.toFloat
  | none =>
    let (negative, name) := takeSign cs
    let name := String.ofList name
    if Text.sameName name "inf" || Text.sameName name "infinity" then
      some (Binary64.toFloat negative Binary64.infinity)
    else if Text.sameName name "nan" then some (Binary64.toFloat false 0x7FF8000000000000)
    else none

end FilterSql.Decimal
