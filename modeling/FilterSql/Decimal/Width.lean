/-!
# Powers and widths

Powers of two and of ten, and the ranges of integers of a fixed width.
-/

namespace FilterSql.Decimal

/-- Two to the power of `n`. -/
def twoTo (n : Nat) : Nat := Nat.pow 2 n

/-- Ten to the power of `n`. -/
def tenTo (n : Nat) : Nat := Nat.pow 10 n

def maxNat32 : Nat := 4294967295

def maxNat64 : Nat := 18446744073709551615

def minInt32 : Int := -2147483648

def maxInt32 : Int := 2147483647

def minInt64 : Int := -9223372036854775808

def maxInt64 : Int := 9223372036854775807

/-- Whether an integer fits 32 bits. -/
def fitsInt32 (n : Int) : Bool := minInt32 ≤ n && n ≤ maxInt32

end FilterSql.Decimal
