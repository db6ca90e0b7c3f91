/-!
# Timestamps

A date and a time of day with a fixed offset from universal time. The second may be the leap second
60, and the fraction is kept in nanoseconds.
-/

namespace FilterSql.Calendar

structure Date where
  year : Nat
  month : Nat
  day : Nat
deriving Repr, DecidableEq, Inhabited

structure Time where
  hour : Nat
  minute : Nat
  second : Nat
  nanosecond : Nat
deriving Repr, DecidableEq, Inhabited

/-- A local date and time, and its offset from universal time in minutes. -/
structure Timestamp where
  date : Date
  time : Time
  offset : Int
deriving Repr, DecidableEq, Inhabited

def isLeapYear (year : Nat) : Bool := (year % 4 == 0 && year % 100 != 0) || year % 400 == 0

def daysInMonth (year month : Nat) : Nat :=
  if month = 2 then if isLeapYear year then 29 else 28
  else if month = 4 ∨ month = 6 ∨ month = 9 ∨ month = 11 then 30
  else 31

/-- The date exists in the calendar. -/
def Date.exists? (d : Date) : Bool :=
  1 ≤ d.month && d.month ≤ 12 && 1 ≤ d.day && d.day ≤ daysInMonth d.year d.month

/-- The time exists; any minute may end with the leap second. -/
def Time.exists? (t : Time) : Bool := t.hour ≤ 23 && t.minute ≤ 59 && t.second ≤ 60

def midnight : Time := ⟨0, 0, 0, 0⟩

/-- A number with at least `width` digits. -/
def padded (width n : Nat) : String :=
  let ds := Nat.toDigits 10 n
  String.ofList (List.replicate (width - ds.length) '0' ++ ds)

/-- The fraction of a second: nothing when it is zero, else the fewest of 3, 6 or 9 digits that are
exact. -/
def fractionText (nanosecond : Nat) : String :=
  if nanosecond = 0 then ""
  else if nanosecond % 1000000 = 0 then "." ++ padded 3 (nanosecond / 1000000)
  else if nanosecond % 1000 = 0 then "." ++ padded 6 (nanosecond / 1000)
  else "." ++ padded 9 nanosecond

def offsetText (minutes : Int) : String :=
  (if minutes < 0 then "-" else "+") ++ padded 2 (minutes.natAbs / 60) ++ ":" ++
    padded 2 (minutes.natAbs % 60)

def Timestamp.local (t : Timestamp) : String :=
  padded 4 t.date.year ++ "-" ++ padded 2 t.date.month ++ "-" ++ padded 2 t.date.day ++ "T" ++
    padded 2 t.time.hour ++ ":" ++ padded 2 t.time.minute ++ ":" ++ padded 2 t.time.second ++
    fractionText t.time.nanosecond

/-- The timestamp with its offset in numbers: `2025-01-01T12:00:00+00:00`. -/
def Timestamp.text (t : Timestamp) : String := t.local ++ offsetText t.offset

/-- The timestamp with `Z` for a zero offset, as it stands in JSON. -/
def Timestamp.dataText (t : Timestamp) : String :=
  t.local ++ if t.offset = 0 then "Z" else offsetText t.offset

end FilterSql.Calendar
