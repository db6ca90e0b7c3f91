import FilterSql.Calendar.Timestamp
import FilterSql.Decimal.Reader
import FilterSql.Text.Blank

/-!
# Reading timestamps

Three forms are tried in turn: the full form with an offset and fixed widths, a date and time without
an offset, and a date alone. The last two have flexible widths, allow blanks before a number, and are
taken as universal time. The text must start with a digit and must be used up.
-/

namespace FilterSql.Calendar

/-- Between `least` and `most` digits, as many as there are. -/
def takeNumber (least most : Nat) (cs : List Char) : Option (Nat × List Char) :=
  let ds := (cs.take most).takeWhile Char.isDigit
  if ds.length < least then none else some (Decimal.natOfDigits ds, cs.drop ds.length)

/-- At most `most` digits after any blanks. -/
def takeLooseNumber (most : Nat) (cs : List Char) : Option (Nat × List Char) :=
  takeNumber 1 most (Text.dropBlanks cs)

/-- One of the given characters. -/
def takeMark (marks : List Char) : List Char → Option (List Char)
  | c :: cs => if marks.contains c then some cs else none
  | [] => none

/-- A fraction after a point, in nanoseconds; digits after the ninth are dropped. -/
def takeFraction (cs : List Char) : Option (Nat × List Char) :=
  match cs with
  | '.' :: rest =>
    let ds := rest.takeWhile Char.isDigit
    let kept := ds.take 9
    if ds.isEmpty then none
    else some (Decimal.natOfDigits kept * Decimal.tenTo (9 - kept.length), rest.drop ds.length)
  | _ => some (0, cs)

/-- An offset of the full form, in minutes. The minus sign may also be the typographic one. -/
def takeOffset : List Char → Option (Int × List Char)
  | [] => none
  | c :: cs =>
    if c == 'Z' || c == 'z' then some (0, cs)
    else if c == '+' || c == '-' || c == '−' then do
      let (hours, cs) ← takeNumber 2 2 cs
      let cs ← takeMark [':'] cs
      let (minutes, cs) ← takeNumber 2 2 cs
      if minutes ≤ 59 && hours ≤ 23 then
        let total : Int := 60 * hours + minutes
        some (if c == '+' then total else -total, cs)
      else none
    else none

def checked (date : Date) (time : Time) (offset : Int) (rest : List Char) : Option Timestamp :=
  if rest.isEmpty && date.exists? && time.exists? then some ⟨date, time, offset⟩ else none

/-- The full form: fixed widths and an offset. -/
def readFull? (cs : List Char) : Option Timestamp := do
  let (year, cs) ← takeNumber 4 4 cs
  let cs ← takeMark ['-'] cs
  let (month, cs) ← takeNumber 2 2 cs
  let cs ← takeMark ['-'] cs
  let (day, cs) ← takeNumber 2 2 cs
  let cs ← takeMark ['T', 't', ' '] cs
  let (hour, cs) ← takeNumber 2 2 cs
  let cs ← takeMark [':'] cs
  let (minute, cs) ← takeNumber 2 2 cs
  let cs ← takeMark [':'] cs
  let (second, cs) ← takeNumber 2 2 cs
  let (nanosecond, cs) ← takeFraction cs
  let (offset, cs) ← takeOffset cs
  checked ⟨year, month, day⟩ ⟨hour, minute, second, nanosecond⟩ offset cs

/-- A date with flexible widths, and what follows it. -/
def takeLooseDate (cs : List Char) : Option (Date × List Char) := do
  let (year, cs) ← takeLooseNumber 4 cs
  let cs ← takeMark ['-'] cs
  let (month, cs) ← takeLooseNumber 2 cs
  let cs ← takeMark ['-'] cs
  let (day, cs) ← takeLooseNumber 2 cs
  some (⟨year, month, day⟩, cs)

/-- A date and time in universal time, without an offset. -/
def readLocal? (cs : List Char) : Option Timestamp := do
  let (date, cs) ← takeLooseDate cs
  let cs ← takeMark ['T'] cs
  let (hour, cs) ← takeLooseNumber 2 cs
  let cs ← takeMark [':'] cs
  let (minute, cs) ← takeLooseNumber 2 cs
  let cs ← takeMark [':'] cs
  let (second, cs) ← takeLooseNumber 2 cs
  let (nanosecond, cs) ← takeFraction cs
  checked date ⟨hour, minute, second, nanosecond⟩ 0 cs

/-- A date alone: midnight in universal time. -/
def readDate? (cs : List Char) : Option Timestamp := do
  let (date, cs) ← takeLooseDate cs
  checked date midnight 0 cs

/-- A timestamp in any of the three forms. -/
def readTimestamp? (cs : List Char) : Option Timestamp :=
  match cs with
  | c :: _ => if c.isDigit then (readFull? cs).or ((readLocal? cs).or (readDate? cs)) else none
  | [] => none

end FilterSql.Calendar
