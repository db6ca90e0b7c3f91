import FilterSql.Calendar.Timestamp
import FilterSql.Decimal.Layout
import FilterSql.Decimal.Reader
import FilterSql.Text.Blank

/-!
# Bound values

The values that parameters of a statement are bound to.
-/

namespace FilterSql.Sql

inductive Value
  /-- An integer of 64 bits. -/
  | int (n : Int)
  | double (x : Float)
  | bool (b : Bool)
  | dateTime (t : Calendar.Timestamp)
  | string (s : String)

namespace Value

/-- The value as plain text. -/
def text : Value → String
  | .int n => toString n
  | .double x => Decimal.plain x
  | .bool b => if b then "true" else "false"
  | .dateTime t => t.text
  | .string s => s

/-- The value as a double: numbers, and texts that read as one. -/
def toFloat? : Value → Option Float
  | .int n => some (Binary64.ofInt n)
  | .double x => some x
  | .string s => Decimal.readFloat? (Text.trim s).toList
  | .bool _ | .dateTime _ => none

def string? : Value → Option String
  | .string s => some s
  | _ => none

end Value

end FilterSql.Sql
