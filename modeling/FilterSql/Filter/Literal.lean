import FilterSql.Calendar.Reader
import FilterSql.Edm.Kind
import FilterSql.Geometry.Wkt.Outline
import FilterSql.Sql.Value
import FilterSql.Text.Split

/-!
# Literals

Texts that stand for a value: quoted texts, with or without a spatial prefix, numbers, truth values,
timestamps, and `null`. Any other text is a property path. A quote inside single quotes is written
twice.
-/

namespace FilterSql.Filter.Literal

open Text Edm

/-- The quoted part after `geography` or `geometry`. -/
def dropSpatialName? (cs : List Char) : Option (List Char) :=
  ["geography", "geometry"].findSome? fun name =>
    (dropName? name.toList cs).filter (·.head? == some '\'')

/-- The part of a literal that holds its quotes. -/
def quotedPart (cs : List Char) : List Char := (dropSpatialName? cs).getD cs

/-- Starts and ends with the same mark, which are two characters. -/
def isBetween (mark : Char) (cs : List Char) : Bool :=
  2 ≤ cs.length && cs.head? == some mark && cs.getLast? == some mark

/-- Quoted with single or double quotes, with or without a spatial prefix. -/
def isQuoted (text : String) : Bool :=
  let cs := quotedPart text.toList
  isBetween '\'' cs || isBetween '"' cs

/-- Doubled quotes made single, from left to right. -/
def undouble : List Char → List Char
  | [] => []
  | [c] => [c]
  | c :: d :: cs => if c == '\'' && d == '\'' then '\'' :: undouble cs else c :: undouble (d :: cs)

/-- The text inside the quotes of a literal, or the trimmed text if it is not quoted. -/
def unquote (text : String) : String :=
  let text := trim text
  if isQuoted text then
    let cs := quotedPart text.toList
    let inner := (cs.drop 1).dropLast
    String.ofList (if cs.head? == some '\'' then undouble inner else inner)
  else text

/-- Quoted text with the outline of a geometry. -/
def isSpatial (text : String) : Bool := Geometry.Wkt.hasOutline (unquote text)

/-- Starts with a digit or a point, after an optional sign. -/
def looksNumeric (cs : List Char) : Bool :=
  match (Decimal.takeSign cs).2 with
  | c :: _ => c.isDigit || c == '.'
  | [] => false

def readInt? (text : String) : Option Int :=
  if looksNumeric text.toList then Decimal.readInt64? text.toList else none

/-- A decimal whose nearest double is finite. -/
def readDecimal? (text : String) : Option Decimal.Written :=
  if looksNumeric text.toList then
    (Decimal.readWritten? text.toList).filter (·.magnitude < Binary64.infinity)
  else none

def readBool? (text : String) : Option Bool :=
  if sameName text "true" then some true
  else if sameName text "false" then some false
  else none

def readTimestamp? (text : String) : Option Calendar.Timestamp :=
  Calendar.readTimestamp? text.toList

def isNull (text : String) : Bool := sameName (trim text) "null"

/-- Whether the text is a literal and not a property path. -/
def isLiteral (text : String) : Bool :=
  let text := trim text
  isQuoted text || isNull text || (readBool? text).isSome || (readDecimal? text).isSome ||
    (readTimestamp? text).isSome

/-- The kind of a literal. A text that is none counts as a string. -/
def kind (text : String) : Kind :=
  let text := trim text
  if isQuoted text then if isSpatial text then .geography none else .string
  else
    match readInt? text with
    | some n => if Decimal.fitsInt32 n then .int32 else .int64
    | none =>
      if (readDecimal? text).isSome then .double
      else if (readBool? text).isSome then .boolean
      else if (readTimestamp? text).isSome then .dateTimeOffset
      else .string

/-- The kind of a literal where a family is expected: quoted text where a string is expected is a
string, even with the outline of a geometry. -/
def kindFor (text : String) (expected : Family) : Kind :=
  if expected = .string && isQuoted (trim text) then .string else kind text

/-- Whether a literal other than `null` may be compared with a property of a declared kind. -/
def fits (declared : Kind) (text : String) : Bool :=
  !isNull text && declared.accepts (kindFor text declared.family)

/-- The value of a literal. A text that is none is its own value. -/
def value (text : String) : Sql.Value :=
  let text := trim text
  if isQuoted text then .string (unquote text)
  else
    match readBool? text with
    | some b => .bool b
    | none =>
      match readInt? text with
      | some n => .int n
      | none =>
        match readDecimal? text with
        | some d => .double d.toFloat
        | none =>
          match readTimestamp? text with
          | some t => .dateTime t
          | none => .string text

end FilterSql.Filter.Literal
