import FilterSql.Decimal.Reader
import FilterSql.Json.Value
import FilterSql.Text.Blank
import FilterSql.Text.Hex

/-!
# Scalars without quotes

What a scalar without quotes stands for. Two readings are in use. A document that is read for its
settings takes numbers as they are written in JSON, and a few spellings of the truth values. Text that
was written by this library is read more freely: truth values have more names, integers may be given in
other bases and with underscores between their digits, and numbers that are not finite have names.
-/

namespace FilterSql.Yaml

open Text

/-! ## Settings -/

/-- More than one digit, the first of them zero. -/
def isPadded (cs : List Char) : Bool :=
  match (Decimal.takeSign cs).2 with
  | '0' :: rest => !rest.isEmpty && rest.all Char.isDigit
  | _ => false

/-- An integer of 128 bits, with or without a sign. -/
def integer? (cs : List Char) : Option Int :=
  if isPadded cs then none
  else Decimal.readBoundedInt? (-Decimal.twoTo 127) (Decimal.twoTo 128 - 1) cs

/-- The value of a scalar in a document of settings. What is too large for a number is a text. -/
def settingOf (cs : List Char) : Json :=
  let text := String.ofList cs
  if ["null", "Null", "NULL", "~"].contains text then .null
  else if ["true", "True", "TRUE"].contains text then .bool true
  else if ["false", "False", "FALSE"].contains text then .bool false
  else
    match integer? cs with
    | some n => .integer n
    | none =>
      match (if isPadded cs then none else Decimal.readFloat? cs).filter Binary64.isFinite with
      | some x => .decimal x
      | none => .string text

/-! ## Written text -/

def sameAs (text : String) (names : List String) : Bool := names.any (sameName text)

/-- The truth value that a word names, in any case. -/
def truth? (text : String) : Option Bool :=
  if sameAs text ["true", "yes", "y", "on"] then some true
  else if sameAs text ["false", "no", "n", "off"] then some false
  else none

/-- The number of some digits in a base, of which underscores are no part. -/
def digits? (base : Nat) (cs : List Char) : Option Nat :=
  readDigits? base (cs.filter (· != '_'))

/-- The natural number of a text: a base other than ten is given by a zero and a letter. -/
def natural? : List Char → Option Nat
  | '0' :: 'x' :: cs | '0' :: 'X' :: cs => digits? 16 cs
  | '0' :: 'o' :: cs | '0' :: 'O' :: cs => digits? 8 cs
  | '0' :: 'b' :: cs | '0' :: 'B' :: cs => digits? 2 cs
  | cs => digits? 10 cs

/-- An integer of 64 bits, with or without a sign. -/
def freeInteger? (cs : List Char) : Option Int :=
  let (negative, digits) := Decimal.takeSign cs
  (natural? digits).bind fun n =>
    if negative then if -(n : Int) < Decimal.minInt64 then none else some (-n)
    else if n ≤ Decimal.maxNat64 then some n else none

/-- The name of a number that is not finite. -/
def nameOfNonFinite (x : Float) : String :=
  if x.isNaN then ".nan" else if x < 0 then "-.inf" else ".inf"

/-- The number of a text that is no integer. -/
def freeDecimal? (cs : List Char) : Option Float :=
  let text := String.ofList cs
  if sameAs text [".nan", "+.nan", "-.nan"] then some (0.0 / 0.0)
  else if sameAs text [".inf", "+.inf"] then some (1.0 / 0.0)
  else if sameAs text ["-.inf"] then some (-1.0 / 0.0)
  else Decimal.readFloat? cs

/-- The value of a scalar that was written without quotes. Blanks around it do not count. -/
def plainValue (text : String) : Json :=
  let text := String.ofList (text.toList.reverse.dropWhile (· == ' ')).reverse
  let core := trim text
  if text.isEmpty || text == "~" || sameName text "null" then .null
  else
    match truth? core, freeInteger? core.toList, freeDecimal? core.toList with
    | some b, _, _ => .bool b
    | none, some n, _ => .integer n
    | none, none, some x =>
      if Binary64.isFinite x then .decimal x else .string (nameOfNonFinite x)
    | none, none, none => .string text

end FilterSql.Yaml
