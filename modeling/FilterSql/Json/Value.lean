import FilterSql.Decimal.Layout

/-!
# JSON values and their text

Fields keep their order. Text is written either without blanks or with one item on a line.
-/

namespace FilterSql

inductive Json
  | null
  | bool (b : Bool)
  | integer (n : Int)
  | decimal (x : Float)
  | string (s : String)
  | array (items : List Json)
  | object (fields : List (String × Json))

namespace Json

/-- The value of the last field with a name. -/
def field? (name : String) : Json → Option Json
  | .object fields => (fields.reverse.find? (·.1 == name)).map (·.2)
  | _ => none

/-- The four digits of a character code. -/
def hexDigits (n : Nat) : List Char :=
  let ds := Nat.toDigits 16 n
  List.replicate (4 - ds.length) '0' ++ ds

/-- A character of a string: quotes, backslashes and control characters are escaped. -/
def escapeChar (c : Char) : List Char :=
  if c == '"' then ['\\', '"']
  else if c == '\\' then ['\\', '\\']
  else if c == '\n' then ['\\', 'n']
  else if c == '\t' then ['\\', 't']
  else if c == '\r' then ['\\', 'r']
  else if c.toNat = 0x08 then ['\\', 'b']
  else if c.toNat = 0x0C then ['\\', 'f']
  else if c.toNat < 0x20 then '\\' :: 'u' :: hexDigits c.toNat
  else [c]

def quote (s : String) : String := String.ofList ('"' :: s.toList.flatMap escapeChar ++ ['"'])

/-- Numbers that are not finite have no text of their own. -/
def decimalText (x : Float) : String :=
  if Binary64.isFinite x then String.ofList (Decimal.dataChars x) else "null"

mutual

/-- The value without blanks. -/
def compact : Json → String
  | .null => "null"
  | .bool b => if b then "true" else "false"
  | .integer n => toString n
  | .decimal x => decimalText x
  | .string s => quote s
  | .array items => "[" ++ ",".intercalate (compactItems items) ++ "]"
  | .object fields => "\x7b" ++ ",".intercalate (compactFields fields) ++ "\x7d"

def compactItems : List Json → List String
  | [] => []
  | v :: vs => v.compact :: compactItems vs

def compactFields : List (String × Json) → List String
  | [] => []
  | (name, v) :: rest => (quote name ++ ":" ++ v.compact) :: compactFields rest

end

/-- Items on lines of their own, two blanks further in than `indent`. -/
def block (indent : Nat) (opening closing : String) (items : List String) : String :=
  if items.isEmpty then opening ++ closing
  else
    let margin := "\n" ++ String.ofList (List.replicate (indent + 2) ' ')
    opening ++ margin ++ ("," ++ margin).intercalate items ++ "\n" ++
      String.ofList (List.replicate indent ' ') ++ closing

mutual

/-- The value with one item on a line. -/
def pretty (indent : Nat) : Json → String
  | .null => "null"
  | .bool b => if b then "true" else "false"
  | .integer n => toString n
  | .decimal x => decimalText x
  | .string s => quote s
  | .array items => block indent "[" "]" (prettyItems (indent + 2) items)
  | .object fields => block indent "\x7b" "\x7d" (prettyFields (indent + 2) fields)

def prettyItems (indent : Nat) : List Json → List String
  | [] => []
  | v :: vs => v.pretty indent :: prettyItems indent vs

def prettyFields (indent : Nat) : List (String × Json) → List String
  | [] => []
  | (name, v) :: rest => (quote name ++ ": " ++ v.pretty indent) :: prettyFields indent rest

end

end Json

end FilterSql
