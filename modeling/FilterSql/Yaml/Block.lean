import FilterSql.Yaml.Scalar

/-!
# Values as indented blocks

A value as text with one field or item on a line, where indentation shows what belongs together:
fields are written `name: value`, and items follow a dash. A text is written without quotes if it looks
like a word, and as in JSON otherwise.

What looks like a word when it is written may still stand for something else when it is read:
`denoted` says what the written text stands for.
-/

namespace FilterSql.Yaml

open Text

/-! ## Texts without quotes -/

/-- Names of the undefined value and of truth values are no words. -/
def isReserved (text : String) : Bool :=
  sameAs text ["null", "true", "false", "~", "yes", "no", "on", "off", "y", "n"]

def isDigitOrGap (c : Char) : Bool := c.isDigit || c == '_'

/-- Nothing, or the mark of an exponent with an optional sign and digits. -/
def isExponent : List Char → Bool
  | [] => true
  | e :: cs =>
    let digits := (Decimal.takeSign cs).2
    (e == 'e' || e == 'E') && !digits.isEmpty && digits.all isDigitOrGap

/-- Whether a text looks like a number, which it need not be. -/
def isNumeric (text : String) : Bool :=
  let body := (Decimal.takeSign text.toList).2
  let based (isDigit : Char → Bool) (cs : List Char) : Bool :=
    !cs.isEmpty && cs.all fun c => isDigit c || c == '_'
  let decimal := match body with
    | '.' :: c :: cs => c.isDigit && isExponent (cs.dropWhile isDigitOrGap)
    | c :: cs =>
      c.isDigit &&
        match cs.dropWhile isDigitOrGap with
        | '.' :: cs => isExponent (cs.dropWhile isDigitOrGap)
        | cs => isExponent cs
    | [] => false
  let other := match body with
    | '0' :: 'x' :: cs => based (fun c => (hexValue? c).isSome) cs
    | '0' :: 'o' :: cs => based (fun c => '0' ≤ c && c ≤ '7') cs
    | '0' :: 'b' :: cs => based (fun c => c == '0' || c == '1') cs
    | _ => sameAs (String.ofList body) [".inf", ".nan"]
  decimal || other

/-- The characters that start something else than a word. -/
def isIndicator (c : Char) : Bool :=
  c.isWhitespace || c.toNat == 0x60 || "-?:[]\x7b\x7d#&*!|>'\"%@".toList.contains c

/-- A control character. -/
def isControl (c : Char) : Bool := c.toNat < 0x20 || (0x7F ≤ c.toNat && c.toNat < 0xA0)

/-- A colon before a space or at the end. -/
def hasColon : List Char → Bool
  | [] => false
  | [c] => c == ':'
  | c :: d :: cs => (c == ':' && d == ' ') || hasColon (d :: cs)

/-- Whether a text is written without quotes. -/
def isPlain (text : String) : Bool :=
  let cs := text.toList
  !cs.isEmpty && !cs.head?.any isIndicator && !cs.any (fun c => isControl c || c == '#') &&
    !hasColon cs && !isReserved text && !isNumeric text

def textOf (text : String) : String := if isPlain text then text else Json.quote text

/-! ## Lines -/

def isScalar : Json → Bool
  | .array (_ :: _) | .object (_ :: _) => false
  | _ => true

def scalarText : Json → String
  | .string s => textOf s
  | v => v.compact

def indented (lines : List String) : List String := lines.map ("  " ++ ·)

/-- The lines of an item: a dash, and the lines of its value beside and below it. -/
def itemLines : List String → List String
  | [] => ["-"]
  | first :: rest => ("- " ++ first) :: indented rest

/-- The lines of a field: a scalar beside its name, any other value below it. -/
def fieldLines (name : String) (scalar : Bool) (lines : List String) : List String :=
  if scalar then [textOf name ++ ": " ++ String.join lines]
  else (textOf name ++ ":") :: indented lines

mutual

def blockLines : Json → List String
  | .array (v :: vs) => itemLines (blockLines v) ++ itemsLines vs
  | .object ((name, v) :: rest) => fieldLines name (isScalar v) (blockLines v) ++ fieldsLines rest
  | v => [scalarText v]

def itemsLines : List Json → List String
  | [] => []
  | v :: vs => itemLines (blockLines v) ++ itemsLines vs

def fieldsLines : List (String × Json) → List String
  | [] => []
  | (name, v) :: rest => fieldLines name (isScalar v) (blockLines v) ++ fieldsLines rest

end

/-- The value as lines, each of them ended. -/
def blockText (v : Json) : String := String.join ((blockLines v).map (· ++ "\n"))

/-! ## What the lines denote -/

mutual

/-- The value that the lines of a value stand for: texts without quotes are read anew. -/
def denoted : Json → Json
  | .string s => if isPlain s then plainValue s else .string s
  | .array items => .array (denotedItems items)
  | .object fields => .object (denotedFields fields)
  | v => v

def denotedItems : List Json → List Json
  | [] => []
  | v :: vs => denoted v :: denotedItems vs

def denotedFields : List (String × Json) → List (String × Json)
  | [] => []
  | (name, v) :: rest => (name, denoted v) :: denotedFields rest

end

end FilterSql.Yaml
