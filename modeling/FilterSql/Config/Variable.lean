import FilterSql.Decimal.Reader
import FilterSql.Json.Value
import FilterSql.Text.Blank
import FilterSql.Text.Hex

/-!
# Values of environment variables

The text of an environment variable denotes a truth value, a number, a quoted text, a list in square
brackets, or fields `name=value` in braces. Any other text denotes itself.
-/

namespace FilterSql.Config.Variable

open Text

def isGap (c : Char) : Bool :=
  c == ' ' || c == '\t' || c == '\n' || c == '\r' || c.toNat == 0x0C

/-- The characters that end a text without quotes. -/
def isSeparator (c : Char) : Bool := [',', '\x7b', '\x7d', '[', ']'].contains c

def isNameChar (c : Char) : Bool := c.isAlphanum || c == '_' || c == '-'

/-- A text without quotes: a number if it reads as one. -/
def bare (text : String) : Json :=
  let cs := text.toList
  match if cs.contains '.' then Decimal.readFloat? cs else none with
  | some x => .decimal x
  | none =>
    match Decimal.readBoundedNat? Decimal.maxNat64 cs, Decimal.readInt64? cs with
    | some n, _ => .integer n
    | none, some n => .integer n
    | none, none => .string text

/-- What stands before the closing quote, and what follows it. -/
def takeQuoted : List Char → Option (List Char × List Char)
  | [] => none
  | ['\\'] => none
  | '\\' :: c :: cs => (takeQuoted cs).map fun (inner, rest) => ('\\' :: c :: inner, rest)
  | c :: cs =>
    if c == '"' then some ([], cs) else (takeQuoted cs).map fun (inner, rest) => (c :: inner, rest)

/-- The character of a code point. -/
def ofCode? (code : Nat) : Option Char :=
  if code.isValidChar then some (Char.ofNat code) else none

/-- Why a text is not read. -/
inductive Trouble
  /-- The text does not have the form, so it denotes itself. -/
  | malformed
  /-- A quoted text is cut inside a character, so there is no value at all. -/
  | torn
deriving Repr, DecidableEq

abbrev Reading (α : Type) : Type := Except Trouble α

def orMalformed {α : Type} : Option α → Reading α
  | some a => .ok a
  | none => .error .malformed

/-- The character of a code in hexadecimal digits. -/
def coded? (digits : List Char) : Option Char := (readDigits? 16 digits).bind ofCode?

/-- The characters that are meant by the inside of a quoted text. Tabs are the only control characters
in it. -/
def unescape? : List Char → Option (List Char)
  | [] => some []
  | '\\' :: 'b' :: cs => (unescape? cs).map (Char.ofNat 0x08 :: ·)
  | '\\' :: 't' :: cs => (unescape? cs).map ('\t' :: ·)
  | '\\' :: 'n' :: cs => (unescape? cs).map ('\n' :: ·)
  | '\\' :: 'f' :: cs => (unescape? cs).map (Char.ofNat 0x0C :: ·)
  | '\\' :: 'r' :: cs => (unescape? cs).map ('\r' :: ·)
  | '\\' :: '"' :: cs => (unescape? cs).map ('"' :: ·)
  | '\\' :: '\\' :: cs => (unescape? cs).map ('\\' :: ·)
  | '\\' :: 'u' :: a :: b :: c :: d :: cs => do
    return (← coded? [a, b, c, d]) :: (← unescape? cs)
  | '\\' :: 'U' :: a :: b :: c :: d :: e :: f :: g :: h :: cs => do
    return (← coded? [a, b, c, d, e, f, g, h]) :: (← unescape? cs)
  | '\\' :: _ => none
  | c :: cs =>
    if c == '\t' || (0x20 ≤ c.toNat && c.toNat ≠ 0x7F) then (unescape? cs).map (c :: ·) else none

/-- The characters whose encoding fills exactly `size` bytes. -/
def takeBytes? : (size : Nat) → List Char → Option (List Char)
  | 0, _ => some []
  | _, [] => none
  | size, c :: cs =>
    if c.utf8Size ≤ size then (takeBytes? (size - c.utf8Size) cs).map (c :: ·) else none

/-- The text that is meant by the inside of quotes. Up to the first escape as many bytes count as there
are characters. -/
def unquote (inner : List Char) : Reading String := do
  let plain := inner.takeWhile (· != '\\')
  let escaped := inner.dropWhile (· != '\\')
  let start ← orMalformed (unescape? plain)
  if escaped.isEmpty then return String.ofList start
  match takeBytes? start.length start with
  | none => throw .torn
  | some start => return String.ofList (start ++ (← orMalformed (unescape? escaped)))

def quoted (cs : List Char) : Reading (String × List Char) := do
  let (inner, rest) ← orMalformed (takeQuoted cs)
  return (← unquote inner, rest)

/-- The name of a field, with or without quotes. -/
def fieldName : List Char → Reading (String × List Char)
  | '"' :: cs => quoted cs
  | cs =>
    let name := cs.takeWhile isNameChar
    if name.isEmpty then throw .malformed
    else return (String.ofList name, cs.dropWhile isNameChar)

mutual

/-- A value and what follows it; `fuel` bounds the steps. -/
def value : (fuel : Nat) → List Char → Reading (Json × List Char)
  | 0, _ => throw .malformed
  | fuel + 1, cs => do
    let cs := cs.dropWhile isGap
    let (v, rest) ←
      if "true".toList.isPrefixOf cs then pure (.bool true, cs.drop 4)
      else if "false".toList.isPrefixOf cs then pure (.bool false, cs.drop 5)
      else
        match cs with
        | '\x7b' :: rest => (fields fuel rest).map fun (fields, rest) => (.object fields, rest)
        | '[' :: rest => (items fuel rest).map fun (items, rest) => (.array items, rest)
        | '"' :: rest => (quoted rest).map fun (text, rest) => (.string text, rest)
        | '\'' :: c :: '\'' :: rest => pure (.string (String.singleton c), rest)
        | '\'' :: _ => throw .malformed
        | _ =>
          pure (bare (trim (String.ofList (cs.takeWhile (!isSeparator ·)))),
            cs.dropWhile (!isSeparator ·))
    return (v, rest.dropWhile isGap)

/-- The items of a list up to its closing bracket. A comma may stand after the last one. -/
def items : (fuel : Nat) → List Char → Reading (List Json × List Char)
  | 0, _ => throw .malformed
  | _ + 1, ']' :: rest => return ([], rest)
  | fuel + 1, cs => do
    let (v, rest) ← value fuel cs
    match rest with
    | ',' :: more => (items fuel more).map fun (vs, rest) => (v :: vs, rest)
    | ']' :: rest => return ([v], rest)
    | _ => throw .malformed

/-- The fields up to the closing brace. A comma may stand after the last one. -/
def fields : (fuel : Nat) → List Char → Reading (List (String × Json) × List Char)
  | 0, _ => throw .malformed
  | _ + 1, '\x7d' :: rest => return ([], rest)
  | fuel + 1, cs => do
    let (name, rest) ← fieldName (cs.dropWhile isGap)
    match rest.dropWhile isGap with
    | '=' :: rest =>
      let (v, rest) ← value fuel rest
      match rest with
      | ',' :: more => (fields fuel more).map fun (others, rest) => ((name, v) :: others, rest)
      | '\x7d' :: rest => return ([(name, v)], rest)
      | _ => throw .malformed
    | _ => throw .malformed

end

/-- The value that a text denotes, unless it is torn. Every other step takes a character, which bounds
the steps. -/
def read? (text : String) : Option Json :=
  let cs := text.toList
  match value (2 * cs.length + 3) cs with
  | .ok (v, []) => some v
  | .error .torn => none
  | _ => some (.string text)

end FilterSql.Config.Variable
