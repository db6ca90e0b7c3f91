import FilterSql.Decimal.Reader
import FilterSql.Json.Value
import FilterSql.Parser
import FilterSql.Text.Hex

/-!
# Reading JSON

The text is cut into tokens first. A number without a point and an exponent is an integer.
-/

namespace FilterSql.Json

inductive Token
  | mark (c : Char)
  | atom (value : Json)

def isBlank (c : Char) : Bool := c == ' ' || c == '\n' || c == '\r' || c == '\t'

/-- The number of four hexadecimal digits, and what follows them. -/
def takeHex4 : List Char → Option (Nat × List Char)
  | a :: b :: c :: d :: rest => do
    let a ← Text.hexValue? a
    let b ← Text.hexValue? b
    let c ← Text.hexValue? c
    let d ← Text.hexValue? d
    return (((a * 16 + b) * 16 + c) * 16 + d, rest)
  | _ => none

/-- The character after a backslash, and how many characters the escape takes. Characters beyond the
first plane are written as two halves. -/
def unescape? : List Char → Option (Char × Nat)
  | 'n' :: _ => some ('\n', 1)
  | 't' :: _ => some ('\t', 1)
  | 'r' :: _ => some ('\r', 1)
  | 'b' :: _ => some (Char.ofNat 0x08, 1)
  | 'f' :: _ => some (Char.ofNat 0x0C, 1)
  | 'u' :: cs => do
    let (high, rest) ← takeHex4 cs
    if 0xD800 ≤ high && high < 0xDC00 then
      match rest with
      | '\\' :: 'u' :: more => do
        let (low, _) ← takeHex4 more
        if 0xDC00 ≤ low && low < 0xE000 then
          some (Char.ofNat (0x10000 + (high - 0xD800) * 0x400 + (low - 0xDC00)), 11)
        else none
      | _ => none
    else if 0xDC00 ≤ high && high < 0xE000 then none
    else some (Char.ofNat high, 5)
  | c :: _ => if c == '"' || c == '\\' || c == '/' then some (c, 1) else none
  | [] => none

/-- The characters of a string up to its closing quote, after passing over `skip` characters, and
what follows the quote. -/
def takeString (skip : Nat) : List Char → Option (List Char × List Char)
  | [] => none
  | c :: cs =>
    match skip with
    | skip + 1 => takeString skip cs
    | 0 =>
      if c == '"' then some ([], cs)
      else if c == '\\' then do
        let (d, n) ← unescape? cs
        let (ds, rest) ← takeString n cs
        return (d :: ds, rest)
      else do
        let (ds, rest) ← takeString 0 cs
        return (c :: ds, rest)

theorem length_of_takeString {skip : Nat} {cs ds rest : List Char}
    (h : takeString skip cs = some (ds, rest)) : rest.length < cs.length := by
  induction cs generalizing skip ds rest with
  | nil => simp [takeString] at h
  | cons c cs ih =>
    unfold takeString at h
    simp only [List.length_cons]
    split at h
    · have := ih h
      omega
    · split at h
      · simp only [Option.some.injEq, Prod.mk.injEq] at h
        simp [h.2]
      · split at h
        · simp only [Option.bind_eq_bind, Option.bind_eq_some_iff] at h
          obtain ⟨_, _, ⟨_, _⟩, tail, eq⟩ := h
          have := ih tail
          simp only [Option.pure_def, Option.some.injEq, Prod.mk.injEq] at eq
          grind
        · simp only [Option.bind_eq_bind, Option.bind_eq_some_iff] at h
          obtain ⟨⟨_, _⟩, tail, eq⟩ := h
          have := ih tail
          simp only [Option.pure_def, Option.some.injEq, Prod.mk.injEq] at eq
          grind

/-- Digits without a leading zero, and digits after every point and exponent mark. -/
def isNumberText (cs : List Char) : Bool :=
  let body := match cs with
    | '-' :: rest => rest
    | _ => cs
  let whole := body.takeWhile Char.isDigit
  let places := match body.dropWhile Char.isDigit with
    | '.' :: rest => !(rest.takeWhile Char.isDigit).isEmpty
    | _ => true
  !whole.isEmpty && (whole.length == 1 || whole.head? != some '0') && places

/-- The value of a bare word or number. -/
def atom? (cs : List Char) : Option Json :=
  let text := String.ofList cs
  if text == "null" then some .null
  else if text == "true" then some (.bool true)
  else if text == "false" then some (.bool false)
  else if !isNumberText cs then none
  else
    (Decimal.readWritten? cs).map fun d =>
      if cs.any (fun c => c == '.' || c == 'e' || c == 'E') || (d.negative && d.digits = 0) then
        .decimal d.toFloat
      else .integer (if d.negative then -(d.digits : Int) else d.digits)

def isAtomChar (c : Char) : Bool := c.isAlphanum || c == '-' || c == '+' || c == '.'

def isMark (c : Char) : Bool := ['\x7b', '\x7d', '[', ']', ':', ','].contains c

/-- The tokens of a text. -/
def tokens? (cs : List Char) : Option (List Token) :=
  match cs with
  | [] => some []
  | c :: rest =>
    if isBlank c then tokens? rest
    else if isMark c then (tokens? rest).map (.mark c :: ·)
    else if c == '"' then
      match _ran : takeString 0 rest with
      | none => none
      | some (ds, after) => (tokens? after).map (.atom (.string (String.ofList ds)) :: ·)
    else if isAtomChar c then
      match atom? (c :: rest.takeWhile isAtomChar) with
      | none => none
      | some v => (tokens? (rest.dropWhile isAtomChar)).map (.atom v :: ·)
    else none
termination_by cs.length
decreasing_by
  · simp
  · simp
  · have := length_of_takeString _ran
    simp only [List.length_cons]
    omega
  · have := (List.dropWhile_suffix (l := rest) isAtomChar).length_le
    simp only [List.length_cons]
    omega

abbrev Reader (α : Type) := Parser Token Unit α

def isComma : Token → Bool
  | .mark ',' => true
  | _ => false

/-- A name, a colon, and a value. -/
def field (value : Reader Json) : Reader (String × Json) where
  run
    | .atom (.string name) :: .mark ':' :: ts =>
      match value.run ts with
      | .ok (v, rest) => .ok ((name, v), rest)
      | .error e => .error e
    | _ => .error ()
  consumes {ts a rest} h := by
    split at h
    · split at h
      · next ran =>
        have := value.consumes ran
        simp only [Except.ok.injEq, Prod.mk.injEq] at h
        simp only [List.length_cons]
        grind
      · simp at h
    · simp at h

/-- At least one item, commas between the items, and the mark that closes them. -/
def someItems {α : Type} (item : Reader α) (closing : Char) (ts : List Token) :
    Except Unit (List α × List Token) :=
  match (Parser.separated isComma item).run ts with
  | .ok ((first, others), .mark c :: rest) =>
    if c = closing then .ok (first :: others, rest) else .error ()
  | _ => .error ()

theorem length_of_someItems {α : Type} {item : Reader α} {closing : Char} {ts rest : List Token}
    {as : List α} (h : someItems item closing ts = .ok (as, rest)) : rest.length < ts.length := by
  unfold someItems at h
  split at h
  · next ran =>
    have := (Parser.separated isComma item).consumes ran
    split at h
    · simp only [Except.ok.injEq, Prod.mk.injEq] at h
      simp only [List.length_cons] at this
      grind
    · simp at h
  · simp at h

/-- Any number of items, and the mark that closes them. -/
def itemsRest {α : Type} (item : Reader α) (closing : Char) :
    List Token → Except Unit (List α × List Token)
  | [] => .error ()
  | .mark c :: ts =>
    if c = closing then .ok ([], ts) else someItems item closing (.mark c :: ts)
  | ts => someItems item closing ts

theorem length_of_itemsRest {α : Type} {item : Reader α} {closing : Char} {ts rest : List Token}
    {as : List α} (h : itemsRest item closing ts = .ok (as, rest)) : rest.length < ts.length := by
  unfold itemsRest at h
  split at h
  · simp at h
  · split at h
    · simp only [Except.ok.injEq, Prod.mk.injEq] at h
      simp [h.2]
    · exact length_of_someItems h
  · exact length_of_someItems h

/-- A value, given a reader for the values inside it. -/
def valueWith (inner : Reader Json) : Reader Json where
  run
    | .atom v :: ts => .ok (v, ts)
    | .mark '[' :: ts =>
      match itemsRest inner ']' ts with
      | .ok (items, rest) => .ok (.array items, rest)
      | .error e => .error e
    | .mark '\x7b' :: ts =>
      match itemsRest (field inner) '\x7d' ts with
      | .ok (fields, rest) => .ok (.object fields, rest)
      | .error e => .error e
    | _ => .error ()
  consumes {ts a rest} h := by
    split at h
    · simp only [Except.ok.injEq, Prod.mk.injEq] at h
      simp [h.2]
    · split at h
      · next ran =>
        have := length_of_itemsRest ran
        simp only [Except.ok.injEq, Prod.mk.injEq] at h
        simp only [List.length_cons]
        grind
      · simp at h
    · split at h
      · next ran =>
        have := length_of_itemsRest ran
        simp only [Except.ok.injEq, Prod.mk.injEq] at h
        simp only [List.length_cons]
        grind
      · simp at h
    · simp at h

/-- A value without others inside it. -/
def atom : Reader Json where
  run
    | .atom v :: ts => .ok (v, ts)
    | _ => .error ()
  consumes {ts a rest} h := by
    split at h
    · simp only [Except.ok.injEq, Prod.mk.injEq] at h
      simp [h.2]
    · simp at h

/-- A value with lists and objects nested at most `depth` deep. -/
def value : (depth : Nat) → Reader Json
  | 0 => atom
  | depth + 1 => valueWith (value depth)

/-- The value that all of some tokens make up. -/
def ofTokens? (depth : Nat) (ts : List Token) : Option Json :=
  match (value depth).run ts with
  | .ok (v, []) => some v
  | _ => none

/-- Reads a text that holds one value. Every level of nesting has a mark of its own, so there are no
more levels than tokens. -/
def read? (text : String) : Option Json :=
  (tokens? text.toList).bind fun ts => ofTokens? ts.length ts

end FilterSql.Json
