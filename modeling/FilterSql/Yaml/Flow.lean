import FilterSql.Json.Reader
import FilterSql.Yaml.Scalar

/-!
# Settings as a document

A document of settings has the look of JSON, and lines matter in it: a name stands on one line with the
colon after it, at most 1024 characters before it, and tabs do not indent what is outside all brackets.
Line breaks in a quoted text are folded. Lists and objects are nested at most 128 deep.

The text is read one character at a time; a `Mode` says where in a token it stands.
-/

namespace FilterSql.Yaml

/-- The characters that a document may hold. -/
def isAllowed (c : Char) : Bool :=
  let n := c.toNat
  n == 0x09 || n == 0x0A || n == 0x0D || (0x20 ≤ n && n ≤ 0x7E) || n == 0x85 ||
    (0xA0 ≤ n && n ≤ 0xFFFD && n != 0xFEFF) || 0x10000 ≤ n

/-- The text with one character for each of the breaks that are alike. -/
def unifyBreaks : List Char → List Char
  | [] => []
  | '\r' :: '\n' :: cs => '\n' :: unifyBreaks cs
  | c :: cs => (if c == '\r' || c.toNat == 0x85 then '\n' else c) :: unifyBreaks cs

/-- A break that is not like the others is kept when it is folded. -/
def isBreak (c : Char) : Bool := c == '\n' || c.toNat == 0x2028 || c.toNat == 0x2029

def isBlank (c : Char) : Bool := c == ' ' || c == '\t'

/-- A place in a text. -/
structure Mark where
  index : Nat := 0
  line : Nat := 0
  column : Nat := 0
deriving Repr, DecidableEq

/-- The place after a character. -/
def Mark.after (m : Mark) (c : Char) : Mark :=
  if isBreak c then ⟨m.index + 1, m.line + 1, 0⟩ else ⟨m.index + 1, m.line, m.column + 1⟩

/-- Whether a name that starts at the first place can have its colon at the second one. -/
def Mark.reaches (name colon : Mark) : Bool :=
  name.line == colon.line && colon.index ≤ name.index + 1024

/-! ## Quoted text -/

/-- Blanks and breaks that were read and not yet given. -/
inductive Gap where
  | none
  | blanks (cs : List Char)
  /-- After a break, which is missing if it was escaped, with the breaks after it. -/
  | breaks (first : Option Char) (more : List Char)
deriving Repr, DecidableEq

/-- What a gap is folded to. -/
def Gap.folded : Gap → List Char
  | .none => []
  | .blanks cs => cs
  | .breaks (some '\n') [] => [' ']
  | .breaks (some '\n') more => more
  | .breaks first more => first.toList ++ more

def Gap.blank (c : Char) : Gap → Gap
  | .none => .blanks [c]
  | .blanks cs => .blanks (cs ++ [c])
  | .breaks first more => .breaks first more

def Gap.newline (c : Char) : Gap → Gap
  | .breaks first more => .breaks first (more ++ [c])
  | _ => .breaks (some c) []

/-- How much of an escape was read: nothing, its backslash, or a code of which `left` digits are
missing. -/
inductive Escape where
  | none
  | started
  | code (left value : Nat)
deriving Repr, DecidableEq

structure Quoted where
  start : Mark
  /-- The characters that were read, backwards. -/
  read : List Char := []
  gap : Gap := .none
  escape : Escape := .none
deriving Repr, DecidableEq

namespace Quoted

def push (q : Quoted) (c : Char) : Quoted := { q with read := c :: q.read, escape := .none }

/-- The character that a letter after a backslash stands for. -/
def named? (c : Char) : Option Char :=
  match c with
  | '0' => some (Char.ofNat 0)
  | 'a' => some (Char.ofNat 7)
  | 'b' => some (Char.ofNat 8)
  | 't' | '\t' => some '\t'
  | 'n' => some '\n'
  | 'v' => some (Char.ofNat 0x0B)
  | 'f' => some (Char.ofNat 0x0C)
  | 'r' => some '\r'
  | 'e' => some (Char.ofNat 0x1B)
  | ' ' => some ' '
  | '"' => some '"'
  | '/' => some '/'
  | '\\' => some '\\'
  | 'N' => some (Char.ofNat 0x85)
  | '_' => some (Char.ofNat 0xA0)
  | 'L' => some (Char.ofNat 0x2028)
  | 'P' => some (Char.ofNat 0x2029)
  | _ => none

/-- Reads the character after a backslash. -/
def afterBackslash (q : Quoted) (c : Char) : Option Quoted :=
  if isBreak c then some { q with gap := .breaks none [], escape := .none }
  else if c == 'x' then some { q with escape := .code 2 0 }
  else if c == 'u' then some { q with escape := .code 4 0 }
  else if c == 'U' then some { q with escape := .code 8 0 }
  else (named? c).map q.push

/-- Reads a digit of a code. A code stands for a character, so half of a pair is none. -/
def digit (q : Quoted) (left value : Nat) (c : Char) : Option Quoted := do
  let value := value * 16 + (← Text.hexValue? c)
  if left ≤ 1 then
    if value.isValidChar then some (q.push (Char.ofNat value)) else none
  else some { q with escape := .code (left - 1) value }

/-- Reads one character, which is not the closing quote. -/
def step (q : Quoted) (c : Char) : Option Quoted :=
  match q.escape with
  | .started => q.afterBackslash c
  | .code left value => q.digit left value c
  | .none =>
    if isBlank c then some { q with gap := q.gap.blank c }
    else if isBreak c then some { q with gap := q.gap.newline c }
    else
      let q := { q with read := q.gap.folded.reverse ++ q.read, gap := .none }
      if c == '\\' then some { q with escape := .started } else some (q.push c)

/-- Whether a character is the closing quote. -/
def isClosing (q : Quoted) (c : Char) : Bool := c == '"' && q.escape == .none

def text (q : Quoted) : String := String.ofList (q.read.reverse ++ q.gap.folded)

end Quoted

/-! ## Tokens -/

inductive Mode where
  | between
  | comment
  | plain (start : Mark) (read : List Char)
  | quoted (q : Quoted)
deriving Repr, DecidableEq

structure State where
  mode : Mode := .between
  mark : Mark := {}
  /-- The number of open brackets. -/
  depth : Nat := 0
  /-- Whether a tab may follow outside all brackets: only after a token on the same line. -/
  tabs : Bool := false
  /-- The start of the scalar that was read last, if nothing was read after it. -/
  name : Option Mark := none
deriving Repr, DecidableEq

/-- Whether three dashes or dots that stand alone start a line: they separate documents. -/
def isSeparator (m : Mark) (cs : List Char) : Bool :=
  m.column == 0 && ["---", "..."].any fun s =>
    s.toList.isPrefixOf cs && (cs.drop 3).head?.all fun c => isBlank c || isBreak c

/-- The characters of a scalar without quotes. -/
def isPlainChar (c : Char) : Bool := c.isAlphanum || ['-', '+', '.', '_', '~'].contains c

namespace State

def scalar (s : State) (start : Mark) : State :=
  { s with mode := .between, tabs := true, name := some start }

/-- Reads a character between tokens. -/
def stepBetween (s : State) (c : Char) : Option (State × List Json.Token) :=
  let mark (s : State) : Option (State × List Json.Token) :=
    some ({ s with tabs := true, name := none }, [.mark c])
  if c == ' ' then some (s, [])
  else if c == '\t' then if s.tabs || s.depth ≠ 0 then some (s, []) else none
  else if isBreak c then some ({ s with tabs := false }, [])
  else if c == '#' then some ({ s with mode := .comment }, [])
  else if c == '"' then some ({ s with mode := .quoted { start := s.mark } }, [])
  else if c == '\x7b' || c == '[' then mark { s with depth := s.depth + 1 }
  else if c == '\x7d' || c == ']' then mark { s with depth := s.depth - 1 }
  else if c == ',' then mark s
  else if c == ':' then if s.name.any (·.reaches s.mark) then mark s else none
  else if isPlainChar c then some ({ s with mode := .plain s.mark [c] }, [])
  else none

/-- Reads the first of the characters that are left. -/
def step (s : State) (c : Char) (rest : List Char) : Option (State × List Json.Token) :=
  match s.mode with
  | .between => s.stepBetween c
  | .comment => if isBreak c then { s with mode := .between }.stepBetween c else some (s, [])
  | .plain start read =>
    if isPlainChar c then some ({ s with mode := .plain start (c :: read) }, [])
    else do
      let (s, tokens) ← (s.scalar start).stepBetween c
      return (s, .atom (settingOf read.reverse) :: tokens)
  | .quoted q =>
    if isSeparator s.mark (c :: rest) then none
    else if q.isClosing c then some (s.scalar q.start, [.atom (.string q.text)])
    else (q.step c).map fun q => ({ s with mode := .quoted q }, [])

/-- The tokens due at the end of the text. -/
def finish? (s : State) : Option (List Json.Token) :=
  match s.mode with
  | .between | .comment => some []
  | .plain _ read => some [.atom (settingOf read.reverse)]
  | .quoted _ => none

/-- The tokens of what is left of a text. -/
def tokens? (s : State) : List Char → Option (List Json.Token)
  | [] => s.finish?
  | c :: rest => do
    let (next, found) ← s.step c rest
    let others ← tokens? { next with mark := s.mark.after c } rest
    return found ++ others

end State

/-- Reads a document of settings. An empty one is an object without fields. -/
def read? (text : String) : Option Json :=
  if !text.toList.all isAllowed then none
  else
    match State.tokens? {} (unifyBreaks text.toList) with
    | none => none
    | some [] => some (.object [])
    | some ts => Json.ofTokens? 128 ts

end FilterSql.Yaml
