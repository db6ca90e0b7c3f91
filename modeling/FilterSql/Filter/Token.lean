import FilterSql.Filter.Literal
import FilterSql.Text.Letter

/-!
# Tokens of a filter

A filter text is cut into tokens. Each token keeps the span of bytes that it takes in the text, so the
text of a run of tokens can be cut out of the filter, blanks included.

The scan goes through the text character by character and counts their bytes. Each token takes at
least one character, and the scan ends because the rest gets shorter.
-/

namespace FilterSql.Filter

open Text

inductive SyntaxError
  | unexpectedToken (token : String)
  | failedToParse
  | tooDeep (limit : Nat)
deriving Repr, DecidableEq

def SyntaxError.message : SyntaxError → String
  | .unexpectedToken token => s!"Unexpected token found: '{token}'."
  | .failedToParse => "Failed to parse filter query."
  | .tooDeep limit => s!"Filter expression is nested deeper than {limit} levels."

inductive TokenKind
  | word
  | literal
  | openParen
  | closeParen
  | comma
deriving Repr, DecidableEq

/-- The bytes of a text from `start` up to `stop`. -/
structure Span (text : String) where
  start : Nat
  stop : Nat
deriving Repr, DecidableEq

/-- What the span cuts out of the text, if both of its ends stand between characters. -/
def Span.part? {text : String} (span : Span text) : Option String := do
  let first ← text.pos? ⟨span.start⟩
  let last ← text.pos? ⟨span.stop⟩
  if first ≤ last then some (text.extract first last) else none

/-- The text that the span cuts out. -/
def Span.cut {text : String} (span : Span text) : String := span.part?.getD ""

/-- A token and its place. -/
structure Token (π : Type) where
  place : π
  kind : TokenKind
  text : String
deriving Repr, DecidableEq

def Token.isKeyword {π : Type} (t : Token π) (keyword : String) : Bool :=
  t.kind == .word && sameName t.text keyword

/-- Places that tell the text of a run of tokens. -/
class Place (π : Type) where
  /-- The text that tokens were read from which follow each other. -/
  textOf : List (Token π) → String

/-- The text of a run goes from the start of its first token to the end of its last one. -/
instance (text : String) : Place (Span text) where
  textOf
    | [] => ""
    | t :: ts =>
      let last := (t :: ts).getLast (List.cons_ne_nil t ts)
      (Span.mk t.place.start last.place.stop : Span text).cut

/-! ## Scanning -/

def isWordStart (c : Char) : Bool := isLetter c || c == '_'

def isWordChar (c : Char) : Bool := isLetterOrNumber c || c == '_' || c == '/'

def isNumberChar (c : Char) : Bool :=
  c.isAlphanum || c == '.' || c == ':' || c == '+' || c == '-'

/-- A digit, or a sign in front of one. -/
def startsNumber (c : Char) (rest : List Char) : Bool :=
  c.isDigit || ((c == '-' || c == '+') && rest.head?.any Char.isDigit)

/-- How many characters a quoted text takes after its opening quote; nothing if it does not end. -/
def quotedLength? : List Char → Option Nat
  | [] => none
  | [c] => if c == '\'' then some 1 else none
  | c :: d :: cs =>
    if c == '\'' then
      if d == '\'' then (quotedLength? cs).map (· + 2) else some 1
    else (quotedLength? (d :: cs)).map (· + 1)

/-- The text of something that is no token: up to a blank, a quote, or a mark. -/
def strayText (c : Char) (rest : List Char) : String :=
  String.ofList (c :: rest.takeWhile fun d =>
    !(isBlank d || d == '(' || d == ')' || d == ',' || d == '\''))

/-- A quoted text whose opening quote follows `before` characters of the token. -/
def quotedToken (before : Nat) (afterQuote : List Char) : Except SyntaxError (TokenKind × Nat) :=
  match quotedLength? afterQuote with
  | some n => .ok (.literal, before + n)
  | none => .error (.unexpectedToken (String.ofList ('\'' :: afterQuote)))

/-- The kind of the token that starts with `c`, and how many characters of `rest` belong to it. -/
def tokenAt (c : Char) (rest : List Char) : Except SyntaxError (TokenKind × Nat) :=
  if c == '(' then .ok (.openParen, 0)
  else if c == ')' then .ok (.closeParen, 0)
  else if c == ',' then .ok (.comma, 0)
  else if c == '\'' then quotedToken 0 rest
  else if startsNumber c rest then
    let run := rest.takeWhile isNumberChar
    let text := String.ofList (c :: run)
    if Literal.isLiteral text then .ok (.literal, run.length) else .error (.unexpectedToken text)
  else if isWordStart c then
    let run := rest.takeWhile isWordChar
    let word := String.ofList (c :: run)
    match rest.dropWhile isWordChar with
    | '\'' :: after =>
      if sameName word "geography" || sameName word "geometry" then
        quotedToken (run.length + 1) after
      else .ok (.word, run.length)
    | _ => .ok (.word, run.length)
  else .error (.unexpectedToken (strayText c rest))

/-- A point in a text: the number of bytes before it, and the characters after it. -/
structure Cursor where
  offset : Nat
  rest : List Char

namespace Cursor

/-- Takes a character, if there is one. -/
def bump (k : Cursor) : Cursor :=
  match k.rest with
  | [] => k
  | c :: cs => ⟨k.offset + c.utf8Size, cs⟩

/-- Takes so many characters. -/
def bumps (k : Cursor) : Nat → Cursor
  | 0 => k
  | n + 1 => k.bump.bumps n

/-- Takes the blanks in front of a text. -/
def skipBlanks (offset : Nat) : List Char → Cursor
  | [] => ⟨offset, []⟩
  | c :: cs => if isBlank c then skipBlanks (offset + c.utf8Size) cs else ⟨offset, c :: cs⟩

theorem length_skipBlanks (offset : Nat) (cs : List Char) :
    (skipBlanks offset cs).rest.length ≤ cs.length := by
  induction cs generalizing offset with
  | nil => exact Nat.le_refl 0
  | cons c cs ih =>
    rw [skipBlanks]
    split
    · exact Nat.le_succ_of_le (ih _)
    · exact Nat.le_refl _

theorem length_bumps (k : Cursor) (n : Nat) : (k.bumps n).rest.length = k.rest.length - n := by
  induction n generalizing k with
  | zero => rfl
  | succ n ih =>
    have next : k.bump.rest.length = k.rest.length - 1 := by
      rw [bump]
      split <;> simp [*]
    rw [bumps, ih, next]
    omega

end Cursor

/-- The tokens after a point in a text. -/
def scan (text : String) (k : Cursor) : Except SyntaxError (List (Token (Span text))) :=
  let start := Cursor.skipBlanks k.offset k.rest
  match _rest : start.rest with
  | [] => .ok []
  | c :: rest =>
    match tokenAt c rest with
    | .error e => .error e
    | .ok (kind, n) =>
      let stop := start.bumps (n + 1)
      let span : Span text := ⟨start.offset, stop.offset⟩
      match scan text stop with
      | .error e => .error e
      | .ok ts => .ok (⟨span, kind, span.cut⟩ :: ts)
termination_by k.rest.length
decreasing_by
  have shorter := Cursor.length_skipBlanks k.offset k.rest
  have length := congrArg List.length _rest
  rw [Cursor.length_bumps]
  simp only [List.length_cons, start] at length ⊢
  omega

/-- The tokens of a text. -/
def tokenize (text : String) : Except SyntaxError (List (Token (Span text))) :=
  scan text ⟨0, text.toList⟩

end FilterSql.Filter
