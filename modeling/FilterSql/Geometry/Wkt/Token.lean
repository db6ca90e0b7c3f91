import FilterSql.Decimal.Reader

/-!
# Tokens of well-known text

Parentheses and commas stand for themselves; anything else runs up to a blank, a parenthesis or a
comma, and is a number if it starts like one, else a word. A run that starts like a number and is none
becomes an `invalid` token, so that it matters only where it is reached.
-/

namespace FilterSql.Geometry.Wkt

inductive Token
  | openParen
  | closeParen
  | comma
  | number (value : Float)
  | word (text : String)
  | invalid

def isBlank (c : Char) : Bool := c == ' ' || c == '\n' || c == '\r' || c == '\t'

def isMark (c : Char) : Bool := c == '(' || c == ')' || c == ','

def endsRun (c : Char) : Bool := isBlank c || isMark c

def startsNumber (c : Char) : Bool := c.isDigit || c == '.' || c == '-' || c == '+'

/-- The token of a run of characters. A plus sign in front of a number is dropped. -/
def Token.ofRun (c : Char) (rest : List Char) : Token :=
  if startsNumber c then
    match Decimal.readFloat? (if c == '+' then rest else c :: rest) with
    | some x => .number x
    | none => .invalid
  else .word (String.ofList (c :: rest))

def tokens (cs : List Char) : List Token :=
  match cs with
  | [] => []
  | c :: rest =>
    if isBlank c then tokens rest
    else if c == '(' then .openParen :: tokens rest
    else if c == ')' then .closeParen :: tokens rest
    else if c == ',' then .comma :: tokens rest
    else
      .ofRun c (rest.takeWhile (!endsRun ·)) :: tokens (rest.dropWhile (!endsRun ·))
termination_by cs.length
decreasing_by
  all_goals simp only [List.length_cons]
  all_goals have := (List.dropWhile_suffix (l := rest) (!endsRun ·)).length_le
  all_goals omega

end FilterSql.Geometry.Wkt
