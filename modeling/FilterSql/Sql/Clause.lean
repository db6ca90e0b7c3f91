/-!
# Clauses

The text of a condition, in which placeholders for parameters are kept apart from characters until
it is rendered. A placeholder is written as a sign, the letter `p`, and its number.
-/

namespace FilterSql.Sql

/-- A character of the text, or the placeholder of a parameter. -/
inductive Symbol
  | char (c : Char)
  | param (number : Nat)
deriving Repr, DecidableEq

abbrev Clause := List Symbol

/-- The name of a parameter. -/
def parameterName (sigil : Char) (number : Nat) : String :=
  String.ofList (sigil :: 'p' :: Nat.toDigits 10 number)

def Symbol.render (sigil : Char) : Symbol → List Char
  | .char c => [c]
  | .param n => (parameterName sigil n).toList

namespace Clause

def ofString (s : String) : Clause := s.toList.map .char

/-- The clause as text. -/
def render (sigil : Char) (c : Clause) : String := String.ofList (c.flatMap (·.render sigil))

/-- The numbers of the parameters that a clause mentions, in order. -/
def params (c : Clause) : List Nat :=
  c.filterMap fun
    | .param n => some n
    | .char _ => none

def parenthesized (c : Clause) : Clause := ofString "(" ++ c ++ ofString ")"

end Clause

/-- A compiled operand: the keyword `NULL`, a single parameter, or a clause. -/
inductive Fragment
  | null
  | param (number : Nat)
  | clause (c : Clause)
deriving Repr, DecidableEq

def Fragment.toClause : Fragment → Clause
  | .null => .ofString "NULL"
  | .param n => [.param n]
  | .clause c => c

end FilterSql.Sql
