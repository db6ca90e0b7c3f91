import FilterSql.Text.Blank

/-!
# Filter expressions

The tree of a filter. It keeps the text of its leaves: a `primary` is a literal or a property path,
and a call keeps the text it was written as.
-/

namespace FilterSql.Filter

inductive Connective
  | and
  | or
deriving Repr, DecidableEq

def Connective.text : Connective → String
  | .and => "and"
  | .or => "or"

def Connective.sql : Connective → String
  | .and => "AND"
  | .or => "OR"

inductive Expr
  /-- A literal or a property path. -/
  | primary (text : String)
  /-- A function call; `raw` is its whole text. -/
  | call (name : String) (args : List Expr) (raw : String)
  | not (operand : Expr)
  | group (inner : Expr)
  | comparison (op : String) (left right : Expr)
  | logical (op : Connective) (left right : Expr)
  | inList (left : Expr) (values : List String)
deriving Repr, BEq, Inhabited

namespace Expr

/-- The expression as filter text. -/
def text : Expr → String
  | .primary t => t
  | .call _ _ raw => raw
  | .not e => "not " ++ e.text
  | .group e => "(" ++ e.text ++ ")"
  | .comparison op l r => l.text ++ " " ++ op ++ " " ++ r.text
  | .logical op l r => l.text ++ " " ++ op.text ++ " " ++ r.text
  | .inList l values => l.text ++ " in (" ++ ",".intercalate values ++ ")"

/-- A call whose text is made from the texts of its arguments. -/
def callOf (name : String) (args : List Expr) : Expr :=
  .call name args (name ++ "(" ++ ",".intercalate (args.map text) ++ ")")

def isLogical : Expr → Bool
  | .logical _ _ _ => true
  | _ => false

/-- The expression without the groups around it. -/
def ungrouped : Expr → Expr
  | .group e => e.ungrouped
  | e => e

def isCall : Expr → Bool
  | .call _ _ _ => true
  | _ => false

/-- The text between the outer parentheses of a call, if it is not blank. It stands in for an argument
that the tree of the call does not have. -/
def recoveredArgument? (raw : String) : Option String :=
  match raw.toList.dropWhile (· != '(') with
  | [] => none
  | _ :: inner =>
    match inner.reverse.dropWhile (· != ')') with
    | [] => none
    | _ :: reversed =>
      let text := Text.trim (String.ofList reversed.reverse)
      if text.isEmpty then none else some text

end Expr

end FilterSql.Filter
