import FilterSql.Filter.Expr
import FilterSql.Filter.Token
import FilterSql.Parser

/-!
# Reading filter expressions

The grammar, loosest binding first:

```text
expr       := conjunct ("or" conjunct)*
conjunct   := unary ("and" unary)*
unary      := "not" unary | comparison
comparison := primary (operator primary | "in" "(" value ("," value)* ")")?
primary    := "(" expr ")" | word "(" (expr ("," expr)*)? ")" | word | literal
```

Keywords and operators are matched ignoring ASCII case. Negations, groups and calls may be nested up
to a fixed depth; the readers below are defined by the depth that is left.
-/

namespace FilterSql.Filter

open Text

/-- The deepest nesting of negations, groups and calls. -/
def maxDepth : Nat := 64

def comparisonOperators : List String := ["eq", "ne", "gt", "ge", "lt", "le"]

def reservedWords : List String := ["and", "or", "not", "in"]

variable {π : Type}

/-- The operator that a token stands for, in small letters. -/
def Token.comparisonOperator? (t : Token π) : Option String :=
  comparisonOperators.find? t.isKeyword

def Token.isReserved (t : Token π) : Bool := reservedWords.any t.isKeyword

abbrev Reader (π α : Type) := FilterSql.Parser (Token π) SyntaxError α

/-- Takes a token of the given kind. -/
def expect (kind : TokenKind) : List (Token π) → Except SyntaxError (List (Token π))
  | [] => .error .failedToParse
  | t :: ts => if t.kind = kind then .ok ts else .error (.unexpectedToken t.text)

theorem length_of_expect {kind : TokenKind} {ts rest : List (Token π)}
    (h : expect kind ts = .ok rest) :
    rest.length < ts.length := by
  unfold expect at h
  split at h
  · simp at h
  · split at h
    · simp only [Except.ok.injEq] at h
      simp [h]
    · simp at h

def isComma (t : Token π) : Bool := t.kind = .comma

/-- Arguments and the parenthesis that closes them. -/
def arguments (expr : Reader π Expr) (ts : List (Token π)) :
    Except SyntaxError (List Expr × List (Token π)) :=
  if (ts.head?.map (·.kind)) = some .closeParen then .ok ([], ts.drop 1)
  else
    match (Parser.separated isComma expr).run ts with
    | .error e => .error e
    | .ok ((first, others), rest) =>
      match expect .closeParen rest with
      | .error e => .error e
      | .ok rest => .ok (first :: others, rest)

theorem length_of_arguments {expr : Reader π Expr} {ts rest : List (Token π)} {args : List Expr}
    (h : arguments expr ts = .ok (args, rest)) : rest.length ≤ ts.length := by
  unfold arguments at h
  split at h
  · simp only [Except.ok.injEq, Prod.mk.injEq] at h
    simp [← h.2]
  · split at h
    · simp at h
    · next ran =>
      have := (Parser.separated isComma expr).consumes ran
      split at h
      · simp at h
      · next closed =>
        have := length_of_expect closed
        simp only [Except.ok.injEq, Prod.mk.injEq] at h
        grind

section Calls

variable [Place π]

/-- A call of `name`, whose opening parenthesis is `paren`. The text of the call runs from its name
to the parenthesis that closes it. -/
def callRest (expr : Reader π Expr) (name paren : Token π) (ts : List (Token π)) :
    Except SyntaxError (Expr × List (Token π)) :=
  match arguments expr ts with
  | .error e => .error e
  | .ok (args, rest) =>
    let taken := paren :: ts.take (ts.length - rest.length)
    .ok (.call name.text args (Place.textOf (name :: taken)), rest)

/-- An operand. `deeper` reads the expressions one level further down, or fails when there is no level
left. -/
def primaryRun (deeper : Except SyntaxError (Reader π Expr)) :
    List (Token π) → Except SyntaxError (Expr × List (Token π))
  | [] => .error .failedToParse
  | t :: ts =>
    match t.kind with
    | .literal => .ok (.primary t.text, ts)
    | .closeParen | .comma => .error (.unexpectedToken t.text)
    | .openParen =>
      match deeper with
      | .error e => .error e
      | .ok expr =>
        match expr.run ts with
        | .error e => .error e
        | .ok (inner, rest) =>
          match expect .closeParen rest with
          | .error e => .error e
          | .ok rest => .ok (.group inner, rest)
    | .word =>
      if t.isReserved then .error (.unexpectedToken t.text)
      else
        match ts with
        | [] => .ok (.primary t.text, [])
        | p :: after =>
          if p.kind = .openParen then
            match deeper with
            | .error e => .error e
            | .ok expr => callRest expr t p after
          else .ok (.primary t.text, p :: after)

theorem length_of_primaryRun {deeper : Except SyntaxError (Reader π Expr)}
    {ts rest : List (Token π)}
    {e : Expr} (h : primaryRun deeper ts = .ok (e, rest)) : rest.length < ts.length := by
  unfold primaryRun at h
  split at h
  · simp at h
  · next t ts =>
    split at h
    · simp only [Except.ok.injEq, Prod.mk.injEq] at h
      simp [h.2]
    · simp at h
    · simp at h
    · split at h
      · simp at h
      · next expr =>
        split at h
        · simp at h
        · next ran =>
          have := expr.consumes ran
          split at h
          · simp at h
          · next closed =>
            have := length_of_expect closed
            simp only [Except.ok.injEq, Prod.mk.injEq] at h
            simp only [List.length_cons]
            grind
    · split at h
      · simp at h
      · split at h
        · simp only [Except.ok.injEq, Prod.mk.injEq] at h
          simp [← h.2]
        · split at h
          · split at h
            · simp at h
            · unfold callRest at h
              split at h
              · simp at h
              · next args =>
                have := length_of_arguments args
                simp only [Except.ok.injEq, Prod.mk.injEq] at h
                simp only [List.length_cons]
                grind
          · simp only [Except.ok.injEq, Prod.mk.injEq] at h
            simp [← h.2]

def primary (deeper : Except SyntaxError (Reader π Expr)) : Reader π Expr :=
  ⟨primaryRun deeper, length_of_primaryRun⟩

end Calls

/-- A value of a list: any word or literal. -/
def listValue : Reader π String where
  run
    | [] => .error .failedToParse
    | t :: ts =>
      if t.kind = .word ∨ t.kind = .literal then .ok (t.text, ts)
      else .error (.unexpectedToken t.text)
  consumes {ts a rest} h := by
    split at h
    · simp at h
    · split at h
      · simp only [Except.ok.injEq, Prod.mk.injEq] at h
        simp [h.2]
      · simp at h

/-- The parenthesised values of a list, of which there is at least one. -/
def listValues : Reader π (List String) where
  run ts :=
    match expect .openParen ts with
    | .error e => .error e
    | .ok ts =>
      if (ts.head?.map (·.kind)) = some .closeParen then .error .failedToParse
      else
        match (Parser.separated isComma listValue).run ts with
        | .error e => .error e
        | .ok ((first, others), rest) =>
          match expect .closeParen rest with
          | .error e => .error e
          | .ok rest => .ok (first :: others, rest)
  consumes {ts a rest} h := by
    split at h
    · simp at h
    · next opened =>
      have := length_of_expect opened
      split at h
      · simp at h
      · split at h
        · simp at h
        · next ran =>
          have := (Parser.separated isComma listValue).consumes ran
          split at h
          · simp at h
          · next closed =>
            have := length_of_expect closed
            simp only [Except.ok.injEq, Prod.mk.injEq] at h
            grind

/-- What follows the left operand: a comparison, a list, or nothing. -/
def comparisonRest (operand : Reader π Expr) (left : Expr) :
    List (Token π) → Except SyntaxError (Expr × List (Token π))
  | [] => .ok (left, [])
  | t :: ts =>
    match t.comparisonOperator? with
    | some op =>
      match operand.run ts with
      | .error e => .error e
      | .ok (right, rest) => .ok (.comparison op left right, rest)
    | none =>
      if t.isKeyword "in" then
        match listValues.run ts with
        | .error e => .error e
        | .ok (values, rest) => .ok (.inList left values, rest)
      else .ok (left, t :: ts)

theorem length_of_comparisonRest {operand : Reader π Expr} {left e : Expr}
    {ts rest : List (Token π)}
    (h : comparisonRest operand left ts = .ok (e, rest)) : rest.length ≤ ts.length := by
  unfold comparisonRest at h
  split at h
  · simp_all
  · split at h
    · split at h
      · simp at h
      · next ran =>
        have := operand.consumes ran
        simp only [Except.ok.injEq, Prod.mk.injEq] at h
        simp only [List.length_cons]
        grind
    · split at h
      · split at h
        · simp at h
        · next ran =>
          have := listValues.consumes ran
          simp only [Except.ok.injEq, Prod.mk.injEq] at h
          simp only [List.length_cons]
          grind
      · simp only [Except.ok.injEq, Prod.mk.injEq] at h
        simp [← h.2]

def comparison (operand : Reader π Expr) : Reader π Expr where
  run ts :=
    match operand.run ts with
    | .error e => .error e
    | .ok (left, rest) => comparisonRest operand left rest
  consumes {ts a rest} h := by
    split at h
    · simp at h
    · next ran =>
      have := operand.consumes ran
      have := length_of_comparisonRest h
      omega

/-- A chain of operands joined by a keyword, folded to the left. -/
def chain (op : Connective) (operand : Reader π Expr) : Reader π Expr :=
  (Parser.separated (·.isKeyword op.text) operand).map fun (first, others) =>
    others.foldl (.logical op) first

/-- A whole expression over the given reader of negations and comparisons. -/
def exprOver (unary : Reader π Expr) : Reader π Expr := chain .or (chain .and unary)

variable [Place π]

/-- A negation or a comparison, where `deeper` reads negations and comparisons one level further
down. -/
def unaryWith (deeper : Except SyntaxError (Reader π Expr)) : Reader π Expr where
  run ts :=
    match ts with
    | [] => .error .failedToParse
    | t :: rest =>
      if t.isKeyword "not" then
        match deeper with
        | .error e => .error e
        | .ok unary =>
          match unary.run rest with
          | .error e => .error e
          | .ok (operand, rest) => .ok (.not operand, rest)
      else (comparison (primary (deeper.map exprOver))).run (t :: rest)
  consumes {ts a rest} h := by
    split at h
    · simp at h
    · split at h
      · split at h
        · simp at h
        · next unary =>
          split at h
          · simp at h
          · next ran =>
            have := unary.consumes ran
            simp only [Except.ok.injEq, Prod.mk.injEq] at h
            simp only [List.length_cons]
            grind
      · exact (comparison _).consumes h

/-- Negations and comparisons with the given depth left. -/
def unary : Nat → Reader π Expr
  | 0 => unaryWith (.error (.tooDeep maxDepth))
  | depth + 1 => unaryWith (.ok (unary depth))

/-- The expression of a list of tokens, which must be used up. -/
def Expr.ofTokens (ts : List (Token π)) : Except SyntaxError Expr :=
  match (exprOver (unary maxDepth)).run ts with
  | .error e => .error e
  | .ok (e, []) => .ok e
  | .ok (_, t :: _) => .error (.unexpectedToken t.text)

/-- Drops blanks at the start, and then a leading `$filter=` in any case. -/
def dropFilterName (text : String) : String :=
  let body := dropBlanks text.toList
  String.ofList ((dropName? "$filter=".toList body).getD body)

/-- Reads a filter, with or without a leading `$filter=`. -/
def Expr.parse (text : String) : Except SyntaxError Expr :=
  match tokenize (dropFilterName text) with
  | .error e => .error e
  | .ok ts => ofTokens ts

end FilterSql.Filter
