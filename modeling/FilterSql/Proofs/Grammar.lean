import FilterSql.Filter.Parser
import FilterSql.Proofs.Reading

/-!
# The grammar of filters

The grammar of filters as relations between runs of tokens and expressions, one for each of its
rules.

Operators may be the names of properties and functions, and keywords may not. That is what makes the
next token decide: a phrase that goes on is told from one that has ended by the token after it.
-/

namespace FilterSql.Filter

open FilterSql.Parser (Separated)

variable {π : Type}

/-! ## Phrases -/

/-- The phrases of a value of a list. -/
inductive IsListValue : List (Token π) → String → Prop
  | mk {t : Token π} : t.kind = .word ∨ t.kind = .literal → IsListValue [t] t.text

/-- The name of a property or a function. -/
structure Token.IsName (t : Token π) : Prop where
  word : t.kind = .word
  notReserved : t.isReserved = false

section Phrases

variable [Place π]

mutual

/-- The phrases of `conjunct ("or" conjunct)*`, whose tree leans to the left. -/
inductive IsExpr : List (Token π) → Expr → Prop
  | mk {ts : List (Token π)} {e : Expr} {es : List Expr} :
    Separated (·.isKeyword "or") IsConjunct ts (e, es) → IsExpr ts (es.foldl (.logical .or) e)

/-- The phrases of `unary ("and" unary)*`, whose tree leans to the left. -/
inductive IsConjunct : List (Token π) → Expr → Prop
  | mk {ts : List (Token π)} {e : Expr} {es : List Expr} :
    Separated (·.isKeyword "and") IsUnary ts (e, es) → IsConjunct ts (es.foldl (.logical .and) e)

/-- The phrases of `"not" unary | comparison`. -/
inductive IsUnary : List (Token π) → Expr → Prop
  | not {t : Token π} {ts : List (Token π)} {e : Expr} :
    t.isKeyword "not" = true → IsUnary ts e → IsUnary (t :: ts) (.not e)
  | comparison {ts : List (Token π)} {e : Expr} : IsComparison ts e → IsUnary ts e

/-- The phrases of `primary (operator primary | "in" "(" value ("," value)* ")")?`. -/
inductive IsComparison : List (Token π) → Expr → Prop
  | primary {ts : List (Token π)} {e : Expr} : IsPrimary ts e → IsComparison ts e
  | operator {t : Token π} {ts us : List (Token π)} {op : String} {l r : Expr} :
    IsPrimary ts l → op ∈ comparisonOperators → t.isKeyword op = true → IsPrimary us r →
    IsComparison (ts ++ t :: us) (.comparison op l r)
  | inList {t p q : Token π} {ts us : List (Token π)} {l : Expr} {value : String}
    {values : List String} :
    IsPrimary ts l → t.isKeyword "in" = true → p.kind = .openParen →
    Separated isComma IsListValue us (value, values) → q.kind = .closeParen →
    IsComparison (ts ++ t :: p :: (us ++ [q])) (.inList l (value :: values))

/-- The phrases of `"(" expr ")" | word "(" (expr ("," expr)*)? ")" | word | literal`. A call keeps
the text that it was read from. -/
inductive IsPrimary : List (Token π) → Expr → Prop
  | group {p q : Token π} {ts : List (Token π)} {e : Expr} :
    p.kind = .openParen → IsExpr ts e → q.kind = .closeParen →
    IsPrimary (p :: (ts ++ [q])) (.group e)
  | emptyCall {name p q : Token π} :
    name.IsName → p.kind = .openParen → q.kind = .closeParen →
    IsPrimary [name, p, q] (.call name.text [] (Place.textOf [name, p, q]))
  | call {name p q : Token π} {ts : List (Token π)} {arg : Expr} {args : List Expr} :
    name.IsName → p.kind = .openParen → Separated isComma IsExpr ts (arg, args) →
    q.kind = .closeParen →
    IsPrimary (name :: p :: (ts ++ [q]))
      (.call name.text (arg :: args) (Place.textOf (name :: p :: (ts ++ [q]))))
  | word {t : Token π} : t.IsName → IsPrimary [t] (.primary t.text)
  | literal {t : Token π} : t.kind = .literal → IsPrimary [t] (.primary t.text)

end

end Phrases

mutual

/-- The most negations, groups and calls on a path from the root to a leaf. -/
def Expr.nesting : Expr → Nat
  | .primary _ => 0
  | .call _ args _ => nestingOf args + 1
  | .not e => e.nesting + 1
  | .group e => e.nesting + 1
  | .comparison _ l r => max l.nesting r.nesting
  | .logical _ l r => max l.nesting r.nesting
  | .inList l _ => l.nesting

/-- The deepest nesting in a list. -/
def Expr.nestingOf : List Expr → Nat
  | [] => 0
  | e :: es => max e.nesting (nestingOf es)

end

theorem Expr.nestingOf_le_iff {es : List Expr} {n : Nat} :
    nestingOf es ≤ n ↔ ∀ e ∈ es, e.nesting ≤ n := by
  induction es with
  | nil => simp [nestingOf]
  | cons e es ih => simp only [nestingOf, Nat.max_le, ih, List.forall_mem_cons]

theorem Expr.nesting_foldl_le_iff {op : Connective} {e : Expr} {es : List Expr} {n : Nat} :
    (es.foldl (.logical op) e).nesting ≤ n ↔ e.nesting ≤ n ∧ ∀ e' ∈ es, e'.nesting ≤ n := by
  induction es generalizing e with
  | nil => simp
  | cons e' es ih =>
    simp only [List.foldl_cons, ih, nesting, Nat.max_le, List.forall_mem_cons, and_assoc]

/-- Phrases with at most `n` levels of negations, groups and calls. -/
def Within (n : Nat) (phrase : List (Token π) → Expr → Prop) (ts : List (Token π))
    (e : Expr) : Prop :=
  phrase ts e ∧ e.nesting ≤ n

theorem separated_within_iff {n : Nat} {separator : Token π → Bool}
    {phrase : List (Token π) → Expr → Prop} {ts : List (Token π)} {e : Expr} {es : List Expr} :
    Separated separator (Within n phrase) ts (e, es) ↔
      Separated separator phrase ts (e, es) ∧ e.nesting ≤ n ∧ ∀ e' ∈ es, e'.nesting ≤ n :=
  Parser.separated_and_iff

/-! ## Induction over the trees of phrases -/

section Induction

variable [Place π] {P : Expr → Prop} (logical : ∀ op l r, P l → P r → P (.logical op l r))

include logical

theorem Expr.foldl_logical (op : Connective) {e : Expr} {es : List Expr}
    (all : ∀ e' ∈ e :: es, P e') : P (es.foldl (.logical op) e) := by
  induction es generalizing e with
  | nil => exact all e (by simp)
  | cons e' es ih =>
    simp only [List.forall_mem_cons] at all
    exact ih (List.forall_mem_cons.2 ⟨logical op e e' all.1 all.2.1, all.2.2⟩)

/-- What holds of the negations and comparisons with at most `n` levels, and is kept by connectives,
holds of the expressions with at most `n` levels. -/
theorem IsExpr.of_isUnary {n : Nat} (unary : ∀ (ts : List (Token π)) e, Within n IsUnary ts e → P e)
    {ts : List (Token π)} {e : Expr} (h : IsExpr ts e) (nesting : e.nesting ≤ n) : P e := by
  have conjunct : ∀ (ts : List (Token π)) e, Within n IsConjunct ts e → P e := by
    rintro ts e ⟨⟨phrases⟩, nesting⟩
    have within := separated_within_iff.2 ⟨phrases, Expr.nesting_foldl_le_iff.1 nesting⟩
    exact Expr.foldl_logical logical .and (within.forall unary)
  obtain ⟨phrases⟩ := h
  have within := separated_within_iff.2 ⟨phrases, Expr.nesting_foldl_le_iff.1 nesting⟩
  exact Expr.foldl_logical logical .or (within.forall conjunct)

/-- Induction over the trees of phrases, whose comparisons have known operators and whose lists are
not empty. -/
theorem IsExpr.tree_induction (primary : ∀ text, P (.primary text))
    (call : ∀ name args raw, (∀ arg ∈ args, P arg) → P (.call name args raw))
    (not : ∀ e, P e → P (.not e)) (group : ∀ e, P e → P (.group e))
    (comparison : ∀ op l r, op ∈ comparisonOperators → P l → P r → P (.comparison op l r))
    (inList : ∀ l values, values ≠ [] → P l → P (.inList l values)) {ts : List (Token π)} {e : Expr}
    (h : IsExpr ts e) : P e := by
  suffices unary : ∀ n (ts : List (Token π)) e, Within n IsUnary ts e → P e from
    h.of_isUnary logical (unary e.nesting) (Nat.le_refl _)
  intro n
  -- negations, groups and calls take a level each, so what is below them is smaller
  induction n using Nat.strongRecOn with
  | ind n ih =>
    have expr : ∀ (ts : List (Token π)) e, IsExpr ts e → e.nesting < n → P e := fun ts e h lt =>
      h.of_isUnary logical (ih e.nesting lt) (Nat.le_refl _)
    have operand : ∀ (ts : List (Token π)) e, IsPrimary ts e → e.nesting ≤ n → P e := by
      intro ts e h nesting
      cases h with
      | group _ inner _ => exact group _ (expr _ _ inner nesting)
      | emptyCall _ _ _ => exact call _ _ _ nofun
      | @call _ _ _ _ arg args _ _ phrases _ =>
        have below : ∀ e ∈ arg :: args, e.nesting ≤ Expr.nestingOf (arg :: args) :=
          Expr.nestingOf_le_iff.1 (Nat.le_refl _)
        have within := separated_within_iff.2 ⟨phrases, List.forall_mem_cons.1 below⟩
        exact call _ _ _ (within.forall fun ts e h =>
          expr ts e h.1 (Nat.lt_of_le_of_lt h.2 nesting))
      | word _ => exact primary _
      | literal _ => exact primary _
    rintro ts e ⟨h, nesting⟩
    cases h with
    | not _ inner => exact not _ (ih _ nesting _ _ ⟨inner, Nat.le_refl _⟩)
    | comparison h =>
      cases h with
      | primary h => exact operand _ _ h nesting
      | operator l member _ r =>
        obtain ⟨nestingl, nestingr⟩ := Nat.max_le.1 nesting
        exact comparison _ _ _ member (operand _ _ l nestingl) (operand _ _ r nestingr)
      | inList l _ _ _ _ => exact inList _ _ (List.cons_ne_nil _ _) (operand _ _ l nesting)

end Induction

/-! ## The next token -/

namespace Token

variable {t : Token π} {a b op : String}

theorem isKeyword_word (place : π) (text : String) :
    isKeyword ⟨place, .word, text⟩ = Text.sameName text := by
  funext keyword
  simp [isKeyword]

theorem isName_word (place : π) {text : String}
    (h : reservedWords.any (Text.sameName text) = false) : IsName ⟨place, .word, text⟩ :=
  ⟨rfl, by rwa [isReserved, isKeyword_word]⟩

theorem kind_of_isKeyword (h : t.isKeyword a = true) : t.kind = .word := by
  simp only [isKeyword, Bool.and_eq_true, beq_iff_eq] at h
  exact h.1

theorem isKeyword_of_kind_ne (h : t.kind ≠ .word) (a : String) : t.isKeyword a = false := by
  simp [isKeyword, h]

theorem sameName_of_isKeyword (ha : t.isKeyword a = true) (hb : t.isKeyword b = true) :
    Text.sameName a b = true := by
  simp only [isKeyword, Text.sameName, Bool.and_eq_true, beq_iff_eq] at ha hb ⊢
  rw [← ha.2, hb.2]

theorem isKeyword_eq_false (h : t.isKeyword a = true) (ne : Text.sameName a b = false) :
    t.isKeyword b = false := by
  rw [Bool.eq_false_iff]
  intro hb
  rw [sameName_of_isKeyword h hb] at ne
  cases ne

theorem comparisonOperator?_eq_some_iff :
    t.comparisonOperator? = some op ↔ op ∈ comparisonOperators ∧ t.isKeyword op = true := by
  constructor
  · intro h
    exact ⟨List.mem_of_find?_eq_some h, List.find?_some h⟩
  · rintro ⟨member, isOp⟩
    have distinct : ∀ a ∈ comparisonOperators, ∀ b ∈ comparisonOperators,
        Text.sameName a b = true → a = b := by decide
    cases found : t.comparisonOperator? with
    | none => exact absurd isOp (List.find?_eq_none.1 found op member)
    | some op' =>
      have member' : op' ∈ comparisonOperators := List.mem_of_find?_eq_some found
      have isOp' : t.isKeyword op' = true := List.find?_some found
      rw [distinct op' member' op member (sameName_of_isKeyword isOp' isOp)]

theorem comparisonOperator?_of_isKeyword (h : t.isKeyword a = true)
    (ne : ∀ op ∈ comparisonOperators, Text.sameName a op = false) :
    t.comparisonOperator? = none :=
  List.find?_eq_none.2 fun op member => by simp [isKeyword_eq_false h (ne op member)]

theorem comparisonOperator?_of_kind_ne (h : t.kind ≠ .word) : t.comparisonOperator? = none :=
  List.find?_eq_none.2 fun op _ => by simp [isKeyword_of_kind_ne h op]

theorem IsName.isKeyword_eq_false (h : t.IsName) (member : a ∈ reservedWords) :
    t.isKeyword a = false := by
  have all := h.notReserved
  simp only [isReserved, List.any_eq_false] at all
  simpa using all a member

end Token

/-- What may follow an operand. A parenthesis would make the operand a call. -/
def AfterPrimary (t : Token π) : Prop := t.kind ≠ .openParen

/-- What may follow a negation or a comparison, which an operator or a list would continue. -/
def AfterUnary (t : Token π) : Prop :=
  AfterPrimary t ∧ t.comparisonOperator? = none ∧ t.isKeyword "in" = false

def AfterConjunct (t : Token π) : Prop := AfterUnary t ∧ t.isKeyword "and" = false

def AfterExpr (t : Token π) : Prop := AfterConjunct t ∧ t.isKeyword "or" = false

theorem afterExpr_of_kind {t : Token π} (word : t.kind ≠ .word) (paren : t.kind ≠ .openParen) :
    AfterExpr t :=
  ⟨⟨⟨paren, t.comparisonOperator?_of_kind_ne word, t.isKeyword_of_kind_ne word _⟩,
    t.isKeyword_of_kind_ne word _⟩, t.isKeyword_of_kind_ne word _⟩

theorem afterPrimary_of_isKeyword {t : Token π} {a : String} (h : t.isKeyword a = true) :
    AfterPrimary t := by
  simp [AfterPrimary, Token.kind_of_isKeyword h]

theorem afterUnary_of_and {t : Token π} (h : t.isKeyword "and" = true) : AfterUnary t :=
  ⟨afterPrimary_of_isKeyword h, t.comparisonOperator?_of_isKeyword h (by decide),
    t.isKeyword_eq_false h (by decide)⟩

theorem afterConjunct_of_or {t : Token π} (h : t.isKeyword "or" = true) : AfterConjunct t :=
  ⟨⟨afterPrimary_of_isKeyword h, t.comparisonOperator?_of_isKeyword h (by decide),
    t.isKeyword_eq_false h (by decide)⟩, t.isKeyword_eq_false h (by decide)⟩

/-! ## The first token -/

/-- The run has a first token, of which `P` holds. -/
def Starts (P : Token π → Prop) (ts : List (Token π)) : Prop := ∃ t us, ts = t :: us ∧ P t

theorem Starts.append {P : Token π → Prop} {ts : List (Token π)} (h : Starts P ts)
    (us : List (Token π)) :
    Starts P (ts ++ us) := by
  obtain ⟨t, ts, rfl, start⟩ := h
  exact ⟨t, ts ++ us, rfl, start⟩

theorem starts_of_separated {P : Token π → Prop} {α : Type} {separator : Token π → Bool}
    {item : List (Token π) → α → Prop} (starts : ∀ {ts a}, item ts a → Starts P ts)
    {ts : List (Token π)} {as : α × List α} (h : Separated separator item ts as) : Starts P ts := by
  cases h with
  | mk first _ => exact (starts first).append _

/-- The token neither closes a list nor negates. -/
def StartsOperand (t : Token π) : Prop := t.kind ≠ .closeParen ∧ t.isKeyword "not" = false

section Starts

variable [Place π]

theorem IsPrimary.starts {ts : List (Token π)} {e : Expr} (h : IsPrimary ts e) :
    Starts StartsOperand ts := by
  have name : ∀ {t : Token π}, t.IsName → StartsOperand t :=
    fun h => ⟨by simp [h.word], h.isKeyword_eq_false (by decide)⟩
  have other : ∀ {t : Token π}, t.kind ≠ .closeParen → t.kind ≠ .word → StartsOperand t :=
    fun close word => ⟨close, Token.isKeyword_of_kind_ne word _⟩
  cases h with
  | group opens _ _ => exact ⟨_, _, rfl, other (by simp [opens]) (by simp [opens])⟩
  | emptyCall isName _ _ | call isName _ _ _ | word isName => exact ⟨_, _, rfl, name isName⟩
  | literal isLiteral => exact ⟨_, _, rfl, other (by simp [isLiteral]) (by simp [isLiteral])⟩

theorem IsComparison.starts {ts : List (Token π)} {e : Expr} (h : IsComparison ts e) :
    Starts StartsOperand ts := by
  cases h with
  | primary first => exact first.starts
  | operator first _ _ _ | inList first _ _ _ _ => exact first.starts.append _

theorem IsUnary.starts {ts : List (Token π)} {e : Expr} (h : IsUnary ts e) :
    Starts (·.kind ≠ .closeParen) ts := by
  cases h with
  | not isNot _ => exact ⟨_, _, rfl, by simp [Token.kind_of_isKeyword isNot]⟩
  | comparison h =>
    obtain ⟨t, us, rfl, start, -⟩ := h.starts
    exact ⟨t, us, rfl, start⟩

theorem IsConjunct.starts {ts : List (Token π)} {e : Expr} (h : IsConjunct ts e) :
    Starts (·.kind ≠ .closeParen) ts := by
  cases h with
  | mk h => exact starts_of_separated IsUnary.starts h

theorem IsExpr.starts {ts : List (Token π)} {e : Expr} (h : IsExpr ts e) :
    Starts (·.kind ≠ .closeParen) ts := by
  cases h with
  | mk h => exact starts_of_separated IsConjunct.starts h

end Starts

end FilterSql.Filter
