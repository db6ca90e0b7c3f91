import FilterSql.Proofs.SqlTokens

/-!
# A grammar of conditions

The conditions that filters compile to, as relations between runs of tokens and conditions. `OR`
binds loosest, then come `AND`, `NOT`, the tests of an operand (comparisons, `IN`, `IS NULL` and
`IS NOT NULL`), and last the operands: columns, parameters, `NULL`, and conditions in parentheses.

The condition of a run keeps its parentheses; `Condition.erase` drops them.

## Main statements

* `Grammar.IsDisjunction.unique`: a run of tokens is read in at most one way.
-/

namespace FilterSql.Sql.Grammar

open FilterSql.Filter (Connective)
open FilterSql.Parser (Before Determined Separated before_cons before_nil before_true)

/-! ## Conditions -/

inductive Leaf
  | column (name : String)
  | param (name : String)
  | null
deriving DecidableEq

inductive Condition
  | leaf (l : Leaf)
  | paren (inner : Condition)
  | compare (op : ComparisonOperator) (left right : Condition)
  | nullTest (negated : Bool) (operand : Condition)
  | inList (operand : Condition) (items : List Leaf)
  | not (operand : Condition)
  | logical (op : Connective) (left right : Condition)
deriving DecidableEq

/-- The condition without its parentheses. -/
def Condition.erase : Condition → Condition
  | leaf l => leaf l
  | paren c => c.erase
  | compare op l r => compare op l.erase r.erase
  | nullTest negated c => nullTest negated c.erase
  | inList c items => inList c.erase items
  | not c => not c.erase
  | logical op l r => logical op l.erase r.erase

/-! ## Phrases -/

def Token.connects (op : Connective) (t : Token) : Bool := t == .keyword (.connective op)

/-- The phrases of a column, a parameter or `NULL`. -/
inductive IsLeaf : List Token → Leaf → Prop
  | column (name : String) : IsLeaf [.name name] (.column name)
  | param (name : String) : IsLeaf [.param name] (.param name)
  | null : IsLeaf [.keyword .null] .null

mutual

/-- The phrases of `conjunction ("OR" conjunction)*`, whose tree leans to the left. -/
inductive IsDisjunction : List Token → Condition → Prop
  | mk {ts : List Token} {c : Condition} {cs : List Condition} :
    Separated (·.connects .or) IsConjunction ts (c, cs) →
    IsDisjunction ts (cs.foldl (.logical .or) c)

/-- The phrases of `negation ("AND" negation)*`, whose tree leans to the left. -/
inductive IsConjunction : List Token → Condition → Prop
  | mk {ts : List Token} {c : Condition} {cs : List Condition} :
    Separated (·.connects .and) IsNegation ts (c, cs) →
    IsConjunction ts (cs.foldl (.logical .and) c)

/-- The phrases of `"NOT" negation | test`. -/
inductive IsNegation : List Token → Condition → Prop
  | not {ts : List Token} {c : Condition} :
    IsNegation ts c → IsNegation (.keyword .not :: ts) (.not c)
  | test {ts : List Token} {c : Condition} : IsTest ts c → IsNegation ts c

/-- The phrases of `operand tail`. -/
inductive IsTest : List Token → Condition → Prop
  | mk {ts us : List Token} {l c : Condition} :
    IsOperand ts l → IsTail l us c → IsTest (ts ++ us) c

/-- The phrases that make a test of the operand before them:
`(operator operand | "IS" "NULL" | "IS" "NOT" "NULL" | "IN" "(" leaf ("," leaf)* ")")?`. -/
inductive IsTail : Condition → List Token → Condition → Prop
  | none {l : Condition} : IsTail l [] l
  | compare {op : ComparisonOperator} {us : List Token} {l r : Condition} :
    IsOperand us r → IsTail l (.operator op :: us) (.compare op l r)
  | isNull {l : Condition} : IsTail l [.keyword .is, .keyword .null] (.nullTest false l)
  | isNotNull {l : Condition} :
    IsTail l [.keyword .is, .keyword .not, .keyword .null] (.nullTest true l)
  | inList {us : List Token} {l : Condition} {item : Leaf} {items : List Leaf} :
    Separated (· == .comma) IsLeaf us (item, items) →
    IsTail l (.keyword .member :: .openParen :: (us ++ [.closeParen])) (.inList l (item :: items))

/-- The phrases of `leaf | "(" disjunction ")"`. -/
inductive IsOperand : List Token → Condition → Prop
  | leaf {ts : List Token} {l : Leaf} : IsLeaf ts l → IsOperand ts (.leaf l)
  | paren {ts : List Token} {c : Condition} : IsDisjunction ts c →
    IsOperand (.openParen :: (ts ++ [.closeParen])) (.paren c)

end

/-- The text is read as the condition. -/
def Reads (sigil : Char) (text : String) (c : Condition) : Prop :=
  ∃ ts, tokens? sigil text.toList = some ts ∧ IsDisjunction ts c

/-! ## Each run is read in one way -/

/-- What may follow a test, which an operator, `IS` or `IN` would continue. -/
def AfterTest : Token → Prop
  | .operator _ | .keyword .is | .keyword .member => False
  | _ => True

theorem afterTest_of_connects {op : Connective} {t : Token} (h : t.connects op = true) :
    AfterTest t := by
  rw [Token.connects, beq_iff_eq] at h
  subst h
  trivial

theorem determined_leaf (n : Nat) : Determined n IsLeaf (fun _ => True) := by
  constructor
  intro ts us rest rest' a b _ left right eq _ _
  cases left <;> cases right <;> simp_all

variable {n : Nat}

theorem IsOperand.starts {ts : List Token} {c : Condition} (h : IsOperand ts c) :
    ∃ t us, ts = t :: us ∧ t ≠ .keyword .not := by
  cases h with
  | leaf h => cases h <;> exact ⟨_, _, rfl, by simp⟩
  | paren => exact ⟨_, _, rfl, by simp⟩

theorem determined_items (n : Nat) :
    Determined n (Separated (· == .comma) IsLeaf) (fun t => True ∧ (t == .comma) = false) :=
  (determined_leaf n).separated fun _ _ => trivial

/-- The first token of a tail tells which tail it is, up to what follows `IS`. -/
theorem determined_tail (operand : Determined n IsOperand (fun _ => True)) (l : Condition) :
    Determined n (IsTail l) AfterTest := by
  constructor
  intro ts us rest rest' c d short left right eq next next'
  cases left with
  | none =>
    cases right with
    | none => exact ⟨rfl, rfl⟩
    | compare | isNull | isNotNull | inList =>
      subst eq
      exact (next _ rfl).elim
  | compare r =>
    cases right with
    | compare r' =>
      obtain ⟨same, rest⟩ := List.cons.inj eq
      cases same
      obtain ⟨rfl, rfl⟩ := operand.unique (Nat.le_of_succ_le short) r r' rest (before_true _)
        (before_true _)
      exact ⟨rfl, rfl⟩
    | none =>
      subst eq
      exact (next' _ rfl).elim
    | isNull | isNotNull | inList => simp at eq
  | isNull =>
    cases right with
    | isNull => exact ⟨rfl, rfl⟩
    | none =>
      subst eq
      exact (next' _ rfl).elim
    | compare | isNotNull | inList => simp at eq
  | isNotNull =>
    cases right with
    | isNotNull => exact ⟨rfl, rfl⟩
    | none =>
      subst eq
      exact (next' _ rfl).elim
    | compare | isNull | inList => simp at eq
  | @inList vs _ _ _ items =>
    cases right with
    | inList items' =>
      simp only [List.cons_append, List.append_assoc, List.cons.injEq, true_and] at eq
      simp only [List.length_cons, List.length_append] at short
      have closes : ∀ rest, Before (fun t => True ∧ (t == Token.comma) = false)
          (Token.closeParen :: rest) := fun rest => before_cons ⟨trivial, rfl⟩
      obtain ⟨rfl, same⟩ := (determined_items n).unique (by omega) items items' eq (closes rest)
        (closes rest')
      cases same
      exact ⟨rfl, rfl⟩
    | none =>
      subst eq
      exact (next' _ rfl).elim
    | compare | isNull | isNotNull => simp at eq

theorem determined_test (operand : Determined n IsOperand (fun _ => True)) :
    Determined n IsTest AfterTest := by
  constructor
  rintro _ _ rest rest' c d short ⟨first, tail⟩ ⟨first', tail'⟩ eq next next'
  rw [List.length_append] at short
  rw [List.append_assoc, List.append_assoc] at eq
  obtain ⟨rfl, rfl⟩ := operand.unique (by omega) first first' eq (before_true _) (before_true _)
  obtain ⟨rfl, rfl⟩ := (determined_tail operand _).unique (by omega) tail tail'
    (List.append_cancel_left eq) next next'
  exact ⟨rfl, rfl⟩

theorem IsTest.starts {ts : List Token} {c : Condition} (h : IsTest ts c) :
    ∃ t us, ts = t :: us ∧ t ≠ .keyword .not := by
  obtain ⟨first, tail⟩ := h
  obtain ⟨t, us, rfl, start⟩ := first.starts
  exact ⟨t, _, rfl, start⟩

theorem determined_negation (operand : Determined n IsOperand (fun _ => True)) :
    Determined n IsNegation AfterTest := by
  constructor
  intro ts us rest rest' c d short left right eq next next'
  induction ts generalizing us c d with
  | nil =>
    cases left with
    | test left =>
      obtain ⟨t, us, nil, -⟩ := left.starts
      cases nil
  | cons t ts ih =>
    cases left with
    | not left =>
      cases right with
      | not right =>
        obtain ⟨rfl, rfl⟩ := ih (Nat.le_of_succ_le short) left right (List.cons.inj eq).2
        exact ⟨rfl, rfl⟩
      | test right =>
        obtain ⟨t', us', rfl, start⟩ := right.starts
        exact (start (List.cons.inj eq).1.symm).elim
    | test left =>
      cases right with
      | not right =>
        obtain ⟨t', us', same, start⟩ := left.starts
        cases same
        exact (start (List.cons.inj eq).1).elim
      | test right => exact (determined_test operand).unique short left right eq next next'

/-- What may follow a conjunction. -/
def AfterConjunction (t : Token) : Prop := AfterTest t ∧ t.connects .and = false

/-- What may follow a disjunction. -/
def AfterDisjunction (t : Token) : Prop := AfterConjunction t ∧ t.connects .or = false

theorem determined_conjunction (operand : Determined n IsOperand (fun _ => True)) :
    Determined n IsConjunction AfterConjunction := by
  constructor
  rintro ts us rest rest' _ _ short ⟨left⟩ ⟨right⟩ eq next next'
  have chain := (determined_negation operand).separated fun t => @afterTest_of_connects .and t
  obtain ⟨rfl, same⟩ := chain.unique short left right eq next next'
  cases same
  exact ⟨rfl, rfl⟩

theorem afterConjunction_of_or {t : Token} (h : t.connects .or = true) : AfterConjunction t := by
  rw [Token.connects, beq_iff_eq] at h
  subst h
  exact ⟨trivial, rfl⟩

theorem determined_disjunction (operand : Determined n IsOperand (fun _ => True)) :
    Determined n IsDisjunction AfterDisjunction := by
  constructor
  rintro ts us rest rest' _ _ short ⟨left⟩ ⟨right⟩ eq next next'
  have chain := (determined_conjunction operand).separated fun _ => afterConjunction_of_or
  obtain ⟨rfl, same⟩ := chain.unique short left right eq next next'
  cases same
  exact ⟨rfl, rfl⟩

/-- Parentheses are the only way back to a disjunction, and what they enclose is shorter. -/
theorem determined_operand (n : Nat) : Determined n IsOperand (fun _ => True) := by
  induction n with
  | zero =>
    constructor
    intro ts us rest rest' c d short left _ _ _ _
    obtain ⟨t, us, rfl, -⟩ := left.starts
    cases short
  | succ n ih =>
    constructor
    intro ts us rest rest' c d short left right eq _ _
    cases left with
    | leaf left =>
      cases right with
      | leaf right =>
        obtain ⟨rfl, rfl⟩ := (determined_leaf _).unique short left right eq (before_true _)
          (before_true _)
        exact ⟨rfl, rfl⟩
      | paren right => cases left <;> simp at eq
    | paren left =>
      cases right with
      | leaf right => cases right <;> simp at eq
      | paren right =>
        simp only [List.cons_append, List.append_assoc, List.cons.injEq, true_and] at eq
        simp only [List.length_cons, List.length_append] at short
        have closes : ∀ rest, Before AfterDisjunction (Token.closeParen :: rest) :=
          fun rest => before_cons ⟨⟨trivial, rfl⟩, rfl⟩
        obtain ⟨rfl, rfl⟩ := (determined_disjunction ih).unique (by omega) left right eq
          (closes _) (closes _)
        exact ⟨rfl, rfl⟩

/-- A run of tokens is read in at most one way. -/
theorem IsDisjunction.unique {ts : List Token} {c d : Condition} (left : IsDisjunction ts c)
    (right : IsDisjunction ts d) : c = d :=
  ((determined_disjunction (determined_operand ts.length)).unique (Nat.le_refl _) left right rfl
    (before_nil _) (before_nil _)).2

theorem Reads.unique {sigil : Char} {text : String} {c d : Condition} (left : Reads sigil text c)
    (right : Reads sigil text d) : c = d := by
  obtain ⟨ts, read, phrase⟩ := left
  obtain ⟨us, read', phrase'⟩ := right
  rw [read] at read'
  cases read'
  exact phrase.unique phrase'

end FilterSql.Sql.Grammar
