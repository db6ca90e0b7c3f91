import FilterSql.Proofs.Acceptance
import FilterSql.Proofs.Expr

/-!
# Phrases by their trees

The tree of a phrase shows by which rule it was read, so one relation and the rank of the tree say as
much as the five relations of the grammar. From this the phrases of each kind of tree are read off:
the tokens of its parts, and the ranks that these may have.

Chains are taken apart at their last connective here, since their trees lean to the left.
-/

namespace FilterSql.Parser

variable {τ α : Type} {separator : τ → Bool} {item : List τ → α → Prop}

theorem Repeated.concat {us vs : List τ} {as : List α} {t : τ} {a : α}
    (h : Repeated separator item us as) (isSep : separator t = true) (last : item vs a) :
    Repeated separator item (us ++ t :: vs) (as ++ [a]) := by
  induction h with
  | nil =>
    have single := Repeated.cons isSep last .nil
    rwa [List.append_nil] at single
  | @cons u ts us b bs isSep' phrase _ ih =>
    have longer := Repeated.cons isSep' phrase ih
    simpa using longer

/-- A repetition ends with its last item and the separator in front of it. -/
theorem Repeated.of_concat {ts : List τ} {as : List α} {a : α}
    (h : Repeated separator item ts (as ++ [a])) :
    ∃ us t vs, ts = us ++ t :: vs ∧ Repeated separator item us as ∧ separator t = true ∧
      item vs a := by
  induction as generalizing ts with
  | nil =>
    cases h with
    | @cons t vs _ _ _ isSep last rest =>
      cases rest
      exact ⟨[], t, vs, by simp, .nil, isSep, last⟩
  | cons b as ih =>
    cases h with
    | @cons t us _ _ _ isSep phrase rest =>
      obtain ⟨us', t', vs, rfl, rest, isSep', last⟩ := ih rest
      exact ⟨t :: (us ++ us'), t', vs, by simp, .cons isSep phrase rest, isSep', last⟩

theorem separated_cons_iff {ts : List τ} {a b : α} {as : List α} :
    Separated separator item ts (a, b :: as) ↔
      ∃ us t vs, ts = us ++ t :: vs ∧ item us a ∧ separator t = true ∧
        Separated separator item vs (b, as) := by
  constructor
  · rintro ⟨first, others⟩
    cases others with
    | cons isSep next others => exact ⟨_, _, _, rfl, first, isSep, .mk next others⟩
  · rintro ⟨us, t, vs, rfl, first, isSep, ⟨next, others⟩⟩
    exact .mk first (.cons isSep next others)

theorem separated_concat_iff {ts : List τ} {a b : α} {as : List α} :
    Separated separator item ts (a, as ++ [b]) ↔
      ∃ us t vs, ts = us ++ t :: vs ∧ Separated separator item us (a, as) ∧ separator t = true ∧
        item vs b := by
  constructor
  · rintro ⟨first, others⟩
    obtain ⟨us, t, vs, rfl, others, isSep, last⟩ := others.of_concat
    exact ⟨_, t, vs, by simp, .mk first others, isSep, last⟩
  · rintro ⟨_, t, vs, rfl, ⟨first, others⟩, isSep, last⟩
    have longer := Separated.mk first (others.concat isSep last)
    simpa using longer

theorem separated_single_iff {ts : List τ} {a : α} :
    Separated separator item ts (a, []) ↔ item ts a := by
  constructor
  · rintro ⟨first, others⟩
    cases others
    rwa [List.append_nil]
  · intro h
    have single : Separated separator item (ts ++ []) (a, []) := .mk h .nil
    rwa [List.append_nil] at single

end FilterSql.Parser

namespace FilterSql.Filter

open FilterSql.Parser (Separated separated_concat_iff separated_cons_iff separated_single_iff)

variable {π : Type} [Place π]

/-! ## Ranks -/

/-- How loosely a connective binds. -/
def Connective.rank : Connective → Nat
  | .and => 3
  | .or => 4

/-- How loosely the outermost operator of an expression binds: operands have rank zero, then come
comparisons, negations, conjunctions and disjunctions. -/
def Expr.rank : Expr → Nat
  | .primary _ | .call _ _ _ | .group _ => 0
  | .comparison _ _ _ | .inList _ _ => 1
  | .not _ => 2
  | .logical op _ _ => op.rank

theorem IsPrimary.rank_eq {ts : List (Token π)} {e : Expr} (h : IsPrimary ts e) : e.rank = 0 := by
  cases h <;> rfl

theorem IsComparison.rank_le {ts : List (Token π)} {e : Expr} (h : IsComparison ts e) :
    e.rank ≤ 1 := by
  cases h with
  | primary h => simp [h.rank_eq]
  | operator | inList => exact Nat.le_refl 1

theorem IsUnary.rank_le {ts : List (Token π)} {e : Expr} (h : IsUnary ts e) : e.rank ≤ 2 := by
  cases h with
  | not => exact Nat.le_refl 2
  | comparison h => exact Nat.le_succ_of_le h.rank_le

/-- A chain is its only operand, or a connective whose right operand is the last one. -/
theorem Expr.foldl_logical_cases (op : Connective) (e : Expr) (es : List Expr) :
    es = [] ∨ ∃ es' r, es = es' ++ [r] ∧
      es.foldl (.logical op) e = .logical op (es'.foldl (.logical op) e) r := by
  rcases List.eq_nil_or_concat es with rfl | ⟨es', r, rfl⟩
  · exact .inl rfl
  · exact .inr ⟨es', r, by simp, by simp⟩

theorem isConjunct_iff_cases {ts : List (Token π)} {e : Expr} :
    IsConjunct ts e ↔ IsUnary ts e ∨ ∃ l r us t vs, e = .logical .and l r ∧ ts = us ++ t :: vs ∧
      t.isKeyword "and" = true ∧ IsConjunct us l ∧ IsUnary vs r := by
  rw [isConjunct_iff]
  constructor
  · rintro ⟨e₀, es, phrases, rfl⟩
    rcases Expr.foldl_logical_cases .and e₀ es with rfl | ⟨es', r, rfl, eq⟩
    · exact .inl (separated_single_iff.1 phrases)
    · obtain ⟨us, t, vs, rfl, first, isAnd, last⟩ := separated_concat_iff.1 phrases
      exact .inr ⟨_, r, us, t, vs, eq, rfl, isAnd, .mk first, last⟩
  · rintro (h | ⟨l, r, us, t, vs, rfl, rfl, isAnd, left, right⟩)
    · exact ⟨e, [], separated_single_iff.2 h, rfl⟩
    · obtain ⟨e₀, es, phrases, rfl⟩ := isConjunct_iff.1 left
      exact ⟨e₀, es ++ [r], separated_concat_iff.2 ⟨us, t, vs, rfl, phrases, isAnd, right⟩, by simp⟩

theorem isExpr_iff_cases {ts : List (Token π)} {e : Expr} :
    IsExpr ts e ↔ IsConjunct ts e ∨ ∃ l r us t vs, e = .logical .or l r ∧ ts = us ++ t :: vs ∧
      t.isKeyword "or" = true ∧ IsExpr us l ∧ IsConjunct vs r := by
  rw [isExpr_iff]
  constructor
  · rintro ⟨e₀, es, phrases, rfl⟩
    rcases Expr.foldl_logical_cases .or e₀ es with rfl | ⟨es', r, rfl, eq⟩
    · exact .inl (separated_single_iff.1 phrases)
    · obtain ⟨us, t, vs, rfl, first, isOr, last⟩ := separated_concat_iff.1 phrases
      exact .inr ⟨_, r, us, t, vs, eq, rfl, isOr, .mk first, last⟩
  · rintro (h | ⟨l, r, us, t, vs, rfl, rfl, isOr, left, right⟩)
    · exact ⟨e, [], separated_single_iff.2 h, rfl⟩
    · obtain ⟨e₀, es, phrases, rfl⟩ := isExpr_iff.1 left
      exact ⟨e₀, es ++ [r], separated_concat_iff.2 ⟨us, t, vs, rfl, phrases, isOr, right⟩, by simp⟩

theorem IsConjunct.rank_le {ts : List (Token π)} {e : Expr} (h : IsConjunct ts e) : e.rank ≤ 3 := by
  rcases isConjunct_iff_cases.1 h with h | ⟨l, r, us, t, vs, rfl, -⟩
  · exact Nat.le_succ_of_le h.rank_le
  · exact Nat.le_refl 3

/-! The rank of a tree tells which rule its phrase belongs to. -/

theorem isConjunct_iff_rank {ts : List (Token π)} {e : Expr} :
    IsConjunct ts e ↔ IsExpr ts e ∧ e.rank ≤ 3 := by
  constructor
  · intro h
    exact ⟨isExpr_iff_cases.2 (.inl h), h.rank_le⟩
  · rintro ⟨h, rank⟩
    rcases isExpr_iff_cases.1 h with h | ⟨l, r, us, t, vs, rfl, -⟩
    · exact h
    · exact absurd rank (by simp [Expr.rank, Connective.rank])

theorem isUnary_iff_rank {ts : List (Token π)} {e : Expr} :
    IsUnary ts e ↔ IsExpr ts e ∧ e.rank ≤ 2 := by
  constructor
  · intro h
    have conjunct : IsConjunct ts e := isConjunct_iff_cases.2 (.inl h)
    exact ⟨(isConjunct_iff_rank.1 conjunct).1, h.rank_le⟩
  · rintro ⟨h, rank⟩
    have conjunct : IsConjunct ts e := isConjunct_iff_rank.2 ⟨h, Nat.le_succ_of_le rank⟩
    rcases isConjunct_iff_cases.1 conjunct with h | ⟨l, r, us, t, vs, rfl, -⟩
    · exact h
    · exact absurd rank (by simp [Expr.rank, Connective.rank])

theorem isComparison_iff_rank {ts : List (Token π)} {e : Expr} :
    IsComparison ts e ↔ IsExpr ts e ∧ e.rank ≤ 1 := by
  constructor
  · intro h
    exact ⟨(isUnary_iff_rank.1 (.comparison h)).1, h.rank_le⟩
  · rintro ⟨h, rank⟩
    cases isUnary_iff_rank.2 ⟨h, Nat.le_succ_of_le rank⟩ with
    | not => exact absurd rank (by simp [Expr.rank])
    | comparison h => exact h

theorem isPrimary_iff_rank {ts : List (Token π)} {e : Expr} :
    IsPrimary ts e ↔ IsExpr ts e ∧ e.rank = 0 := by
  constructor
  · intro h
    exact ⟨(isComparison_iff_rank.1 (.primary h)).1, h.rank_eq⟩
  · rintro ⟨h, rank⟩
    cases isComparison_iff_rank.2 ⟨h, by omega⟩ with
    | primary h => exact h
    | operator | inList => exact absurd rank (by simp [Expr.rank])

/-! ## The phrases of a tree -/

section Trees

variable {ts : List (Token π)} {e l r : Expr}

theorem isExpr_primary_iff {text : String} :
    IsExpr ts (.primary text) ↔
      ∃ t : Token π, ts = [t] ∧ t.text = text ∧ (t.IsName ∨ t.kind = .literal) := by
  constructor
  · intro h
    cases isPrimary_iff_rank.2 ⟨h, rfl⟩ with
    | word isName => exact ⟨_, rfl, rfl, .inl isName⟩
    | literal isLiteral => exact ⟨_, rfl, rfl, .inr isLiteral⟩
  · rintro ⟨t, rfl, rfl, isName | isLiteral⟩
    · exact (isPrimary_iff_rank.1 (.word isName)).1
    · exact (isPrimary_iff_rank.1 (.literal isLiteral)).1

theorem isExpr_call_iff {name raw : String} {args : List Expr} :
    IsExpr ts (.call name args raw) ↔
      ∃ t p us q, ts = t :: p :: (us ++ [q]) ∧ t.IsName ∧ t.text = name ∧ p.kind = .openParen ∧
        q.kind = .closeParen ∧ raw = Place.textOf ts ∧
        (us = [] ∧ args = [] ∨
          ∃ arg others, args = arg :: others ∧ Separated isComma IsExpr us (arg, others)) := by
  constructor
  · intro h
    cases isPrimary_iff_rank.2 ⟨h, rfl⟩ with
    | @emptyCall t p q isName opens closes =>
      exact ⟨t, p, [], q, rfl, isName, rfl, opens, closes, rfl, .inl ⟨rfl, rfl⟩⟩
    | @call t p q us arg others isName opens phrases closes =>
      exact ⟨t, p, us, q, rfl, isName, rfl, opens, closes, rfl, .inr ⟨arg, others, rfl, phrases⟩⟩
  · rintro ⟨t, p, us, q, rfl, isName, rfl, opens, closes, rfl, ⟨rfl, rfl⟩ |
      ⟨arg, others, rfl, phrases⟩⟩
    · exact (isPrimary_iff_rank.1 (.emptyCall isName opens closes)).1
    · exact (isPrimary_iff_rank.1 (.call isName opens phrases closes)).1

theorem isExpr_group_iff :
    IsExpr ts (.group e) ↔
      ∃ p us q, ts = p :: (us ++ [q]) ∧ p.kind = .openParen ∧ IsExpr us e ∧
        q.kind = .closeParen := by
  constructor
  · intro h
    cases isPrimary_iff_rank.2 ⟨h, rfl⟩ with
    | group opens inner closes => exact ⟨_, _, _, rfl, opens, inner, closes⟩
  · rintro ⟨p, us, q, rfl, opens, inner, closes⟩
    exact (isPrimary_iff_rank.1 (.group opens inner closes)).1

theorem isExpr_not_iff :
    IsExpr ts (.not e) ↔
      ∃ t us, ts = t :: us ∧ t.isKeyword "not" = true ∧ IsExpr us e ∧ e.rank ≤ 2 := by
  constructor
  · intro h
    cases isUnary_iff_rank.2 ⟨h, Nat.le_refl 2⟩ with
    | not isNot inner => exact ⟨_, _, rfl, isNot, isUnary_iff_rank.1 inner⟩
    | comparison h => exact absurd h.rank_le (by simp [Expr.rank])
  · rintro ⟨t, us, rfl, isNot, inner⟩
    exact (isUnary_iff_rank.1 (.not isNot (isUnary_iff_rank.2 inner))).1

theorem isExpr_comparison_iff {op : String} :
    IsExpr ts (.comparison op l r) ↔
      ∃ us t vs, ts = us ++ t :: vs ∧ op ∈ comparisonOperators ∧ t.isKeyword op = true ∧
        (IsExpr us l ∧ l.rank = 0) ∧ IsExpr vs r ∧ r.rank = 0 := by
  constructor
  · intro h
    cases isComparison_iff_rank.2 ⟨h, Nat.le_refl 1⟩ with
    | primary h => exact absurd h.rank_eq (by simp [Expr.rank])
    | operator left member isOp right =>
      exact ⟨_, _, _, rfl, member, isOp, isPrimary_iff_rank.1 left, isPrimary_iff_rank.1 right⟩
  · rintro ⟨us, t, vs, rfl, member, isOp, left, right⟩
    have phrase : IsComparison _ (.comparison op l r) :=
      .operator (isPrimary_iff_rank.2 left) member isOp (isPrimary_iff_rank.2 right)
    exact (isComparison_iff_rank.1 phrase).1

theorem isExpr_inList_iff {values : List String} :
    IsExpr ts (.inList l values) ↔
      ∃ us t p vs q value others, ts = us ++ t :: p :: (vs ++ [q]) ∧ (IsExpr us l ∧ l.rank = 0) ∧
        t.isKeyword "in" = true ∧ p.kind = .openParen ∧ q.kind = .closeParen ∧
        values = value :: others ∧ Separated isComma IsListValue vs (value, others) := by
  constructor
  · intro h
    cases isComparison_iff_rank.2 ⟨h, Nat.le_refl 1⟩ with
    | primary h => exact absurd h.rank_eq (by simp [Expr.rank])
    | inList left isIn opens phrases closes =>
      exact ⟨_, _, _, _, _, _, _, rfl, isPrimary_iff_rank.1 left, isIn, opens, closes, rfl, phrases⟩
  · rintro ⟨us, t, p, vs, q, value, others, rfl, left, isIn, opens, closes, rfl, phrases⟩
    have phrase : IsComparison _ (.inList l (value :: others)) :=
      .inList (isPrimary_iff_rank.2 left) isIn opens phrases closes
    exact (isComparison_iff_rank.1 phrase).1

omit [Place π] in
theorem isListValue_iff {value : String} :
    IsListValue ts value ↔
      ∃ t : Token π, ts = [t] ∧ t.text = value ∧ (t.kind = .word ∨ t.kind = .literal) := by
  constructor
  · rintro ⟨kind⟩
    exact ⟨_, rfl, rfl, kind⟩
  · rintro ⟨t, rfl, rfl, kind⟩
    exact .mk kind

/-- A connective has looser operands on its left only. -/
theorem isExpr_logical_iff {op : Connective} :
    IsExpr ts (.logical op l r) ↔
      ∃ us t vs, ts = us ++ t :: vs ∧ t.isKeyword op.text = true ∧
        (IsExpr us l ∧ l.rank ≤ op.rank) ∧ IsExpr vs r ∧ r.rank < op.rank := by
  cases op with
  | and =>
    have rank : (Expr.logical .and l r).rank = 3 := rfl
    constructor
    · intro h
      rcases isConjunct_iff_cases.1 (isConjunct_iff_rank.2 ⟨h, Nat.le_of_eq rank⟩) with
        h | ⟨_, _, us, t, vs, eq, rfl, isAnd, left, right⟩
      · exact absurd h.rank_le (by omega)
      · cases eq
        obtain ⟨right, rank⟩ := isUnary_iff_rank.1 right
        exact ⟨us, t, vs, rfl, isAnd, isConjunct_iff_rank.1 left, right, Nat.lt_succ_of_le rank⟩
    · rintro ⟨us, t, vs, rfl, isAnd, left, right, lt⟩
      have phrase : IsConjunct (us ++ t :: vs) (.logical .and l r) :=
        isConjunct_iff_cases.2 (.inr ⟨l, r, us, t, vs, rfl, rfl, isAnd, isConjunct_iff_rank.2 left,
          isUnary_iff_rank.2 ⟨right, Nat.le_of_lt_succ lt⟩⟩)
      exact (isConjunct_iff_rank.1 phrase).1
  | or =>
    have top : ∀ e : Expr, e.rank ≤ 4 := by
      intro e
      rcases e with _ | _ | _ | _ | _ | ⟨_ | _, _, _⟩ | _ <;> simp [Expr.rank, Connective.rank]
    constructor
    · intro h
      rcases isExpr_iff_cases.1 h with h | ⟨_, _, us, t, vs, eq, rfl, isOr, left, right⟩
      · exact absurd h.rank_le (by simp [Expr.rank, Connective.rank])
      · cases eq
        obtain ⟨right, rank⟩ := isConjunct_iff_rank.1 right
        exact ⟨us, t, vs, rfl, isOr, ⟨left, top _⟩, right, Nat.lt_succ_of_le rank⟩
    · rintro ⟨us, t, vs, rfl, isOr, left, right, lt⟩
      exact isExpr_iff_cases.2 (.inr ⟨l, r, us, t, vs, rfl, rfl, isOr, left.1,
        isConjunct_iff_rank.2 ⟨right, Nat.le_of_lt_succ lt⟩⟩)

end Trees

/-! ## Short phrases -/

section Short

theorem isExpr_word (place : π) {text : String}
    (h : reservedWords.any (Text.sameName text) = false) :
    IsExpr [⟨place, .word, text⟩] (.primary text) :=
  isExpr_primary_iff.2 ⟨_, rfl, rfl, .inl (Token.isName_word place h)⟩

theorem isExpr_literal (place : π) (text : String) :
    IsExpr [⟨place, .literal, text⟩] (.primary text) :=
  isExpr_primary_iff.2 ⟨_, rfl, rfl, .inr rfl⟩

variable {us vs : List (Token π)} {t p c q : Token π} {e e' : Expr} {raw : String}

theorem isExpr_call_one (isName : t.IsName) (opens : p.kind = .openParen) (argument : IsExpr us e)
    (closes : q.kind = .closeParen) (written : raw = Place.textOf (t :: p :: (us ++ [q]))) :
    IsExpr (t :: p :: (us ++ [q])) (.call t.text [e] raw) :=
  isExpr_call_iff.2 ⟨t, p, us, q, rfl, isName, rfl, opens, closes, written,
    .inr ⟨e, [], rfl, separated_single_iff.2 argument⟩⟩

theorem isExpr_call_two (isName : t.IsName) (opens : p.kind = .openParen) (first : IsExpr us e)
    (comma : isComma c = true) (second : IsExpr vs e') (closes : q.kind = .closeParen)
    (written : raw = Place.textOf (t :: p :: (us ++ c :: vs ++ [q]))) :
    IsExpr (t :: p :: (us ++ c :: vs ++ [q])) (.call t.text [e, e'] raw) :=
  isExpr_call_iff.2 ⟨t, p, us ++ c :: vs, q, rfl, isName, rfl, opens, closes, written,
    .inr ⟨e, [e'], rfl, separated_cons_iff.2
      ⟨us, c, vs, rfl, first, comma, separated_single_iff.2 second⟩⟩⟩

/-- A list of two literals. -/
theorem isExpr_inList_two {a b : Token π} (left : IsExpr us e) (rank : e.rank = 0)
    (isIn : t.isKeyword "in" = true) (opens : p.kind = .openParen) (first : a.kind = .literal)
    (comma : isComma c = true) (second : b.kind = .literal) (closes : q.kind = .closeParen) :
    IsExpr (us ++ [t, p, a, c, b, q]) (.inList e [a.text, b.text]) := by
  have value {a : Token π} (literal : a.kind = .literal) : IsListValue [a] a.text :=
    .mk (.inr literal)
  have values : Separated isComma IsListValue [a, c, b] (a.text, [b.text]) :=
    .mk (value first) (.cons comma (value second) .nil)
  exact isExpr_inList_iff.2 ⟨us, t, p, [a, c, b], q, a.text, [b.text], rfl, ⟨left, rank⟩, isIn,
    opens, closes, rfl, values⟩

end Short

end FilterSql.Filter
