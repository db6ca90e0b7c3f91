import FilterSql.Proofs.MirroredComparisons

/-!
# Comparisons with null

The SQL of a comparison is put together from the compiled operands, of which the right one may be a
threshold. A comparison with `null` is a test for null. That `null` is meant shows as long as no group
is around it: within groups it is written like any other operand, and the test becomes an ordinary
comparison with `NULL`, which is never true.

## Main statements

* `Compiler.sql_comparison`: the SQL of a comparison, from its compiled operands.
* `Compiler.compile_null_comparison`: the SQL of every comparison with `null`, in any number of groups
  on either side.
-/

namespace FilterSql

open FilterSql.Filter Catalog Sql

/-! ## Groups -/

namespace Filter.Expr

/-- The expression as it is compiled on the left of a comparison: a call loses the groups around it. -/
def bareCall (e : Expr) : Expr := if e.ungrouped.isCall then e.ungrouped else e

theorem bareCall_of_not_isCall {e : Expr} (h : e.ungrouped.isCall = false) : e.bareCall = e := by
  simp [bareCall, h]

/-- How many groups are around an expression. -/
def groups : Expr → Nat
  | .group e => e.groups + 1
  | _ => 0

theorem isNullLiteral_ungrouped {e : Expr} (h : e.isNullLiteral = true) :
    e.ungrouped.isNullLiteral = true := by
  cases e with
  | primary => exact h
  | _ => cases h

theorem isCall_of_isNullLiteral {e : Expr} (h : e.isNullLiteral = true) : e.isCall = false := by
  cases e with
  | primary => rfl
  | _ => cases h

end Filter.Expr

/-! ## The text of a comparison -/

namespace Sql

/-- The text of a condition; nothing if there is none. -/
def Predicate.text (p : Predicate) : String := p.sql.getD ""

/-- The text of what a distance in the given unit is compared with. -/
def thresholdText (unit : Option Value) (text : String) : String :=
  if unit.any (Text.sameName ·.text "m") then "(" ++ text ++ " / 111320.0)" else text

/-- The SQL of a test of a condition for null, which an order has none of. -/
def Predicate.nullTested (o : ComparisonOperator) (token : String) (p : Predicate) :
    Except CompileError (Option String) :=
  match o.nullSuffix? with
  | some suffix => .ok (some (p.text ++ suffix))
  | none => .error (.nullComparison token)

/-- The keyword `NULL` in parentheses. -/
def nullText (groups : Nat) : String :=
  String.ofList (List.replicate groups '(' ++ "NULL".toList ++ List.replicate groups ')')

theorem Clause.render_parenthesized (sigil : Char) (c : Clause) :
    c.parenthesized.render sigil = "(" ++ c.render sigil ++ ")" := by
  simp only [parenthesized, render_append, render_ofString]

theorem render_convertedFragment (sigil : Char) (unit : Option Value) (x : Clause) :
    (convertedFragment unit (.clause x)).toClause.render sigil =
      thresholdText unit (x.render sigil) := by
  have named : Text.sameName ((unit.map (·.text)).getD "") "m" =
      unit.any (Text.sameName ·.text "m") := by
    cases unit <;> rfl
  have suffix : " / " ++ toString metersPerDegree ++ ".0" = " / 111320.0" := rfl
  simp only [convertedFragment, thresholdText, named, suffix]
  split
  · simp only [Fragment.toClause, Clause.render_parenthesized, Clause.render_append,
      Clause.render_ofString, ← String.toList_inj]
    simp
  · rfl

theorem convertedFragment_eq_null_iff {unit : Option Value} {f : Fragment} :
    convertedFragment unit f = .null ↔ f = .null := by
  cases f with
  | clause x =>
    rw [convertedFragment]
    split <;> simp
  | null | param => rfl

theorem threshold_eq_ok (unit : Option Nat) (f : Fragment) (b : Bindings) :
    ∃ b', Compiler.threshold unit f b =
      .ok (convertedFragment (unit.bind b.table.get?) f, b') := by
  cases unit with
  | none =>
    refine ⟨b, ?_⟩
    cases f with
    | clause x => simp [Compiler.threshold, convertedFragment, Text.sameName]
    | null | param => rfl
  | some n =>
    obtain ⟨q, b', ran⟩ : ∃ q b', convertThreshold n f b = .ok (q, b') := by
      simp only [convertThreshold]
      split
      · exact ⟨_, _, rfl⟩
      · cases f with
        | param m =>
          dsimp only
          split <;> exact ⟨_, _, rfl⟩
        | null | clause => exact ⟨_, _, rfl⟩
    obtain ⟨-, -, rfl⟩ := convertThreshold_eq_ok ran
    exact ⟨b', ran⟩

namespace Compiler

variable {c : Compiler} {op : String} {o : ComparisonOperator} {l r : Expr}

theorem operand_true (c : Compiler) (e : Expr) : c.operand true e = c.operand false e.bareCall := by
  induction e with
  | group e ih =>
    cases isCall : e.ungrouped.isCall with
    | true =>
      have same : (Expr.group e).bareCall = e.bareCall := by
        simp [Expr.bareCall, Expr.ungrouped, isCall]
      simp only [operand, isCall, Bool.true_and, if_true, same, ih]
    | false =>
      rw [Expr.bareCall_of_not_isCall (e := .group e) isCall]
      simp only [operand, isCall, Bool.and_false]
  | primary | call | not | comparison | logical | inList => rfl

theorem compile_map_sql (c : Compiler) (e : Expr) :
    (c.compile e).map Predicate.sql =
      (c.operand false e .empty).map fun r => some (r.1.fragment.toClause.render c.options.sigil) := by
  rcases ran : c.operand false e .empty with err | ⟨q, b⟩
  · rw [compile_eq_error ran]
    rfl
  · rw [compile_eq_ok.2 ⟨q, b, ran, rfl⟩]
    rfl

/-- What follows a distance does not change its unit. -/
theorem unitValue_eq {left right : Operand} {bl br : Bindings}
    (ranₗ : c.operand true l .empty = .ok (left, bl))
    (ranᵣ : c.operand false r bl = .ok (right, br)) :
    left.unit.bind br.table.get? = c.unitValue l := by
  simp only [unitValue, ranₗ]
  cases unit : left.unit with
  | none => rfl
  | some n =>
    obtain ⟨grows, -, numbered⟩ := operand_grows ranₗ
    exact operand_keeps (grows.inRange Bindings.inRange_empty).bounded ranᵣ (numbered n unit).2

/-- The SQL of a comparison, from its compiled operands. -/
theorem sql_comparison {left right : Operand} {bl br : Bindings}
    (ranₗ : c.operand true l .empty = .ok (left, bl))
    (ranᵣ : c.operand false r bl = .ok (right, br)) :
    (c.compile (.comparison op l r)).map Predicate.sql =
      (compareFragments op left.fragment
        (convertedFragment (c.unitValue l) right.fragment)).map fun x =>
          some (x.render c.options.sigil) := by
  rw [← unitValue_eq ranₗ ranᵣ]
  obtain ⟨b, converted⟩ := threshold_eq_ok left.unit right.fragment br
  rw [compile_map_sql]
  rcases compared : compareFragments op left.fragment
    (convertedFragment (left.unit.bind br.table.get?) right.fragment) with err | x
  · have failed : c.operand false (.comparison op l r) .empty = .error err := by
      rw [operand_comparison]
      refine Compile.bind_eq_error.2 (.inr ⟨left, bl, ranₗ, ?_⟩)
      refine Compile.bind_eq_error.2 (.inr ⟨right, br, ranᵣ, ?_⟩)
      refine Compile.bind_eq_error.2 (.inr ⟨_, b, converted, ?_⟩)
      exact Compile.bind_eq_error.2 (.inl (Compile.liftM_eq_error.2 compared))
    rw [failed]
    rfl
  · have ran : c.operand false (.comparison op l r) .empty = .ok (⟨.clause x, none⟩, b) := by
      simp only [operand_comparison, compareOperands, Compile.bind_eq_ok]
      exact ⟨left, bl, ranₗ, right, br, ranᵣ, _, b, converted, x, b,
        Compile.liftM_eq_ok.2 ⟨compared, rfl⟩, rfl⟩
    rw [ran]
    rfl

/-- A comparison fails like its left operand. -/
theorem compile_comparison_eq_error {err : CompileError}
    (h : c.operand true l .empty = .error err) : c.compile (.comparison op l r) = .error err := by
  refine compile_eq_error ?_
  rw [operand_comparison]
  exact Compile.bind_eq_error.2 (.inl h)

/-! ## Operands that are null -/

theorem nullText_succ (n : Nat) : nullText (n + 1) = "(" ++ nullText n ++ ")" := by
  rw [← String.toList_inj]
  simp only [nullText, String.toList_ofList, String.toList_append, List.replicate_succ, List.cons_append]
  rw [← List.replicate_succ, List.replicate_succ']
  simp

/-- In groups or not, `null` binds nothing and is written as the keyword. -/
theorem operand_null (c : Compiler) {e : Expr} (null : e.ungrouped.isNullLiteral = true)
    (leading : Bool) (b : Bindings) :
    ∃ f, c.operand leading e b = .ok (⟨f, none⟩, b) ∧
      f.toClause.render c.options.sigil = nullText e.groups := by
  induction e generalizing leading with
  | primary text =>
    have eq : c.primary text = pure .null := if_pos null
    exact ⟨.null, by simp only [operand, eq]; rfl, Clause.render_ofString _ _⟩
  | group e ih =>
    obtain ⟨f, ran, text⟩ := ih null false
    have notCall : e.ungrouped.isCall = false := Expr.isCall_of_isNullLiteral null
    refine ⟨.clause f.toClause.parenthesized, ?_, ?_⟩
    · simp only [operand, notCall, Bool.and_false, Bool.false_eq_true, if_false, Compile.bind_eq_ok]
      exact ⟨_, b, ran, rfl⟩
    · rw [Fragment.toClause, Clause.render_parenthesized, text, Expr.groups, nullText_succ]
  | call | not | comparison | logical | inList => cases null

theorem nullTest_render (o : ComparisonOperator) (token : String) (f : Fragment) (sigil : Char)
    (parameters : Table String Value) :
    (nullTest o token f).map (fun x => some (x.render sigil)) =
      Predicate.nullTested o token ⟨some (f.toClause.render sigil), parameters⟩ := by
  cases o <;>
    simp [nullTest, Predicate.nullTested, Predicate.text, ComparisonOperator.nullSuffix?, Except.map,
      Clause.render_append, Clause.render_ofString]

section Fragments

variable {f g : Fragment} (isOp : ComparisonOperator.ofToken? op = some o)

include isOp

theorem compareFragments_null_right (f : Fragment) :
    compareFragments op f .null = nullTest o op f := by
  simp only [compareFragments, isOp]

theorem compareFragments_null_left (notNull : g ≠ .null) :
    compareFragments op .null g = nullTest o op g := by
  cases g with
  | null => exact absurd rfl notNull
  | param | clause => simp only [compareFragments, isOp]

theorem compareFragments_of_ne_null (left : f ≠ .null) (right : g ≠ .null) (sigil : Char) :
    (compareFragments op f g).map (fun x => some (x.render sigil)) =
      .ok (some (f.toClause.render sigil ++ " " ++ o.sql ++ " " ++ g.toClause.render sigil)) := by
  have compared : compareFragments op f g =
      .ok (f.toClause ++ .ofString (" " ++ o.sql ++ " ") ++ g.toClause) := by
    simp only [compareFragments, isOp]
  rw [compared]
  simp only [Except.map, Clause.render_append, Clause.render_ofString, String.append_assoc]

end Fragments

/-! ## Comparisons with null -/

/-- Whether an operand is `null` outside of groups shows in its fragment. -/
theorem operand_ne_null {e : Expr} (notNull : e.isNullLiteral = false) {leading : Bool}
    {b b' : Bindings} {q : Operand} (ran : c.operand leading e b = .ok (q, b')) :
    q.fragment ≠ .null := by
  intro null
  rw [(operand_eq_null_iff ran).1 null] at notNull
  cases notNull

/-- An operand that binds nothing and has no unit leaves the right one as it is alone. -/
theorem sql_left {f : Fragment} (ranₗ : c.operand true l .empty = .ok (⟨f, none⟩, .empty)) :
    (c.compile (.comparison op l r)).map Predicate.sql =
      (c.operand false r .empty).bind fun q =>
        (compareFragments op f q.1.fragment).map fun x => some (x.render c.options.sigil) := by
  rcases ranᵣ : c.operand false r .empty with err | ⟨right, br⟩
  · have failed : c.operand false (.comparison op l r) .empty = .error err := by
      rw [operand_comparison]
      refine Compile.bind_eq_error.2 (.inr ⟨_, _, ranₗ, ?_⟩)
      exact Compile.bind_eq_error.2 (.inl ranᵣ)
    rw [compile_eq_error failed]
    rfl
  · have unitless : c.unitValue l = none := by simp only [unitValue, ranₗ]; rfl
    have converted : convertedFragment none right.fragment = right.fragment := by
      cases right.fragment <;> rfl
    rw [sql_comparison ranₗ ranᵣ, unitless, converted]
    rfl

section Sides

variable (isOp : ComparisonOperator.ofToken? op = some o)

include isOp

theorem sql_null_right (null : r.isNullLiteral = true) :
    (c.compile (.comparison op l r)).map Predicate.sql =
      (c.compile l.bareCall).bind (·.nullTested o op) := by
  rcases ranₗ : c.operand true l .empty with err | ⟨left, bl⟩
  · rw [compile_comparison_eq_error ranₗ, compile_eq_error (c.operand_true l ▸ ranₗ)]
    rfl
  · obtain ⟨f, ranᵣ, -⟩ := c.operand_null (Expr.isNullLiteral_ungrouped null) false bl
    obtain rfl : f = .null := (operand_eq_null_iff ranᵣ).2 null
    have converted : convertedFragment (c.unitValue l) .null = .null := rfl
    rw [sql_comparison ranₗ ranᵣ, converted, compareFragments_null_right isOp,
      compile_eq_ok.2 ⟨left, bl, c.operand_true l ▸ ranₗ, rfl⟩]
    exact nullTest_render o op left.fragment c.options.sigil _

/-- With `NULL` in parentheses on the right, nothing is tested. -/
theorem sql_grouped_right (null : r.ungrouped.isNullLiteral = true)
    (notNullₗ : l.isNullLiteral = false) (notNullᵣ : r.isNullLiteral = false) :
    (c.compile (.comparison op l r)).map Predicate.sql =
      (c.compile l.bareCall).map fun p =>
        some (p.text ++ " " ++ o.sql ++ " " ++ thresholdText (c.unitValue l) (nullText r.groups)) := by
  rcases ranₗ : c.operand true l .empty with err | ⟨left, bl⟩
  · rw [compile_comparison_eq_error ranₗ, compile_eq_error (c.operand_true l ▸ ranₗ)]
    rfl
  · obtain ⟨f, ranᵣ, text⟩ := c.operand_null null false bl
    have nonnullₗ := operand_ne_null notNullₗ ranₗ
    have nonnullᵣ := operand_ne_null notNullᵣ ranᵣ
    obtain ⟨x, rfl⟩ : ∃ x, f = .clause x := by
      refine operand_eq_clause (fun s => ?_) ranᵣ
      rintro rfl
      rw [Expr.ungrouped, notNullᵣ] at null
      · cases null
      · simp
    rw [sql_comparison ranₗ ranᵣ,
      compareFragments_of_ne_null isOp nonnullₗ (mt convertedFragment_eq_null_iff.1 nonnullᵣ),
      render_convertedFragment, show x.render c.options.sigil = nullText r.groups from text,
      compile_eq_ok.2 ⟨left, bl, c.operand_true l ▸ ranₗ, rfl⟩]
    rfl

theorem sql_null_left (null : l.isNullLiteral = true) (notNull : r.isNullLiteral = false) :
    (c.compile (.comparison op l r)).map Predicate.sql =
      (c.compile r).bind (·.nullTested o op) := by
  obtain ⟨f, ranₗ, -⟩ := c.operand_null (Expr.isNullLiteral_ungrouped null) true .empty
  obtain rfl : f = .null := (operand_eq_null_iff ranₗ).2 null
  rw [sql_left ranₗ]
  rcases ranᵣ : c.operand false r .empty with err | ⟨right, br⟩
  · rw [compile_eq_error ranᵣ]
    rfl
  · rw [compile_eq_ok.2 ⟨right, br, ranᵣ, rfl⟩, Except.bind,
      compareFragments_null_left isOp (operand_ne_null notNull ranᵣ)]
    exact nullTest_render o op right.fragment c.options.sigil _

/-- With `NULL` in parentheses on the left, nothing is tested. -/
theorem sql_grouped_left (null : l.ungrouped.isNullLiteral = true)
    (notNullₗ : l.isNullLiteral = false) (notNullᵣ : r.isNullLiteral = false) :
    (c.compile (.comparison op l r)).map Predicate.sql =
      (c.compile r).map fun p => some (nullText l.groups ++ " " ++ o.sql ++ " " ++ p.text) := by
  obtain ⟨f, ranₗ, text⟩ := c.operand_null null true .empty
  rw [sql_left ranₗ]
  rcases ranᵣ : c.operand false r .empty with err | ⟨right, br⟩
  · rw [compile_eq_error ranᵣ]
    rfl
  · rw [compile_eq_ok.2 ⟨right, br, ranᵣ, rfl⟩, Except.bind,
      compareFragments_of_ne_null isOp (operand_ne_null notNullₗ ranₗ)
        (operand_ne_null notNullᵣ ranᵣ), text]
    rfl

end Sides

/-- With `null` outside of groups on one side, a comparison is a test of the other side for null, and
there is none for an order. With `null` in groups it is the comparison that is written, whatever the
operator is, of the other side with `NULL` in as many parentheses. -/
theorem compile_null_comparison (isOp : ComparisonOperator.ofToken? op = some o)
    (null : l.ungrouped.isNullLiteral = true ∨ r.ungrouped.isNullLiteral = true) :
    (c.compile (.comparison op l r)).map Predicate.sql =
      if r.isNullLiteral then (c.compile l.bareCall).bind (·.nullTested o op)
      else if l.isNullLiteral then (c.compile r).bind (·.nullTested o op)
      else if r.ungrouped.isNullLiteral then
        (c.compile l.bareCall).map fun p =>
          some (p.text ++ " " ++ o.sql ++ " " ++ thresholdText (c.unitValue l) (nullText r.groups))
      else
        (c.compile r).map fun p => some (nullText l.groups ++ " " ++ o.sql ++ " " ++ p.text) := by
  cases bareᵣ : r.isNullLiteral with
  | true => exact sql_null_right isOp bareᵣ
  | false =>
    cases bareₗ : l.isNullLiteral with
    | true => exact sql_null_left isOp bareₗ bareᵣ
    | false =>
      cases groupedᵣ : r.ungrouped.isNullLiteral with
      | true => exact sql_grouped_right isOp groupedᵣ bareₗ bareᵣ
      | false =>
        have groupedₗ := null.resolve_right (by simp [groupedᵣ])
        exact sql_grouped_left isOp groupedₗ bareₗ bareᵣ

theorem compile_null_comparison_missing :
    (shop.compile (.comparison "NE" (.group (.primary "Price")) (.primary "Null"))).map
        Predicate.sql = .ok (some "(price) IS NOT NULL") ∧
      (shop.compile (.comparison "ge" (.primary "null") (.primary "Price"))).map Predicate.sql =
        .error (.nullComparison "ge") := by
  have isNe : ComparisonOperator.ofToken? "NE" = some .ne := by decide
  have isGe : ComparisonOperator.ofToken? "ge" = some .ge := by decide
  exact ⟨compile_null_comparison isNe (.inr (by decide)),
    compile_null_comparison isGe (.inl (by decide))⟩

/-- In a group `null` is compared, and not tested for. No order is refused. -/
theorem grouped_null_compared :
    (shop.compile (.comparison "eq" (.primary "Name") (.group (.primary "null")))).map
        Predicate.sql = .ok (some "name = (NULL)") ∧
      (shop.compile (.comparison "gt" (.primary "Price") (.group (.primary "null")))).map
        Predicate.sql = .ok (some "price > (NULL)") :=
  ⟨rfl, rfl⟩

end Compiler

end Sql

end FilterSql
