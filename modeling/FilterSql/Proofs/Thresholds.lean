import FilterSql.Proofs.Arithmetic
import FilterSql.Proofs.NullComparisons
import Mathlib.Tactic.LinearCombination

/-!
# Thresholds in metres

A distance in metres is compared with a threshold that is converted to degrees. If the threshold is no
literal, the conversion is a division put behind its text. What is divided depends on how the text is
read: it is the whole threshold only if the text is no sum, or if the summands before the last one
amount to nothing.

## Main statements

* `Compiler.compile_metres`: what a distance in metres is compared with.
-/

namespace FilterSql.Sql

open FilterSql.Filter Arithmetic

universe u

namespace Arithmetic

variable {K : Type u} [Field K] [CharZero K]

theorem value_divideLast_metres (env : Env K) (t : Term) :
    (t.divideLast (.number metres)).value env =
      t.leadingValue env + (t.value env - t.leadingValue env) / 111320 := by
  rw [value_divideLast, Term.value, value_metres]

/-- The last summand is all that is divided, so the rest must amount to nothing. -/
theorem value_divideLast_metres_eq_iff (env : Env K) (t : Term) :
    (t.divideLast (.number metres)).value env = t.value env / 111320 ↔ t.leadingValue env = 0 := by
  rw [value_divideLast_metres]
  generalize t.value env = x, t.leadingValue env = y
  constructor
  · intro same
    have rest : y * (111319 / 111320) = 0 := by linear_combination same
    have ratio : (111319 / 111320 : K) ≠ 0 := by norm_num
    exact (mul_eq_zero.1 rest).resolve_right ratio
  · rintro rfl
    ring

end Arithmetic

namespace Compiler

variable {c : Compiler} {op : String} {o : ComparisonOperator} {l r : Expr}

/-- A distance with a unit is no `NULL`. -/
theorem operand_ne_null_of_unit {left : Operand} {b : Bindings} {v : Value}
    (ran : c.operand true l .empty = .ok (left, b)) (unit : c.unitValue l = some v) :
    left.fragment ≠ .null := by
  refine operand_ne_null (Bool.eq_false_iff.2 fun null => ?_) ran
  have notCall := Expr.isCall_of_isNullLiteral (Expr.isNullLiteral_ungrouped null)
  simp [unitValue, ran, operand_unit_eq_none notCall ran] at unit

/-- The SQL of a distance in metres compared with something that is no literal. -/
theorem sql_metres {left right : Operand} {bl br : Bindings} {v : Value} {x : Clause}
    (isOp : ComparisonOperator.ofToken? op = some o)
    (ranₗ : c.operand true l .empty = .ok (left, bl)) (unit : c.unitValue l = some v)
    (inMetres : Text.sameName v.text "m" = true)
    (ranᵣ : c.operand false r bl = .ok (right, br)) (isClause : right.fragment = .clause x) :
    ∃ p, c.compile (.comparison op l r) = .ok p ∧
      p.sql = some (left.fragment.toClause.render c.options.sigil ++ " " ++ o.sql ++ " " ++
        ("(" ++ x.render c.options.sigil ++ " / 111320.0)")) := by
  have notNull : convertedFragment (c.unitValue l) right.fragment ≠ .null := by
    rw [ne_eq, convertedFragment_eq_null_iff, isClause]
    simp
  have threshold : (convertedFragment (c.unitValue l) right.fragment).toClause.render
      c.options.sigil = "(" ++ x.render c.options.sigil ++ " / 111320.0)" := by
    rw [isClause, render_convertedFragment, unit]
    simp [thresholdText, inMetres]
  have sql : (c.compile (.comparison op l r)).map Predicate.sql = _ := sql_comparison ranₗ ranᵣ
  rw [compareFragments_of_ne_null isOp (operand_ne_null_of_unit ranₗ unit) notNull, threshold] at sql
  rcases compiled : c.compile (.comparison op l r) with err | p
  · rw [compiled] at sql
    cases sql
  · rw [compiled] at sql
    exact ⟨p, rfl, Except.ok.inj sql⟩

/-- What a distance in metres is compared with, if that is an expression and no literal: its SQL is read
as the expression with its last summand converted to degrees. That is the threshold in degrees exactly
if nothing, or nothing but zero, stands before that summand. -/
theorem compile_metres {left right : Operand} {bl br : Bindings} {v : Value} {x : Clause} {e : Term}
    (isOp : ComparisonOperator.ofToken? op = some o)
    (ranₗ : c.operand true l .empty = .ok (left, bl)) (unit : c.unitValue l = some v)
    (inMetres : Text.sameName v.text "m" = true)
    (ranᵣ : c.operand false r bl = .ok (right, br)) (isClause : right.fragment = .clause x)
    (reads : Reads c.options.sigil (x.render c.options.sigil) e) :
    ∃ p threshold, c.compile (.comparison op l r) = .ok p ∧
      p.sql = some (left.fragment.toClause.render c.options.sigil ++ " " ++ o.sql ++ " " ++
        threshold) ∧
      ∃ e', (∀ t, Reads c.options.sigil threshold t ↔ t = e') ∧
        ∀ (K : Type u) [Field K] [CharZero K] (env : Env K),
          e'.value env = e.leadingValue env + (e.value env - e.leadingValue env) / 111320 ∧
          (e'.value env = e.value env / 111320 ↔ e.leadingValue env = 0) := by
  obtain ⟨p, compiled, sql⟩ := sql_metres isOp ranₗ unit inMetres ranᵣ isClause
  have divided := reads.divided
  refine ⟨p, _, compiled, sql, _, fun t => ⟨fun other => other.unique divided, ?_⟩, ?_⟩
  · rintro rfl
    exact divided
  · intro K _ _ env
    exact ⟨value_divideLast_metres env e, value_divideLast_metres_eq_iff env e⟩

/-- The shop with a column that stands for a sum. -/
def summing : Compiler :=
  { shop with columns := ⟨⟨"Radius", "inner + outer", "Edm.Double", none⟩ :: shop.columns.columns⟩ }

/-- A distance in metres. -/
def metreDistance : Expr :=
  .call "distance" [.primary "Place", .primary "'m'"] "distance(Place, 'm')"

def radius : Term := .binary .add (.name "inner") (.name "outer")

theorem reads_radius : Reads '@' "inner + outer" radius := by
  refine ⟨[.name "inner", .operator .add, .name "outer"], by decide +kernel, ?_⟩
  have inner := (IsFactor.primary (.name "inner")).isProduct
  have outer := (IsFactor.primary (.name "outer")).isProduct
  exact .mk (.mk inner (.step rfl outer .done))

theorem leadingValue_radius {K : Type} [Field K] (env : Env K) :
    radius.value env = env.name "inner" + env.name "outer" ∧
      radius.leadingValue env = env.name "inner" := by
  simp [radius, Term.value, Operator.apply, Term.leadingValue, Term.beforeLast?, Operator.isAdditive]

theorem compile_metres_summing :
    summing.unitValue metreDistance = some (.string "m") ∧ Reads '@' "inner + outer" radius ∧
      ∃ p threshold, summing.compile (.comparison "le" metreDistance (.primary "Radius")) = .ok p ∧
        p.sql = some ("ST_Distance(place, origin) <= " ++ threshold) ∧
        ∃ e', (∀ t, Reads '@' threshold t ↔ t = e') ∧
          ∀ env : Env ℚ, e'.value env = env.name "inner" + env.name "outer" / 111320 := by
  have ran : ∃ b, summing.operand true metreDistance .empty =
      .ok (⟨.clause (.ofString "ST_Distance(place, origin)"), some 1⟩, b) := ⟨_, rfl⟩
  obtain ⟨b, ran⟩ := ran
  have isLe : ComparisonOperator.ofToken? "le" = some .le := by decide
  refine ⟨rfl, reads_radius, ?_⟩
  obtain ⟨p, threshold, compiled, sql, e', reads, value⟩ := compile_metres (r := .primary "Radius")
    (x := .ofString "inner + outer") isLe ran rfl (by decide) rfl rfl reads_radius
  refine ⟨p, threshold, compiled, sql, e', reads, fun env => ?_⟩
  obtain ⟨all, leading⟩ := leadingValue_radius env
  rw [(value ℚ env).1, all, leading]
  ring

/-- Of a sum only the last summand is converted to degrees. -/
theorem sum_as_threshold :
    (summing.compile (.comparison "le" metreDistance (.primary "Radius"))).map Predicate.sql =
        .ok (some "ST_Distance(place, origin) <= (inner + outer / 111320.0)") ∧
      Reads '@' "inner + outer" radius ∧ ∃ e', Reads '@' "(inner + outer / 111320.0)" e' ∧
        e'.value (⟨fun _ => 1, fun _ => 0, fun _ => 0, fun _ _ => 0⟩ : Env ℚ) ≠
          radius.value ⟨fun _ => 1, fun _ => 0, fun _ => 0, fun _ _ => 0⟩ / 111320 := by
  refine ⟨rfl, reads_radius, _, reads_radius.divided, ?_⟩
  rw [Term.value, ne_eq, value_divideLast_metres_eq_iff, (leadingValue_radius _).2]
  norm_num

end Compiler

end FilterSql.Sql
