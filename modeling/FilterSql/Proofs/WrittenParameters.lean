import FilterSql.Proofs.ParameterAccounts
import FilterSql.Proofs.Phrases
import FilterSql.Proofs.PlacedTokens

/-!
# Parameters that are bound and parameters that are written

If no distance writes its unit, every parameter that the text of a condition mentions is bound. The
other way round this holds of fewer filters: a unit is dropped only where its distance is the left
side of a comparison, and in any other place it is bound and not written.

## Main statements

* `Compiler.compile_binds_written`: every parameter in the text is bound.
* `Compiler.compile_unwritten_length`: how many parameters are bound and not in the text.
-/

namespace FilterSql.Sql

open FilterSql.Filter Catalog

namespace Compiler

variable {c : Compiler}

/-- The condition that an expression compiles to, before it is rendered. -/
def condition (c : Compiler) (e : Expr) : Except CompileError Clause :=
  ((c.operand false e).run .empty).map (·.1.fragment.toClause)

theorem parameterName_injective (sigil : Char) : (parameterName sigil).Injective := by
  intro m n same
  have digits : Nat.toDigits 10 m = Nat.toDigits 10 n := by
    simpa [parameterName] using congrArg String.toList same
  rw [← @Nat.ofDigitChars_ten_toDigits m, digits, Nat.ofDigitChars_ten_toDigits]

/-- The parameters of a condition are those that are written and those that are spare. -/
theorem exists_splits_of_compile (hidden : c.UnitsUnwritten) {e : Expr} {p : Predicate}
    (compiled : c.compile e = .ok p) :
    ∃ (clause : Clause) (written spare : List Nat), c.condition e = .ok clause ∧
      p.sql = some (clause.render c.options.sigil) ∧
      p.parameters.keys.Perm ((written ++ spare).map (parameterName c.options.sigil)) ∧
      (written ++ spare).Nodup ∧ (∀ n, n ∈ written ↔ n ∈ clause.params) ∧
      (c.catalog.WritesArguments → (c.tally e).spare = spare.length) := by
  obtain ⟨o, b, ran, rfl⟩ := compile_eq_ok.1 compiled
  obtain ⟨written, spare, accounted⟩ := operand_accounted hidden Bindings.inRange_empty ran
  refine ⟨o.fragment.toClause, written, spare, ?_, rfl, ?_, accounted.splits.nodup,
    accounted.splits.mem_written, fun complete => by rw [accounted.tally complete]⟩
  · simp only [condition, StateT.run, ran]
    rfl
  · rw [Table.keys_mapKeys]
    exact accounted.splits.keys.map _

/-- If no distance writes its unit, every parameter that the text of a condition mentions is bound. -/
theorem compile_binds_written {e : Expr} {p : Predicate} (hidden : c.catalog.HidesUnits)
    (compiled : c.compile e = .ok p) :
    ∃ clause, c.condition e = .ok clause ∧ p.sql = some (clause.render c.options.sigil) ∧
      ∀ n ∈ clause.params, parameterName c.options.sigil n ∈ p.parameters.keys := by
  obtain ⟨clause, written, spare, condition, sql, keys, -, mem_written, -⟩ :=
    exists_splits_of_compile (unitsUnwritten_of_hidesUnits hidden) compiled
  refine ⟨clause, condition, sql, fun n mentioned => keys.mem_iff.2 ?_⟩
  exact List.mem_map_of_mem (List.mem_append_left _ ((mem_written n).2 mentioned))

/-- The unit of a distance is dropped, and the threshold is bound. -/
theorem compile_binds_written_distance :
    let e : Expr := .comparison "le" (.callOf "distance" [.primary "Place", .primary "'m'"])
      (.primary "'5'")
    ∃ p clause, shop.compile e = .ok p ∧ shop.condition e = .ok clause ∧ clause.params = [2] ∧
      parameterName '@' 2 ∈ p.parameters.keys := by
  intro e
  have hidden : shop.catalog.HidesUnits := by decide +kernel
  have mentioned : (shop.condition e).map (·.params) = .ok [2] := rfl
  rcases compiled : shop.compile e with err | p
  · have succeeds : (shop.compile e).isOk = true := rfl
    rw [compiled] at succeeds
    cases succeeds
  · obtain ⟨clause, condition, -, bound⟩ := compile_binds_written hidden compiled
    rw [condition] at mentioned
    have params : clause.params = [2] := by simpa [Except.map] using mentioned
    exact ⟨p, clause, rfl, condition, params, bound 2 (by simp [params])⟩

/-- The parameters that are bound and not written are as many as the tally says: where functions
write all of their arguments and distances all but the unit, these are the units of the distances
that are not the left side of a comparison, with the parameters of units that are no literals. -/
theorem compile_unwritten_length {e : Expr} {p : Predicate}
    (complete : c.catalog.WritesArguments) (compiled : c.compile e = .ok p) :
    ∃ clause, c.condition e = .ok clause ∧ p.sql = some (clause.render c.options.sigil) ∧
      (p.parameters.keys.filter
        (· ∉ clause.params.map (parameterName c.options.sigil))).length = (c.tally e).spare := by
  obtain ⟨clause, written, spare, condition, sql, keys, nodup, mem_written, counted⟩ :=
    exists_splits_of_compile (unitsUnwritten_of_writesArguments complete) compiled
  refine ⟨clause, condition, sql, ?_⟩
  have names : ∀ n, parameterName c.options.sigil n ∈
      clause.params.map (parameterName c.options.sigil) ↔ n ∈ written := by
    intro n
    rw [List.mem_map_of_injective (parameterName_injective _), mem_written]
  have unwritten : (written ++ spare).filter (· ∉ written) = spare := by
    have apart : ∀ n ∈ spare, n ∉ written := fun n inSpare inWritten =>
      (List.nodup_append.1 nodup).2.2 n inWritten n inSpare rfl
    rw [List.filter_append, List.filter_eq_nil_iff.2 (by simp), List.nil_append,
      List.filter_eq_self.2 (by simpa using apart)]
  rw [(keys.filter _).length_eq, List.filter_map, List.length_map, counted complete]
  simp only [Function.comp_def, names, unwritten]

/-- Of a distance on the right side of a comparison the unit is bound and not written. -/
theorem compile_unwritten_length_right :
    let e : Expr := .comparison "gt" (.primary "5")
      (.callOf "distance" [.primary "Place", .primary "'d'"])
    ∃ p clause, shop.compile e = .ok p ∧ shop.condition e = .ok clause ∧
      (p.parameters.keys.filter (· ∉ clause.params.map (parameterName '@'))).length = 1 := by
  intro e
  have complete : shop.catalog.WritesArguments := by decide +kernel
  have spare : (shop.tally e).spare = 1 := by decide +kernel
  rcases compiled : shop.compile e with err | p
  · have succeeds : (shop.compile e).isOk = true := rfl
    rw [compiled] at succeeds
    cases succeeds
  · obtain ⟨clause, condition, -, length⟩ := compile_unwritten_length complete compiled
    exact ⟨p, clause, rfl, condition, length.trans spare⟩

/-- A filter with a distance within the left side of a comparison. The unit of the distance is left
among the parameters, and it is not written. -/
theorem unit_unwritten_within_left :
    ∃ e p clause, Expr.parse "startswith(distance(Place,'d'),'5') eq true" = .ok e ∧
      shop.catalog.WritesArguments ∧ shop.compile e = .ok p ∧ shop.condition e = .ok clause ∧
      p.sql = some (clause.render '@') ∧ p.parameters.keys = ["@p1", "@p2", "@p3"] ∧
      clause.params.map (parameterName '@') = ["@p2", "@p3"] := by
  have tokens : spacedTokens (dropFilterName "startswith(distance(Place,'d'),'5') eq true") =
      .ok [⟨"", .word, "startswith"⟩, ⟨"", .openParen, "("⟩, ⟨"", .word, "distance"⟩,
        ⟨"", .openParen, "("⟩, ⟨"", .word, "Place"⟩, ⟨"", .comma, ","⟩, ⟨"", .literal, "'d'"⟩,
        ⟨"", .closeParen, ")"⟩, ⟨"", .comma, ","⟩, ⟨"", .literal, "'5'"⟩, ⟨"", .closeParen, ")"⟩,
        ⟨" ", .word, "eq"⟩, ⟨" ", .word, "true"⟩] :=
    eq_ok_of_toOption (by decide +kernel)
  have distance : IsExpr [⟨"", .word, "distance"⟩, ⟨"", .openParen, "("⟩, ⟨"", .word, "Place"⟩,
      ⟨"", .comma, ","⟩, ⟨"", .literal, "'d'"⟩, ⟨"", .closeParen, ")"⟩]
      (.callOf "distance" [.primary "Place", .primary "'d'"]) :=
    isExpr_call_two ⟨rfl, by decide⟩ rfl (isExpr_word _ (by decide)) rfl (isExpr_literal _ _) rfl
      (by decide +kernel)
  have pattern : IsExpr [⟨"", .word, "startswith"⟩, ⟨"", .openParen, "("⟩, ⟨"", .word, "distance"⟩,
      ⟨"", .openParen, "("⟩, ⟨"", .word, "Place"⟩, ⟨"", .comma, ","⟩, ⟨"", .literal, "'d'"⟩,
      ⟨"", .closeParen, ")"⟩, ⟨"", .comma, ","⟩, ⟨"", .literal, "'5'"⟩, ⟨"", .closeParen, ")"⟩]
      (.callOf "startswith" [.callOf "distance" [.primary "Place", .primary "'d'"],
        .primary "'5'"]) :=
    isExpr_call_two ⟨rfl, by decide⟩ rfl distance rfl (isExpr_literal _ _) rfl (by decide +kernel)
  have phrase : IsExpr _ (.comparison "eq" (.callOf "startswith"
      [.callOf "distance" [.primary "Place", .primary "'d'"], .primary "'5'"]) (.primary "true")) :=
    isExpr_comparison_iff.2 ⟨_, ⟨" ", .word, "eq"⟩, [⟨" ", .word, "true"⟩], rfl, by decide,
      by decide, ⟨pattern, rfl⟩, isExpr_word _ (by decide), rfl⟩
  have parsed : Expr.parse "startswith(distance(Place,'d'),'5') eq true" =
      .ok (.comparison "eq" (.callOf "startswith"
        [.callOf "distance" [.primary "Place", .primary "'d'"], .primary "'5'"])
        (.primary "true")) :=
    Expr.parse_of_isExpr tokens phrase (by decide)
  refine ⟨_, _, _, parsed, by decide +kernel, rfl, rfl, rfl, ?_, ?_⟩
  · decide +kernel
  · decide +kernel

end Compiler

end FilterSql.Sql
