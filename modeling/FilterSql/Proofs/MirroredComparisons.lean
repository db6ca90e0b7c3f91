import FilterSql.Proofs.LiteralIndependence
import FilterSql.Proofs.ParameterAccounts
import FilterSql.Proofs.StringLiterals

/-!
# Mirrored comparisons

A comparison can be turned around: the operands change sides, and the operator is mirrored. Both sides
are treated alike as far as `null` goes. A distance is not: only on the left is its unit dropped from
the parameters, and only then is the other side converted from metres to degrees.

## Main statements

* `Compiler.compile_mirrored`: what a comparison and its mirror image have in common. They bind the
  same values exactly if their operands have the same unit, or none.
-/

namespace FilterSql

open FilterSql.Filter Catalog Sql

/-! ## Values of a table -/

namespace Sql.Table

variable {κ ν : Type} [DecidableEq κ]

omit [DecidableEq κ] in
/-- The values of a table, in the order of their keys. -/
def values (t : Table κ ν) : List ν := t.entries.map (·.2)

omit [DecidableEq κ] in
@[simp] theorem values_append (t u : Table κ ν) : (t ++ u).values = t.values ++ u.values := by
  simp [values]

omit [DecidableEq κ] in
@[simp] theorem values_mapKeys {κ' : Type} (f : κ → κ') (t : Table κ ν) :
    (t.mapKeys f).values = t.values := by
  simp [values, Function.comp_def]

theorem erase_append_of_mem {t : Table κ ν} {key : κ} (h : key ∈ t.keys) (u : Table κ ν) :
    (t ++ u).erase key = t.erase key ++ u := by
  obtain ⟨e, member, rfl⟩ := List.mem_map.1 h
  exact congrArg Table.mk (List.eraseP_append_left (by simp) _ member)

/-- Erasing a key takes its value away. -/
theorem values_perm_erase {t : Table κ ν} {key : κ} {value : ν} (h : t.get? key = some value) :
    t.values.Perm (value :: (t.erase key).values) := by
  obtain ⟨es⟩ := t
  induction es with
  | nil => cases h
  | cons e es ih =>
    by_cases same : e.1 = key
    · obtain rfl : e.2 = value := by simpa [get?, same] using h
      simp [values, erase, same]
    · have found : (Table.mk es).get? key = some value := by simpa [get?, same] using h
      have rest := (ih found).cons e.2
      simp only [values, erase, List.map_cons, List.eraseP_cons, same] at rest ⊢
      exact rest.trans (.swap value e.2 _)

end Sql.Table

namespace Sql

/-- The values of the parameters of a condition. -/
def Predicate.values (p : Predicate) : List Value := p.parameters.values

/-- A length in metres as degrees. What is no number stays as it is. -/
def Value.toDegrees (v : Value) : Value :=
  v.toFloat?.elim v fun meters => .double (meters / Float.ofNat metersPerDegree)

end Sql

/-! ## Operands -/

namespace Sql.Compiler

variable {c : Compiler}

/-- Everything but a leaf compiles to a clause. -/
theorem operand_eq_clause {e : Expr} (notLeaf : ∀ text, e ≠ .primary text) {leading : Bool}
    {b b' : Bindings} {o : Operand} (h : c.operand leading e b = .ok (o, b')) :
    ∃ x, o.fragment = .clause x := by
  induction e generalizing leading b b' o with
  | primary text => exact absurd rfl (notLeaf text)
  | call name args raw =>
    obtain ⟨f, qs, b₁, -, -, finished⟩ := operand_call_eq_ok h
    obtain ⟨qs₁, b₂, qs₂, -, -, -, rfl⟩ := finishCall_eq_ok.1 finished
    exact ⟨_, rfl⟩
  | group e ih =>
    simp only [operand] at h
    split at h
    · next isCall =>
      refine ih ?_ h
      rintro text rfl
      simp [Expr.ungrouped, Expr.isCall] at isCall
    · obtain ⟨inner, b₁, -, h⟩ := Compile.bind_eq_ok.1 h
      cases h
      exact ⟨_, rfl⟩
  | comparison op l r =>
    rw [operand_comparison] at h
    simp only [compareOperands, Compile.bind_eq_ok] at h
    obtain ⟨_, _, -, _, _, -, _, _, -, _, _, -, h⟩ := h
    cases h
    exact ⟨_, rfl⟩
  | not e =>
    simp only [operand, Compile.bind_eq_ok] at h
    obtain ⟨_, _, -, h⟩ := h
    cases h
    exact ⟨_, rfl⟩
  | logical op l r | inList l values =>
    simp only [operand, Compile.bind_eq_ok] at h
    obtain ⟨_, _, -, _, _, -, h⟩ := h
    cases h
    exact ⟨_, rfl⟩

/-- On either side of a comparison an operand binds the same, and it is `null`, a parameter or a
clause on both. -/
theorem operand_false_of_true {e : Expr} {b b' : Bindings} {o : Operand}
    (h : c.operand true e b = .ok (o, b')) :
    ∃ o', c.operand false e b = .ok (o', b') ∧
      (o'.fragment = o.fragment ∨
        (∃ x, o.fragment = .clause x) ∧ ∃ x, o'.fragment = .clause x) := by
  induction e generalizing b b' o with
  | group e ih =>
    cases isCall : e.ungrouped.isCall with
    | true =>
      have clause := operand_eq_clause (e := .group e) (by simp) h
      simp only [operand, isCall, Bool.true_and, if_true] at h
      obtain ⟨o', ran, -⟩ := ih h
      refine ⟨⟨.clause o'.fragment.toClause.parenthesized, none⟩, ?_, .inr ⟨clause, _, rfl⟩⟩
      simp only [operand, Bool.false_and, Bool.false_eq_true, if_false, Compile.bind_eq_ok]
      exact ⟨o', b', ran, rfl⟩
    | false =>
      simp only [operand, isCall, Bool.and_false, Bool.false_eq_true, if_false] at h ⊢
      exact ⟨o, h, .inl rfl⟩
  | primary | call | not | comparison | logical | inList =>
    simp only [operand] at h ⊢
    exact ⟨o, h, .inl rfl⟩

/-- The parameters among compiled arguments are in the table. -/
theorem arguments_param_mem {f : SqlFunction} {index : Nat} {es : List Expr} {qs : List Fragment}
    {b b' : Bindings} (inRange : b.InRange) (h : c.arguments f index es b = .ok (qs, b')) {n : Nat}
    (member : Fragment.param n ∈ qs) : n ∈ b'.table.keys := by
  induction es generalizing index b qs with
  | nil =>
    cases h
    cases member
  | cons e es ih =>
    simp only [arguments_cons, Compile.bind_eq_ok] at h
    obtain ⟨q, b₁, ran, qs', b₂, more, h⟩ := h
    cases h
    have inRange₁ := (argument_grows (fun _ => operand_grows) ran).1.inRange inRange
    rcases List.mem_cons.1 member with rfl | member
    · obtain ⟨value, bound⟩ := argument_eq_param ran
      rw [bound, bindValue_apply] at ran
      cases ran
      have kept := arguments_keeps inRange₁.bounded more (Nat.le_refl _)
      rw [Table.get?_insert_self] at kept
      exact Table.mem_keys_of_get? kept
    · exact ih inRange₁ more member

/-- Only calls have units. -/
theorem operand_unit_eq_none {e : Expr} (notCall : e.ungrouped.isCall = false) {leading : Bool}
    {b b' : Bindings} {o : Operand} (h : c.operand leading e b = .ok (o, b')) : o.unit = none := by
  cases e with
  | call => cases notCall
  | group e =>
    simp only [operand, show e.ungrouped.isCall = false from notCall, Bool.and_false,
      Bool.false_eq_true, if_false, Compile.bind_eq_ok] at h
    obtain ⟨_, _, -, h⟩ := h
    cases h
    rfl
  | comparison op l r =>
    rw [operand_comparison] at h
    simp only [compareOperands, Compile.bind_eq_ok] at h
    obtain ⟨_, _, -, _, _, -, _, _, -, _, _, -, h⟩ := h
    cases h
    rfl
  | primary | not =>
    simp only [operand, Compile.bind_eq_ok] at h
    obtain ⟨_, _, -, h⟩ := h
    cases h
    rfl
  | logical | inList =>
    simp only [operand, Compile.bind_eq_ok] at h
    obtain ⟨_, _, -, _, _, -, h⟩ := h
    cases h
    rfl

/-- An operand on the left has a unit exactly if it is a distance with a literal for its unit, and
then the unit is bound. -/
theorem operand_unit {e : Expr} {b b' : Bindings} {o : Operand} (inRange : b.InRange)
    (h : c.operand true e b = .ok (o, b')) :
    o.unit.isSome = c.hasUnit e ∧ ∀ n, o.unit = some n → n ∈ b'.table.keys := by
  induction e generalizing b b' o with
  | call name args raw =>
    obtain ⟨f, qs, b₁, found, ran, finished⟩ := operand_call_eq_ok h
    obtain ⟨qs₁, b₂, qs₂, recovered, -, wild, rfl⟩ := finishCall_eq_ok.1 finished
    have given := arguments_givenArguments ran recovered
    have bound : ∀ q ∈ qs₁, ∀ n, q = .param n → n ∈ b₂.table.keys := by
      rintro _ member n rfl
      exact arguments_param_mem inRange given member
    have unit := (wildcardArguments_params wild).2 bound
    constructor
    · have same : (givenArguments f args raw)[1]? = args[1]? := by
        rcases givenArguments_cases f args raw with eq | ⟨rfl, text, -, eq⟩ <;> simp [eq]
      rw [unit, arguments_unit_isSome given, same]
      simp [hasUnit, Expr.ungrouped, found]
    · intro n isUnit
      rw [unit] at isUnit
      obtain ⟨-, first, others, rfl⟩ := unitOf_eq_some.1 isUnit
      rw [(wildcardArguments_eq_ok wild).2.1]
      exact bound (.param n) (by simp) n rfl
  | group e ih =>
    cases isCall : e.ungrouped.isCall with
    | true =>
      simp only [operand, isCall, Bool.true_and, if_true] at h
      exact ih inRange h
    | false =>
      simp [operand_unit_eq_none (e := .group e) isCall h, hasUnit_eq_false (e := e) isCall]
  | primary | not | comparison | logical | inList =>
    rw [operand_unit_eq_none rfl h]
    exact ⟨rfl, by simp⟩

theorem operand_of_isBoundLiteral {e : Expr} (bound : isBoundLiteral e = true) :
    ∃ value, c.operand false e .empty = .ok (⟨.param 1, none⟩, ⟨1, ⟨[(1, value)]⟩⟩) := by
  cases e with
  | primary text =>
    obtain ⟨value, eq⟩ := c.primary_of_isBound (isBoundLiteral_primary_iff.1 bound)
    exact ⟨value, by simp only [operand, eq]; rfl⟩
  | _ => cases bound

/-! ## The values that a comparison binds -/

/-- The value of the unit, if the expression is a distance with one on the left of a comparison. -/
def unitValue (c : Compiler) (e : Expr) : Option Value :=
  match c.operand true e .empty with
  | .ok (o, b) => o.unit.bind b.table.get?
  | .error _ => none

/-- The values of what a distance in the given unit is compared with. A literal in metres is
converted, and the conversion of anything else is left to the SQL. -/
def thresholdValues (unit : Option Value) (e : Expr) (values : List Value) : List Value :=
  if unit.any (Text.sameName ·.text "m") && isBoundLiteral e then values.map Value.toDegrees
  else values

theorem thresholdValues_of_not_isBoundLiteral {e : Expr} (h : isBoundLiteral e = false)
    (unit : Option Value) (values : List Value) : thresholdValues unit e values = values := by
  simp [thresholdValues, h]

/-- A threshold drops the unit, and no other value of the distance. -/
theorem threshold_values {r : Expr} {unit : Option Nat} {bl br b : Bindings} {right : Operand}
    {q : Fragment} (inRange : bl.InRange) (unit_mem : ∀ n, unit = some n → n ∈ bl.table.keys)
    (alone : c.operand false r .empty = .ok (right, br))
    (h : threshold unit (right.renumber bl.count).fragment (bl ++ br) = .ok (q, b)) :
    ∃ kept, bl.table.values.Perm ((unit.bind bl.table.get?).toList ++ kept) ∧
      b.table.values = kept ++ thresholdValues (unit.bind bl.table.get?) r br.table.values := by
  cases unit with
  | none =>
    cases h
    exact ⟨bl.table.values, .refl _, by simp [thresholdValues]⟩
  | some n =>
    have mem := unit_mem n rfl
    obtain ⟨value, found⟩ := Table.exists_get?_of_mem mem
    refine ⟨(bl.table.erase n).values, by simpa [found] using Table.values_perm_erase found, ?_⟩
    have get : (bl ++ br).table.get? n = some value :=
      (Table.get?_append_of_mem mem _).trans found
    have erased : (bl ++ br).table.erase n =
        bl.table.erase n ++ br.table.mapKeys (bl.count + ·) := Table.erase_append_of_mem mem _
    simp only [threshold, convertThreshold, get, erased, Option.map_some, Option.getD_some] at h
    by_cases meters : Text.sameName value.text "m" = true
    · rw [meters] at h
      cases literal : isBoundLiteral r with
      | true =>
        obtain ⟨v, alone'⟩ := operand_of_isBoundLiteral (c := c) literal
        rw [alone] at alone'
        cases alone'
        have fresh : bl.count + 1 ∉ (bl.table.erase n).keys := by
          rw [Table.keys_erase]
          exact fun member => absurd (inRange _ (List.mem_of_mem_erase member)).2 (by omega)
        have entry (w : Value) : (Table.mk [(1, w)]).mapKeys (bl.count + ·) =
            ⟨[(bl.count + 1, w)]⟩ := rfl
        have lookup : (bl.table.erase n ++ ⟨[(bl.count + 1, v)]⟩).get? (bl.count + 1) = some v := by
          rw [Table.get?_append_of_notMem fresh]
          simp [Table.get?]
        have insert (w : Value) :
            (bl.table.erase n ++ ⟨[(bl.count + 1, v)]⟩).insert (bl.count + 1) w =
              bl.table.erase n ++ ⟨[(bl.count + 1, w)]⟩ := by
          rw [Table.insert_append_of_notMem fresh]
          simp [Table.insert, Table.put]
        simp only [Operand.renumber, Fragment.renumber, entry, lookup, insert,
          Option.bind_some] at h
        cases float : v.toFloat? with
        | none =>
          rw [float] at h
          cases h
          simp [thresholdValues, found, meters, literal, Table.values, Value.toDegrees, float]
        | some x =>
          rw [float] at h
          cases h
          simp [thresholdValues, found, meters, literal, Table.values, Value.toDegrees, float]
      | false =>
        rw [thresholdValues_of_not_isBoundLiteral literal]
        cases fragment : right.fragment with
        | param m =>
          obtain ⟨text, v, rfl, eq⟩ := operand_eq_param alone fragment
          rw [isBoundLiteral_primary_iff.2 (isBound_of_primary eq)] at literal
          cases literal
        | null | clause =>
          simp only [Operand.renumber, fragment, Fragment.renumber] at h
          cases h
          simp
    · simp only [meters, Bool.not_false, if_true] at h
      cases h
      simp [thresholdValues, found, meters]

/-- A comparison compiles its operands as if they stood alone, on the left and elsewhere. -/
theorem compile_comparison_eq_ok {op : String} {l r : Expr} {p : Predicate}
    (h : c.compile (.comparison op l r) = .ok p) :
    ∃ left bl right br q b clause, c.operand true l .empty = .ok (left, bl) ∧
      c.operand false r .empty = .ok (right, br) ∧
      threshold left.unit (right.renumber bl.count).fragment (bl ++ br) = .ok (q, b) ∧
      compareFragments op left.fragment q = .ok clause ∧
      p = ⟨some (clause.render c.options.sigil),
        b.table.mapKeys (parameterName c.options.sigil)⟩ := by
  obtain ⟨o, b, ran, rfl⟩ := compile_eq_ok.1 h
  rw [operand_comparison] at ran
  simp only [compareOperands, Compile.bind_eq_ok] at ran
  obtain ⟨left, bl, ranₗ, right, b₁, ranᵣ, q, b₂, converted, clause, b₃, compared, eq⟩ := ran
  have inRange := (operand_grows ranₗ).1.inRange Bindings.inRange_empty
  obtain ⟨right, br, alone, -, rfl, rfl⟩ := operand_eq_ok_after inRange.bounded ranᵣ
  obtain ⟨compared', rfl⟩ := Compile.liftM_eq_ok.1 compared
  cases eq
  exact ⟨left, bl, right, br, q, _, clause, ranₗ, alone, converted, compared', rfl⟩

/-- A comparison binds what its operands bind alone, but for the unit of a distance on the left, and
with the other side as its threshold. -/
theorem compile_comparison_values {op : String} {l r : Expr} {p : Predicate}
    (h : c.compile (.comparison op l r) = .ok p) :
    ∃ pl pr kept, c.compile l = .ok pl ∧ c.compile r = .ok pr ∧
      pl.values.Perm ((c.unitValue l).toList ++ kept) ∧
      p.values = kept ++ thresholdValues (c.unitValue l) r pr.values := by
  obtain ⟨left, bl, right, br, q, b, clause, ranₗ, ranᵣ, converted, -, rfl⟩ :=
    compile_comparison_eq_ok h
  have inRange := (operand_grows ranₗ).1.inRange Bindings.inRange_empty
  have unit : c.unitValue l = left.unit.bind bl.table.get? := by simp only [unitValue, ranₗ]
  obtain ⟨-, unit_mem⟩ := operand_unit Bindings.inRange_empty ranₗ
  obtain ⟨kept, dropped, values⟩ := threshold_values inRange unit_mem ranᵣ converted
  obtain ⟨left', ranₗ', -⟩ := operand_false_of_true ranₗ
  refine ⟨_, _, kept, compile_eq_ok.2 ⟨left', bl, ranₗ', rfl⟩,
    compile_eq_ok.2 ⟨right, br, ranᵣ, rfl⟩, ?_, ?_⟩
  · simpa [Predicate.values, unit] using dropped
  · simpa [Predicate.values, unit] using values

theorem unitValue_isSome {e : Expr} {b : Bindings} {o : Operand}
    (h : c.operand true e .empty = .ok (o, b)) : (c.unitValue e).isSome = c.hasUnit e := by
  obtain ⟨isSome, bound⟩ := operand_unit Bindings.inRange_empty h
  simp only [unitValue, h, ← isSome]
  cases unit : o.unit with
  | none => rfl
  | some n =>
    obtain ⟨value, found⟩ := Table.exists_get?_of_mem (bound n unit)
    simp [found]

theorem isBoundLiteral_of_hasUnit {e : Expr} (h : c.hasUnit e = true) :
    isBoundLiteral e = false := by
  cases e with
  | primary => cases h
  | _ => rfl

end Sql.Compiler

/-! ## Null tests -/

/-- The literal `null`, outside of groups. -/
def Filter.Expr.isNullLiteral : Expr → Bool
  | .primary text => Literal.isNull text
  | _ => false

namespace Sql

namespace ComparisonOperator

/-- The operator with its sides exchanged. -/
def mirror : ComparisonOperator → ComparisonOperator
  | .eq => .eq
  | .ne => .ne
  | .gt => .lt
  | .ge => .le
  | .lt => .gt
  | .le => .ge

/-- What a test for `null` ends with. There is none for an order. -/
def nullSuffix? : ComparisonOperator → Option String
  | .eq => some " IS NULL"
  | .ne => some " IS NOT NULL"
  | .gt | .ge | .lt | .le => none

theorem nullSuffix?_mirror (o : ComparisonOperator) : o.mirror.nullSuffix? = o.nullSuffix? := by
  cases o <;> rfl

end ComparisonOperator

theorem nullTest_eq_ok {o : ComparisonOperator} {token : String} {f : Fragment} {clause : Clause}
    (h : nullTest o token f = .ok clause) :
    ∃ suffix, o.nullSuffix? = some suffix ∧ clause = f.toClause ++ .ofString suffix := by
  cases o <;> cases h <;> exact ⟨_, rfl, rfl⟩

theorem compareFragments_eq_ok {op : String} {o : ComparisonOperator} {l r : Fragment}
    {clause : Clause} (isOp : ComparisonOperator.ofToken? op = some o)
    (h : compareFragments op l r = .ok clause) :
    (l = .null ∨ r = .null) ∧ (∃ x suffix, o.nullSuffix? = some suffix ∧
        clause = x ++ Clause.ofString suffix) ∨
      l ≠ .null ∧ r ≠ .null ∧
        clause = l.toClause ++ .ofString (" " ++ o.sql ++ " ") ++ r.toClause := by
  simp only [compareFragments, isOp] at h
  split at h
  · obtain ⟨suffix, isSuffix, eq⟩ := nullTest_eq_ok h
    exact .inl ⟨.inr rfl, _, suffix, isSuffix, eq⟩
  · obtain ⟨suffix, isSuffix, eq⟩ := nullTest_eq_ok h
    exact .inl ⟨.inl rfl, _, suffix, isSuffix, eq⟩
  · next notRight notLeft =>
    cases h
    exact .inr ⟨notRight, notLeft, rfl⟩

theorem Fragment.renumber_eq_null_iff {base : Nat} {f : Fragment} :
    f.renumber base = .null ↔ f = .null := by
  cases f <;> simp [renumber]

namespace Compiler

variable {c : Compiler}

theorem operand_eq_null_iff {e : Expr} {leading : Bool} {b b' : Bindings} {o : Operand}
    (h : c.operand leading e b = .ok (o, b')) : o.fragment = .null ↔ e.isNullLiteral = true := by
  cases e with
  | primary text =>
    simp only [operand, Compile.bind_eq_ok] at h
    obtain ⟨q, b₁, ran, h⟩ := h
    cases h
    rcases c.primary_cases text with ⟨null, eq⟩ | ⟨notNull, -, value, eq⟩ | ⟨path, column, -, eq⟩ |
      ⟨-, -, eq⟩
    all_goals rw [eq] at ran; cases ran
    · simpa [Expr.isNullLiteral] using null
    · simpa [Expr.isNullLiteral] using notNull
    · have notNull : Literal.isNull text ≠ true := by
        intro null
        rw [Literal.isLiteral_of_isNull null] at path
        cases path
      simpa [Expr.isNullLiteral] using notNull
  | call | not | group | comparison | logical | inList =>
    obtain ⟨x, clause⟩ := operand_eq_clause (by simp) h
    simp [clause, Expr.isNullLiteral]

theorem threshold_eq_null_iff {unit : Option Nat} {f q : Fragment} {b b' : Bindings}
    (h : threshold unit f b = .ok (q, b')) : q = .null ↔ f = .null := by
  cases unit with
  | none =>
    cases h
    rfl
  | some n =>
    obtain ⟨-, -, rfl⟩ := convertThreshold_eq_ok h
    cases f with
    | clause x =>
      rw [convertedFragment]
      split <;> simp
    | null | param => rfl

theorem compile_comparison_sql {op : String} {o : ComparisonOperator} {l r : Expr} {p : Predicate}
    (isOp : ComparisonOperator.ofToken? op = some o)
    (h : c.compile (.comparison op l r) = .ok p) :
    if l.isNullLiteral || r.isNullLiteral then
      ∃ suffix x, o.nullSuffix? = some suffix ∧ p.sql = some (x ++ suffix)
    else ∃ x y, p.sql = some (x ++ " " ++ o.sql ++ " " ++ y) := by
  obtain ⟨left, bl, right, br, q, b, clause, ranₗ, ranᵣ, converted, compared, rfl⟩ :=
    compile_comparison_eq_ok h
  have nullₗ := operand_eq_null_iff ranₗ
  have nullᵣ : q = .null ↔ r.isNullLiteral = true := by
    rw [threshold_eq_null_iff converted, Operand.fragment_renumber,
      Fragment.renumber_eq_null_iff, operand_eq_null_iff ranᵣ]
  rcases compareFragments_eq_ok isOp compared with ⟨null, x, suffix, isSuffix, rfl⟩ |
    ⟨notNullₗ, notNullᵣ, rfl⟩
  · rw [nullₗ, nullᵣ, ← Bool.or_eq_true] at null
    rw [if_pos null]
    exact ⟨suffix, x.render c.options.sigil, isSuffix, by
      simp only [Clause.render_append, Clause.render_ofString]⟩
  · rw [ne_eq, nullₗ] at notNullₗ
    rw [ne_eq, nullᵣ] at notNullᵣ
    rw [if_neg (by simp [notNullₗ, notNullᵣ])]
    exact ⟨left.fragment.toClause.render c.options.sigil, q.toClause.render c.options.sigil, by
      simp only [Clause.render_append, Clause.render_ofString, String.append_assoc]⟩

/-! ## Mirror images -/

theorem perm_cons_iff_eq {α : Type} {x y : α} {zs : List α} :
    (x :: zs).Perm (y :: zs) ↔ x = y := by
  classical
  constructor
  · intro h
    have count := h.count_eq x
    rw [List.count_cons_self, List.count_cons] at count
    by_contra other
    simp [Ne.symm other] at count
  · rintro rfl
    exact .refl _

theorem thresholdValues_length (unit : Option Value) (e : Expr) (values : List Value) :
    (thresholdValues unit e values).length = values.length := by
  unfold thresholdValues
  split <;> simp

/-- Where both sides drop their units, the same values are left only if the units are the same. -/
theorem thresholdValues_perm_iff {l r : Expr} {unitₗ unitᵣ : Option Value}
    {valuesₗ valuesᵣ keptₗ keptᵣ : List Value} (dropₗ : valuesₗ.Perm (unitₗ.toList ++ keptₗ))
    (dropᵣ : valuesᵣ.Perm (unitᵣ.toList ++ keptᵣ))
    (distanceₗ : unitₗ.isSome = true → isBoundLiteral l = false)
    (distanceᵣ : unitᵣ.isSome = true → isBoundLiteral r = false) :
    (keptₗ ++ thresholdValues unitₗ r valuesᵣ).Perm (keptᵣ ++ thresholdValues unitᵣ l valuesₗ) ↔
      unitₗ = unitᵣ := by
  have lengthₗ := dropₗ.length_eq
  have lengthᵣ := dropᵣ.length_eq
  match unitₗ, unitᵣ with
  | none, none =>
    have same : (keptₗ ++ valuesᵣ).Perm (keptᵣ ++ valuesₗ) :=
      (dropₗ.symm.append dropᵣ).trans List.perm_append_comm
    simpa [thresholdValues] using same
  | some u, none | none, some u =>
    refine iff_of_false (fun same => ?_) (by simp)
    have length := same.length_eq
    simp only [List.length_append, thresholdValues_length, Option.toList_some, Option.toList_none,
      List.length_cons, List.length_nil] at length lengthₗ lengthᵣ
    omega
  | some u, some v =>
    rw [thresholdValues_of_not_isBoundLiteral (distanceᵣ rfl),
      thresholdValues_of_not_isBoundLiteral (distanceₗ rfl)]
    have left : (keptₗ ++ valuesᵣ).Perm (v :: (keptₗ ++ keptᵣ)) :=
      (dropᵣ.append_left keptₗ).trans List.perm_middle
    have right : (keptᵣ ++ valuesₗ).Perm (u :: (keptₗ ++ keptᵣ)) :=
      ((dropₗ.append_left keptᵣ).trans List.perm_middle).trans (List.perm_append_comm.cons u)
    rw [left.congr_left, right.congr_right, perm_cons_iff_eq, Option.some.injEq, eq_comm]

/-- A comparison and its mirror image are both null tests, which they are if one operand is `null`, or
both not. Each binds the values of its operands, but where the left one is a distance with a unit:
then the unit is dropped, and a literal on the right is converted if the unit is metres. A distance on
the right keeps its unit, and nothing is converted. So the values are the same up to order exactly if
both operands have the same unit or none. -/
theorem compile_mirrored {op op' : String} {o : ComparisonOperator} {l r : Expr} {p q : Predicate}
    (isOp : ComparisonOperator.ofToken? op = some o)
    (isMirror : ComparisonOperator.ofToken? op' = some o.mirror)
    (hp : c.compile (.comparison op l r) = .ok p)
    (hq : c.compile (.comparison op' r l) = .ok q) :
    (if l.isNullLiteral || r.isNullLiteral then
      ∃ suffix x y, o.nullSuffix? = some suffix ∧ p.sql = some (x ++ suffix) ∧
        q.sql = some (y ++ suffix)
    else (∃ x y, p.sql = some (x ++ " " ++ o.sql ++ " " ++ y)) ∧
      ∃ x y, q.sql = some (x ++ " " ++ o.mirror.sql ++ " " ++ y)) ∧
    (∃ pl pr keptₗ keptᵣ, c.compile l = .ok pl ∧ c.compile r = .ok pr ∧
      pl.values.Perm ((c.unitValue l).toList ++ keptₗ) ∧
      pr.values.Perm ((c.unitValue r).toList ++ keptᵣ) ∧
      p.values = keptₗ ++ thresholdValues (c.unitValue l) r pr.values ∧
      q.values = keptᵣ ++ thresholdValues (c.unitValue r) l pl.values) ∧
    (c.unitValue l).isSome = c.hasUnit l ∧ (c.unitValue r).isSome = c.hasUnit r ∧
    (p.values.Perm q.values ↔ c.unitValue l = c.unitValue r) := by
  obtain ⟨pl, pr, keptₗ, compiledₗ, compiledᵣ, dropₗ, valuesₗ⟩ := compile_comparison_values hp
  obtain ⟨pr', pl', keptᵣ, compiledᵣ', compiledₗ', dropᵣ, valuesᵣ⟩ := compile_comparison_values hq
  obtain rfl : pl' = pl := by simpa [compiledₗ] using compiledₗ'.symm
  obtain rfl : pr' = pr := by simpa [compiledᵣ] using compiledᵣ'.symm
  obtain ⟨left, bl, right, br, -, -, -, ranₗ, -⟩ := compile_comparison_eq_ok hp
  obtain ⟨left', bl', right', br', -, -, -, ranᵣ, -⟩ := compile_comparison_eq_ok hq
  have isSomeₗ := unitValue_isSome ranₗ
  have isSomeᵣ := unitValue_isSome ranᵣ
  refine ⟨?_, ⟨pl', pr', keptₗ, keptᵣ, compiledₗ, compiledᵣ, dropₗ, dropᵣ, valuesₗ, valuesᵣ⟩,
    isSomeₗ, isSomeᵣ, ?_⟩
  · have sqlₗ := compile_comparison_sql isOp hp
    have sqlᵣ := compile_comparison_sql isMirror hq
    rw [Bool.or_comm, ComparisonOperator.nullSuffix?_mirror] at sqlᵣ
    split at sqlₗ
    · next null =>
      rw [if_pos null] at sqlᵣ ⊢
      obtain ⟨suffix, x, isSuffix, eq⟩ := sqlₗ
      obtain ⟨suffix', y, isSuffix', eq'⟩ := sqlᵣ
      cases isSuffix.symm.trans isSuffix'
      exact ⟨suffix, x, y, isSuffix, eq, eq'⟩
    · next notNull =>
      rw [if_neg notNull] at sqlᵣ ⊢
      exact ⟨sqlₗ, sqlᵣ⟩
  · rw [valuesₗ, valuesᵣ]
    refine thresholdValues_perm_iff dropₗ dropᵣ (fun isSome => ?_) fun isSome => ?_
    · exact isBoundLiteral_of_hasUnit (isSomeₗ.symm.trans isSome)
    · exact isBoundLiteral_of_hasUnit (isSomeᵣ.symm.trans isSome)

theorem compile_mirrored_pattern :
    let e : Expr := .callOf "startswith" [.primary "Name", .primary "'a'"]
    ∃ p q, shop.compile (.comparison "eq" e (.primary "true")) = .ok p ∧
      shop.compile (.comparison "EQ" (.primary "true") e) = .ok q ∧ p.values.Perm q.values := by
  intro e
  obtain ⟨p, hp⟩ : ∃ p, shop.compile (.comparison "eq" e (.primary "true")) = .ok p := ⟨_, rfl⟩
  obtain ⟨q, hq⟩ : ∃ q, shop.compile (.comparison "EQ" (.primary "true") e) = .ok q := ⟨_, rfl⟩
  have isOp : ComparisonOperator.ofToken? "eq" = some .eq := by decide
  have isMirror : ComparisonOperator.ofToken? "EQ" = some (ComparisonOperator.mirror .eq) := by
    decide
  obtain ⟨-, -, -, -, perm⟩ := compile_mirrored isOp isMirror hp hq
  exact ⟨p, q, hp, hq, perm.2 rfl⟩

/-- A distance below a thousand metres, from both sides. On the left the thousand is converted and the
unit dropped; on the right the number of metres is compared with degrees, and the unit is left. -/
theorem distance_unconverted_on_right :
    let e : Expr := .callOf "distance" [.primary "Place", .primary "'m'"]
    (∃ p, shop.compile (.comparison "le" e (.primary "1000")) = .ok p ∧
      p.parameters = ⟨[("@p2", .double (Binary64.ofInt 1000 / Float.ofNat metersPerDegree))]⟩) ∧
    ∃ q, shop.compile (.comparison "ge" (.primary "1000") e) = .ok q ∧
      q.parameters = ⟨[("@p1", .int 1000), ("@p2", .string "m")]⟩ :=
  ⟨⟨_, rfl, rfl⟩, ⟨_, rfl, rfl⟩⟩

end Compiler

end Sql

end FilterSql
