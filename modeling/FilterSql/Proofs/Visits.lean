import FilterSql.Proofs.LiteralParameters
import FilterSql.Proofs.WrittenParameters
import Mathlib.Logic.Relation

/-!
# The course of a compilation

A compilation comes to every part of an expression, with the bindings that are made up to there. What
it binds at a part other than a literal stays as it is until the end. Only the unit of a distance is
dropped, by the comparison that the distance is the left side of.

## Main definitions

* `Compiler.Enters`: how the compilation of an expression comes to its parts.
* `Compiler.Reaches`: the parts that a compilation comes to, at any depth.

## Main statements

* `Compiler.exists_reaches`: a compilation comes to every part.
* `Compiler.Reaches.ran`: the parts that a compilation comes to compile there.
* `Compiler.Reaches.get?`: what is bound at a part is in the result.
-/

namespace FilterSql.Sql

open FilterSql.Filter Catalog

/-! ## Visits -/

/-- The compilation of an expression that starts with the given bindings. -/
structure Visit where
  leading : Bool
  expr : Expr
  bindings : Bindings

namespace Compiler

def visit (c : Compiler) (v : Visit) : Except CompileError (Operand × Bindings) :=
  c.operand v.leading v.expr v.bindings

/-- A visit comes to a part of its expression, after the parts in front are compiled. -/
inductive Enters (c : Compiler) : Visit → Visit → Prop
  | negated {leading : Bool} {e : Expr} {b : Bindings} :
    Enters c ⟨leading, .not e, b⟩ ⟨false, e, b⟩
  | grouped {leading : Bool} {e : Expr} {b : Bindings} :
    Enters c ⟨leading, .group e, b⟩ ⟨leading && e.ungrouped.isCall, e, b⟩
  | compareLeft {leading : Bool} {op : String} {l r : Expr} {b : Bindings} :
    Enters c ⟨leading, .comparison op l r, b⟩ ⟨true, l, b⟩
  | compareRight {leading : Bool} {op : String} {l r : Expr} {b b' : Bindings} {left : Operand} :
    c.operand true l b = .ok (left, b') → Enters c ⟨leading, .comparison op l r, b⟩ ⟨false, r, b'⟩
  | connectLeft {leading : Bool} {op : Connective} {l r : Expr} {b : Bindings} :
    Enters c ⟨leading, .logical op l r, b⟩ ⟨false, l, b⟩
  | connectRight {leading : Bool} {op : Connective} {l r : Expr} {b b' : Bindings} {left : Operand} :
    c.operand false l b = .ok (left, b') → Enters c ⟨leading, .logical op l r, b⟩ ⟨false, r, b'⟩
  | listed {leading : Bool} {l : Expr} {values : List String} {b : Bindings} :
    Enters c ⟨leading, .inList l values, b⟩ ⟨false, l, b⟩
  | argument {leading : Bool} {name raw : String} {f : SqlFunction} {before after : List Expr}
    {e : Expr} {b b' : Bindings} {qs : List Fragment} : c.catalog.get? name = some f →
    c.arguments f 0 before b = .ok (qs, b') →
    Enters c ⟨leading, .call name (before ++ e :: after) raw, b⟩ ⟨false, e, b'⟩

/-- A visit comes to a part of its expression at any depth. -/
abbrev Reaches (c : Compiler) : Visit → Visit → Prop := Relation.ReflTransGen c.Enters

variable {c : Compiler}

theorem Enters.isBoundLiteral_eq {v v' : Visit} (h : c.Enters v v') :
    isBoundLiteral v.expr = false := by
  cases h <;> rfl

theorem Reaches.subterm {v v' : Visit} (h : c.Reaches v v') : Expr.Subterm v'.expr v.expr := by
  induction h with
  | refl => exact .self
  | tail _ enters ih =>
    refine Expr.Subterm.trans ?_ ih
    cases enters with
    | negated => exact .negated .self
    | grouped => exact .grouped .self
    | compareLeft => exact .compareLeft .self
    | compareRight => exact .compareRight .self
    | connectLeft => exact .connectLeft .self
    | connectRight => exact .connectRight .self
    | listed => exact .listed .self
    | argument => exact .argument (List.mem_append_right _ (List.mem_cons_self ..)) .self

/-! ## Arguments in turn -/

section Arguments

variable {f : SqlFunction} {index : Nat} {es : List Expr} {qs : List Fragment} {b b' : Bindings}

theorem arguments_append_eq_ok {before : List Expr}
    (h : c.arguments f index (before ++ es) b = .ok (qs, b')) :
    ∃ qs₁ b₁ qs₂, c.arguments f index before b = .ok (qs₁, b₁) ∧
      c.arguments f (index + before.length) es b₁ = .ok (qs₂, b') ∧ qs = qs₁ ++ qs₂ := by
  induction before generalizing index b qs with
  | nil => exact ⟨[], b, qs, rfl, h, rfl⟩
  | cons e before ih =>
    simp only [List.cons_append, arguments_cons, Compile.bind_eq_ok] at h
    obtain ⟨q, b₁, ran, others, b₂, more, h⟩ := h
    cases h
    obtain ⟨qs₁, b₃, qs₂, ahead, behind, rfl⟩ := ih more
    refine ⟨q :: qs₁, b₃, qs₂, ?_, ?_, rfl⟩
    · simp only [arguments_cons, Compile.bind_eq_ok]
      exact ⟨q, b₁, ran, qs₁, b₃, ahead, rfl⟩
    · rwa [List.length_cons, Nat.add_comm before.length, ← Nat.add_assoc]

theorem arguments_inRange (h : c.arguments f index es b = .ok (qs, b')) (inRange : b.InRange) :
    b'.InRange :=
  (arguments_grows (fun _ _ _ _ _ => operand_grows) h).1.inRange inRange

/-- The parameters of arguments are new. -/
theorem lt_of_param_mem_arguments (h : c.arguments f index es b = .ok (qs, b')) {n : Nat}
    (member : .param n ∈ qs) : b.count < n := by
  induction es generalizing index b qs with
  | nil =>
    cases h
    cases member
  | cons e es ih =>
    simp only [arguments_cons, Compile.bind_eq_ok] at h
    obtain ⟨q, b₁, ran, others, b₂, more, h⟩ := h
    cases h
    rcases List.mem_cons.1 member with rfl | member
    · obtain ⟨value, bound⟩ := argument_eq_param ran
      rw [bound, bindValue_apply] at ran
      cases ran
      exact Nat.lt_succ_self _
    · have grows := (argument_grows (fun _ => operand_grows) ran).1
      exact Nat.lt_of_le_of_lt grows.count_le (ih more member)

/-- Each argument has a parameter of its own. -/
theorem arguments_param_inj (h : c.arguments f index es b = .ok (qs, b')) {i j n : Nat}
    (at_i : qs[i]? = some (.param n)) (at_j : qs[j]? = some (.param n)) : i = j := by
  induction es generalizing index b qs i j with
  | nil =>
    cases h
    cases at_i
  | cons e es ih =>
    simp only [arguments_cons, Compile.bind_eq_ok] at h
    obtain ⟨q, b₁, ran, others, b₂, more, h⟩ := h
    cases h
    -- a later parameter has a greater number than the first one
    have later {k : Nat} (first : q = .param n) (at_k : others[k]? = some (.param n)) : False := by
      have fresh := lt_of_param_mem_arguments more (List.mem_of_getElem? at_k)
      have old := (argument_grows (fun _ => operand_grows) ran).2
      rw [first] at old
      exact absurd old.2 (Nat.not_le.2 fresh)
    cases i with
    | zero =>
      cases j with
      | zero => rfl
      | succ j => exact (later (Option.some.inj at_i) at_j).elim
    | succ i =>
      cases j with
      | zero => exact (later (Option.some.inj at_j) at_i).elim
      | succ j => rw [ih more at_i at_j]

/-- An argument other than a literal has parameters of its own, and none of them stands for it. -/
theorem param_notMem_arguments {before : List Expr} {e : Expr} {qs₁ qs₂ : List Fragment}
    {q : Fragment} {b₁ b₂ : Bindings} {n : Nat}
    (ahead : c.arguments f 0 before b = .ok (qs₁, b₁))
    (ran : c.argument f before.length e b₁ = .ok (q, b₂))
    (behind : c.arguments f index es b₂ = .ok (qs₂, b')) (notLiteral : isBoundLiteral e = false)
    (lt : b₁.count < n) (le : n ≤ b₂.count) : .param n ∉ qs₁ ++ q :: qs₂ := by
  rw [List.mem_append, List.mem_cons]
  rintro (member | isParam | member)
  · have old := (arguments_grows (fun _ _ _ _ _ => operand_grows) ahead).2 _ member
    exact absurd old.2 (Nat.not_le.2 lt)
  · rw [(argument_isParam_iff ran).1 ⟨n, isParam.symm⟩] at notLiteral
    cases notLiteral
  · exact absurd le (Nat.not_le.2 (lt_of_param_mem_arguments behind member))

end Arguments

/-! ## Steps that change single parameters -/

theorem listValues_keeps {declared : Option Edm.Kind} {path : String} {values : List String}
    {b b' : Bindings} {cs : List Clause} (h : listValues declared path values b = .ok (cs, b'))
    {n : Nat} (le : n ≤ b.count) : b'.table.get? n = b.table.get? n := by
  induction values generalizing b cs with
  | nil =>
    cases h
    rfl
  | cons value rest ih =>
    obtain ⟨-, -, ds, more, rfl⟩ := listValues_cons_eq_ok.1 h
    rw [ih more (Nat.le_succ_of_le le), Table.get?_insert_of_ne (by omega)]

/-- A wildcard changes the parameter of the second argument. -/
theorem wildcardArguments_keeps {f : SqlFunction} {qs qs' : List Fragment} {b b' : Bindings}
    (h : wildcardArguments f qs b = .ok (qs', b')) {n : Nat} (other : qs[1]? ≠ some (.param n)) :
    b'.table.get? n = b.table.get? n := by
  unfold wildcardArguments at h
  split at h
  · next first second others =>
    split at h
    · obtain ⟨q, b₁, ran, h⟩ := Compile.bind_eq_ok.1 h
      cases h
      by_cases bound : ∃ m value, second = .param m ∧ b.table.get? m = some value
      · obtain ⟨m, value, rfl, found⟩ := bound
        rw [wildcard_param found] at ran
        cases ran
        exact Table.get?_insert_of_ne (by rintro rfl; exact other rfl) _ _
      · rw [wildcard_unbound (fun m isParam => ?_)] at ran
        · cases ran
          rfl
        · exact Option.eq_none_iff_forall_ne_some.2 fun value found =>
            bound ⟨m, value, isParam, found⟩
    · cases h
      rfl
  · cases h
    rfl

/-- The wildcard of a function is added to its second argument. -/
theorem wildcardArguments_adorns {f : SqlFunction} {qs qs' : List Fragment} {b b' : Bindings}
    (h : wildcardArguments f qs b = .ok (qs', b')) {i n : Nat} {value : Value}
    (at_i : qs[i]? = some (.param n)) (only : ∀ j, qs[j]? = some (.param n) → j = i)
    (held : b.table.get? n = some value) : b'.table.get? n = some (adornedValue f i value) := by
  by_cases second : i = 1
  · subst second
    match qs with
    | [] | [_] => simp at at_i
    | q₀ :: q₁ :: others =>
      obtain rfl : q₁ = .param n := by simpa using at_i
      simp only [wildcardArguments] at h
      split at h
      · next side =>
        obtain ⟨q, b₁, ran, h⟩ := Compile.bind_eq_ok.1 h
        cases h
        rw [wildcard_param held] at ran
        cases ran
        rw [Table.get?_insert_self, adornedValue, if_pos ⟨rfl, side⟩]
      · next noSide =>
        cases h
        rw [held, adornedValue, if_neg fun both => noSide both.2]
  · have other : qs[1]? ≠ some (.param n) := fun at_one => second (only 1 at_one).symm
    rw [wildcardArguments_keeps h other, held, adornedValue, if_neg fun both => second both.1]

theorem unitOf_wildcardArguments {f : SqlFunction} {qs qs' : List Fragment} {b b' : Bindings}
    (h : wildcardArguments f qs b = .ok (qs', b')) {n : Nat} (unit : unitOf f qs' = some n) :
    f.isDistance = true ∧ qs[1]? = some (.param n) := by
  obtain ⟨isDistance, q₀, others, rfl⟩ := unitOf_eq_some.1 unit
  refine ⟨isDistance, ?_⟩
  unfold wildcardArguments at h
  split at h
  · split at h
    · obtain ⟨q, b₁, ran, h⟩ := Compile.bind_eq_ok.1 h
      cases h
      rcases (wildcard_eq_ok ran).2.2 with same | ⟨clause, isClause⟩
      · rw [same]
        rfl
      · cases isClause
    · cases h
      rfl
  · cases h
    rfl

/-- A comparison drops the unit, and converts the parameter of the right side. -/
theorem threshold_keeps {unit : Option Nat} {right q : Fragment} {b b' : Bindings}
    (h : threshold unit right b = .ok (q, b')) {n : Nat} (notUnit : unit ≠ some n)
    (notRight : right ≠ .param n) : b'.table.get? n = b.table.get? n := by
  cases unit with
  | none =>
    cases h
    rfl
  | some m =>
    have erased : (b.table.erase m).get? n = b.table.get? n :=
      Table.get?_erase_of_ne (by rintro rfl; exact notUnit rfl) _
    simp only [threshold, convertThreshold] at h
    split at h
    · cases h
      exact erased
    · split at h
      · cases h
        exact erased
      · split at h
        · cases h
          rw [Table.get?_insert_of_ne (by rintro rfl; exact notRight rfl), erased]
        · cases h
          exact erased
      · cases h
        exact erased

/-! ## The parts that a compilation comes to -/

section Parts

variable {leading : Bool} {e l r : Expr} {op : String} {b b' : Bindings} {o : Operand}

theorem operand_not_eq_ok (h : c.operand leading (.not e) b = .ok (o, b')) :
    ∃ inner, c.operand false e b = .ok (inner, b') ∧ o.unit = none := by
  simp only [operand, Compile.bind_eq_ok] at h
  obtain ⟨inner, b₁, ran, h⟩ := h
  cases h
  exact ⟨inner, ran, rfl⟩

/-- A group around a call is the call itself, for the left side of a comparison. -/
theorem operand_group_eq_ok (h : c.operand leading (.group e) b = .ok (o, b')) :
    ∃ inner, c.operand (leading && e.ungrouped.isCall) e b = .ok (inner, b') ∧
      ((leading && e.ungrouped.isCall) = true ∧ o = inner ∨ o.unit = none) := by
  simp only [operand] at h
  split at h
  · next isCall => exact ⟨o, isCall ▸ h, .inl ⟨isCall, rfl⟩⟩
  · next notCall =>
    obtain ⟨inner, b₁, ran, h⟩ := Compile.bind_eq_ok.1 h
    cases h
    exact ⟨inner, Bool.eq_false_iff.2 notCall ▸ ran, .inr rfl⟩

theorem operand_comparison_eq_ok (h : c.operand leading (.comparison op l r) b = .ok (o, b')) :
    ∃ left b₁ right b₂ q, c.operand true l b = .ok (left, b₁) ∧
      c.operand false r b₁ = .ok (right, b₂) ∧
      threshold left.unit right.fragment b₂ = .ok (q, b') ∧ o.unit = none := by
  simp only [operand_comparison, compareOperands, Compile.bind_eq_ok, Compile.liftM_eq_ok] at h
  obtain ⟨left, b₁, ranₗ, right, b₂, ranᵣ, q, b₃, converted, clause, b₄, ⟨-, rfl⟩, h⟩ := h
  cases h
  exact ⟨left, b₁, right, b₂, q, ranₗ, ranᵣ, converted, rfl⟩

theorem operand_logical_eq_ok {op : Connective}
    (h : c.operand leading (.logical op l r) b = .ok (o, b')) :
    ∃ left b₁ right, c.operand false l b = .ok (left, b₁) ∧
      c.operand false r b₁ = .ok (right, b') ∧ o.unit = none := by
  simp only [operand, Compile.bind_eq_ok] at h
  obtain ⟨left, b₁, ranₗ, right, b₂, ranᵣ, h⟩ := h
  cases h
  exact ⟨left, b₁, right, ranₗ, ranᵣ, rfl⟩

theorem operand_inList_eq_ok {values : List String}
    (h : c.operand leading (.inList l values) b = .ok (o, b')) :
    ∃ left b₁ cs, c.operand false l b = .ok (left, b₁) ∧
      listValues (c.declaredKind l) l.text values b₁ = .ok (cs, b') ∧ o.unit = none := by
  simp only [operand, Compile.bind_eq_ok] at h
  obtain ⟨left, b₁, ran, cs, b₂, listed, h⟩ := h
  cases h
  exact ⟨left, b₁, cs, ran, listed, rfl⟩

theorem exists_operand_of_argument {f : SqlFunction} {index : Nat} {q : Fragment}
    (h : c.argument f index e b = .ok (q, b')) :
    ∃ o b'', c.operand false e b = .ok (o, b'') ∧ (isBoundLiteral e = false → b'' = b') := by
  cases quoted : quoted? e with
  | some text =>
    obtain ⟨rfl, isQuoted⟩ := quoted?_eq_some quoted
    have bound := Literal.isBound_of_isQuoted isQuoted
    refine ⟨_, _, by simp only [operand, primary_literal bound]; rfl, fun notLiteral => ?_⟩
    rw [isBoundLiteral_primary_iff.2 bound] at notLiteral
    cases notLiteral
  | none =>
    simp only [argument, quoted, Compile.map_eq_ok] at h
    obtain ⟨o, ran, -⟩ := h
    exact ⟨o, b', ran, fun _ => rfl⟩

/-- A call compiles the arguments before one of them, that argument, and then the others. -/
theorem operand_call_append_eq_ok {name raw : String} {before after : List Expr}
    (h : c.operand leading (.call name (before ++ e :: after) raw) b = .ok (o, b')) :
    ∃ f qs b₁ q b₂ qs' b₃, c.catalog.get? name = some f ∧
      c.arguments f 0 before b = .ok (qs, b₁) ∧ c.argument f before.length e b₁ = .ok (q, b₂) ∧
      c.arguments f (before.length + 1) after b₂ = .ok (qs', b₃) ∧
      c.finishCall f name raw (qs ++ q :: qs') b₃ = .ok (o, b') := by
  obtain ⟨f, qs, b₁, found, ran, finished⟩ := operand_call_eq_ok h
  obtain ⟨qs₁, b₂, qs₂, ahead, behind, rfl⟩ := arguments_append_eq_ok ran
  simp only [arguments_cons, Compile.bind_eq_ok, Nat.zero_add] at behind
  obtain ⟨q, b₃, ranₑ, others, b₄, more, eq⟩ := behind
  cases eq
  exact ⟨f, qs₁, b₂, q, b₃, others, _, found, ahead, ranₑ, more, finished⟩

end Parts

/-- The part that a visit comes to compiles there. -/
theorem Enters.ran {v v' : Visit} (h : c.Enters v v') (inRange : v.bindings.InRange)
    (ran : ∃ r, c.visit v = .ok r) : v'.bindings.InRange ∧ ∃ r, c.visit v' = .ok r := by
  obtain ⟨⟨o, b⟩, ran⟩ := ran
  simp only [visit] at ran ⊢
  cases h with
  | negated =>
    obtain ⟨inner, ran, -⟩ := operand_not_eq_ok ran
    exact ⟨inRange, _, ran⟩
  | grouped =>
    obtain ⟨inner, ran, -⟩ := operand_group_eq_ok ran
    exact ⟨inRange, _, ran⟩
  | compareLeft =>
    obtain ⟨left, b₁, right, b₂, q, ran, -⟩ := operand_comparison_eq_ok ran
    exact ⟨inRange, _, ran⟩
  | compareRight ran₁ =>
    obtain ⟨left, b₁, right, b₂, q, ran₁', ran₂, -⟩ := operand_comparison_eq_ok ran
    cases ran₁.symm.trans ran₁'
    exact ⟨(operand_grows ran₁).1.inRange inRange, _, ran₂⟩
  | connectLeft =>
    obtain ⟨left, b₁, right, ran, -⟩ := operand_logical_eq_ok ran
    exact ⟨inRange, _, ran⟩
  | connectRight ran₁ =>
    obtain ⟨left, b₁, right, ran₁', ran₂, -⟩ := operand_logical_eq_ok ran
    cases ran₁.symm.trans ran₁'
    exact ⟨(operand_grows ran₁).1.inRange inRange, _, ran₂⟩
  | listed =>
    obtain ⟨left, b₁, cs, ran, -⟩ := operand_inList_eq_ok ran
    exact ⟨inRange, _, ran⟩
  | argument found ahead =>
    obtain ⟨f, qs, b₁, q, b₂, qs', b₃, found', ahead', ran, -⟩ := operand_call_append_eq_ok ran
    cases found.symm.trans found'
    cases ahead.symm.trans ahead'
    obtain ⟨o', b', ran', -⟩ := exists_operand_of_argument ran
    exact ⟨arguments_inRange ahead inRange, _, ran'⟩

theorem Reaches.ran {v v' : Visit} (h : c.Reaches v v') (inRange : v.bindings.InRange)
    (ran : ∃ r, c.visit v = .ok r) : v'.bindings.InRange ∧ ∃ r, c.visit v' = .ok r := by
  induction h with
  | refl => exact ⟨inRange, ran⟩
  | tail _ step ih => exact step.ran ih.1 ih.2

theorem Enters.exists_reaches {u : Expr} {v v' : Visit} (step : c.Enters v v')
    (inRange : v.bindings.InRange) (ran : ∃ r, c.visit v = .ok r)
    (others : v'.bindings.InRange → (∃ r, c.visit v' = .ok r) →
      ∃ leading b, c.Reaches v' ⟨leading, u, b⟩) : ∃ leading b, c.Reaches v ⟨leading, u, b⟩ := by
  obtain ⟨inRange', ran'⟩ := step.ran inRange ran
  obtain ⟨leading, b, reaches⟩ := others inRange' ran'
  exact ⟨leading, b, .head step reaches⟩

/-- A compilation comes to every part. -/
theorem exists_reaches {u e : Expr} (sub : Expr.Subterm u e) {leading : Bool} {b : Bindings}
    (inRange : b.InRange) (ran : ∃ r, c.visit ⟨leading, e, b⟩ = .ok r) :
    ∃ leading' b', c.Reaches ⟨leading, e, b⟩ ⟨leading', u, b'⟩ := by
  induction sub generalizing leading b with
  | self => exact ⟨leading, b, .refl⟩
  | negated _ ih => exact Enters.negated.exists_reaches inRange ran ih
  | grouped _ ih => exact Enters.grouped.exists_reaches inRange ran ih
  | compareLeft _ ih => exact Enters.compareLeft.exists_reaches inRange ran ih
  | connectLeft _ ih => exact Enters.connectLeft.exists_reaches inRange ran ih
  | listed _ ih => exact Enters.listed.exists_reaches inRange ran ih
  | compareRight _ ih =>
    obtain ⟨r, ran₁⟩ := (Enters.compareLeft.ran inRange ran).2
    exact (Enters.compareRight ran₁).exists_reaches inRange ran ih
  | connectRight _ ih =>
    obtain ⟨r, ran₁⟩ := (Enters.connectLeft.ran inRange ran).2
    exact (Enters.connectRight ran₁).exists_reaches inRange ran ih
  | argument member _ ih =>
    obtain ⟨before, after, rfl⟩ := List.append_of_mem member
    obtain ⟨⟨o, b₁⟩, ran₁⟩ := id ran
    obtain ⟨f, qs, b₂, found, ran₁, -⟩ := operand_call_eq_ok ran₁
    obtain ⟨_, _, _, ahead, -⟩ := arguments_append_eq_ok ran₁
    exact (Enters.argument found ahead).exists_reaches inRange ran ih

/-! ## What stays bound -/

/-- The visit ends with a value bound to one of its own parameters, which is no unit that is still to
be dropped. -/
def HoldsAt (c : Compiler) (v : Visit) (n : Nat) (value : Value) : Prop :=
  ∃ o b, c.visit v = .ok (o, b) ∧ v.bindings.count < n ∧ b.table.get? n = some value ∧
    (v.leading = true → o.unit ≠ some n)

theorem operand_le_count {leading : Bool} {e : Expr} {b b' : Bindings} {o : Operand} {n : Nat}
    {value : Value} (h : c.operand leading e b = .ok (o, b')) (inRange : b.InRange)
    (held : b'.table.get? n = some value) : n ≤ b'.count :=
  ((operand_grows h).1.inRange inRange n (Table.mem_keys_of_get? held)).2

/-- What the left side of a comparison has bound is not converted with the right side. -/
theorem comparison_keeps_left {op : String} {l r : Expr} {leading : Bool} {b b₁ b' : Bindings}
    {left o : Operand} (inRange : b.InRange) (ranₗ : c.operand true l b = .ok (left, b₁))
    (ran : c.operand leading (.comparison op l r) b = .ok (o, b')) {n : Nat} (le : n ≤ b₁.count)
    (notUnit : left.unit ≠ some n) : b'.table.get? n = b₁.table.get? n := by
  obtain ⟨_, _, right, b₂, q, ranₗ', ranᵣ, converted, -⟩ := operand_comparison_eq_ok ran
  cases ranₗ.symm.trans ranₗ'
  -- a literal on the right side has a parameter of its own, which comes after those of the left side
  have notRight : right.fragment ≠ .param n := by
    intro isParam
    obtain ⟨text, value, rfl, eq⟩ := operand_eq_param ranᵣ isParam
    simp only [operand, eq] at ranᵣ
    cases ranᵣ
    cases isParam
    exact absurd le (Nat.not_le.2 (Nat.lt_succ_self _))
  rw [threshold_keeps converted notUnit notRight,
    operand_keeps ((operand_grows ranₗ).1.inRange inRange).bounded ranᵣ le]

/-- What the right side of a comparison has bound, other than itself, is not converted. -/
theorem comparison_keeps_right {op : String} {l r : Expr} {leading : Bool} {b b₁ b₂ b' : Bindings}
    {left right o : Operand} (ranₗ : c.operand true l b = .ok (left, b₁))
    (ranᵣ : c.operand false r b₁ = .ok (right, b₂))
    (ran : c.operand leading (.comparison op l r) b = .ok (o, b'))
    (notLiteral : isBoundLiteral r = false) {n : Nat} (lt : b₁.count < n) :
    b'.table.get? n = b₂.table.get? n := by
  obtain ⟨_, _, _, _, q, ranₗ', ranᵣ', converted, -⟩ := operand_comparison_eq_ok ran
  cases ranₗ.symm.trans ranₗ'
  cases ranᵣ.symm.trans ranᵣ'
  have notUnit : left.unit ≠ some n :=
    fun unit => absurd ((operand_grows ranₗ).2.2 n unit).2 (Nat.not_le.2 lt)
  have notRight : right.fragment ≠ .param n := by
    intro isParam
    obtain ⟨text, value, rfl, eq⟩ := operand_eq_param ranᵣ isParam
    rw [isBoundLiteral_primary_iff.2 (isBound_of_primary eq)] at notLiteral
    cases notLiteral
  exact threshold_keeps converted notUnit notRight

/-- What an argument has bound, other than itself, is changed by no other argument, and it gets no
wildcard. -/
theorem call_keeps_argument {name raw : String} {before after : List Expr} {e : Expr}
    {leading : Bool} {f : SqlFunction} {qs : List Fragment} {b b₁ b₂ b' : Bindings} {inner o : Operand}
    (found : c.catalog.get? name = some f) (ahead : c.arguments f 0 before b = .ok (qs, b₁))
    (inRange : b₁.InRange) (ranₑ : c.operand false e b₁ = .ok (inner, b₂))
    (notLiteral : isBoundLiteral e = false)
    (ran : c.operand leading (.call name (before ++ e :: after) raw) b = .ok (o, b')) {n : Nat}
    (lt : b₁.count < n) (le : n ≤ b₂.count) :
    b'.table.get? n = b₂.table.get? n ∧ o.unit ≠ some n := by
  obtain ⟨_, _, _, q, _, qs', b₃, found', ahead', ran₂, more, finished⟩ :=
    operand_call_append_eq_ok ran
  cases found.symm.trans found'
  cases ahead.symm.trans ahead'
  obtain ⟨_, _, ranₑ', same⟩ := exists_operand_of_argument ran₂
  cases ranₑ.symm.trans ranₑ'
  cases same notLiteral
  obtain ⟨_, _, qs₂, recovered, -, wild, rfl⟩ := finishCall_eq_ok.1 finished
  rw [recoverArguments_of_ne_nil c _ _ (by simp)] at recovered
  cases recovered
  -- no argument stands for the parameter: this one is no literal, and the others have new ones
  have fresh := param_notMem_arguments ahead ran₂ more notLiteral lt le
  have second : (qs ++ q :: qs')[1]? ≠ some (.param n) :=
    fun at_one => fresh (List.mem_of_getElem? at_one)
  constructor
  · rw [wildcardArguments_keeps wild second,
      arguments_keeps ((operand_grows ranₑ).1.inRange inRange).bounded more le]
  · exact fun unit => second (unitOf_wildcardArguments wild unit).2

/-- What a part has bound is not changed by what comes after it. -/
theorem Enters.keeps {v v' : Visit} (h : c.Enters v v') (inRange : v.bindings.InRange)
    (ran : ∃ r, c.visit v = .ok r) (notLiteral : isBoundLiteral v'.expr = false) {n : Nat}
    {value : Value} (held : c.HoldsAt v' n value) : c.HoldsAt v n value := by
  have inRange' := (h.ran inRange ran).1
  obtain ⟨⟨o, b⟩, ran⟩ := ran
  obtain ⟨o', b', ran', lt, get, notUnit⟩ := held
  have le := operand_le_count ran' inRange' get
  have bounded := ((operand_grows ran').1.inRange inRange').bounded
  have unitless : o.unit = none → o.unit ≠ some n := by
    rintro none unit
    rw [none] at unit
    cases unit
  refine ⟨o, b, ran, ?_⟩
  simp only [visit] at ran ran'
  cases h with
  | negated =>
    obtain ⟨inner, ran, none⟩ := operand_not_eq_ok ran
    cases ran'.symm.trans ran
    exact ⟨lt, get, fun _ => unitless none⟩
  | grouped =>
    obtain ⟨inner, ran, unit⟩ := operand_group_eq_ok ran
    cases ran'.symm.trans ran
    rcases unit with ⟨isCall, rfl⟩ | none
    · exact ⟨lt, get, fun _ => notUnit isCall⟩
    · exact ⟨lt, get, fun _ => unitless none⟩
  | compareLeft =>
    obtain ⟨_, _, _, _, _, -, -, -, none⟩ := operand_comparison_eq_ok ran
    have kept := comparison_keeps_left inRange ran' ran le (notUnit rfl)
    exact ⟨lt, kept.trans get, fun _ => unitless none⟩
  | compareRight ran₁ =>
    obtain ⟨_, _, _, _, _, -, -, -, none⟩ := operand_comparison_eq_ok ran
    have kept := comparison_keeps_right ran₁ ran' ran notLiteral lt
    have fresh := Nat.lt_of_le_of_lt (operand_grows ran₁).1.count_le lt
    exact ⟨fresh, kept.trans get, fun _ => unitless none⟩
  | connectLeft =>
    obtain ⟨left, b₁, right, ran₁, ran₂, none⟩ := operand_logical_eq_ok ran
    cases ran'.symm.trans ran₁
    exact ⟨lt, (operand_keeps bounded ran₂ le).trans get, fun _ => unitless none⟩
  | connectRight ran₁ =>
    obtain ⟨left, b₁, right, ran₁', ran₂, none⟩ := operand_logical_eq_ok ran
    cases ran₁.symm.trans ran₁'
    cases ran'.symm.trans ran₂
    have fresh := Nat.lt_of_le_of_lt (operand_grows ran₁).1.count_le lt
    exact ⟨fresh, get, fun _ => unitless none⟩
  | listed =>
    obtain ⟨left, b₁, cs, ran₁, listed, none⟩ := operand_inList_eq_ok ran
    cases ran'.symm.trans ran₁
    exact ⟨lt, (listValues_keeps listed le).trans get, fun _ => unitless none⟩
  | argument found ahead =>
    obtain ⟨kept, notUnit⟩ := call_keeps_argument found ahead inRange' ran' notLiteral ran lt le
    have grows := (arguments_grows (fun _ _ _ _ _ => operand_grows) ahead).1
    exact ⟨Nat.lt_of_le_of_lt grows.count_le lt, kept.trans get, fun _ => notUnit⟩

/-- What a compilation has bound at a part, other than a literal, stays. -/
theorem Reaches.keeps {v v' : Visit} (h : c.Reaches v v') (inRange : v.bindings.InRange)
    (ran : ∃ r, c.visit v = .ok r) (notLiteral : isBoundLiteral v'.expr = false) {n : Nat}
    {value : Value} (held : c.HoldsAt v' n value) : c.HoldsAt v n value := by
  induction h with
  | refl => exact held
  | tail reaches step ih =>
    obtain ⟨inRange', ran'⟩ := Reaches.ran reaches inRange ran
    exact ih step.isBoundLiteral_eq (step.keeps inRange' ran' notLiteral held)

/-! ## What a compilation ends with -/

section Results

variable {e : Expr} {q : Predicate}

theorem visit_of_compile (compiled : c.compile e = .ok q) :
    ∃ r, c.visit ⟨false, e, .empty⟩ = .ok r := by
  obtain ⟨o, b, ran, -⟩ := compile_eq_ok.1 compiled
  exact ⟨_, ran⟩

/-- What a compilation has bound at a part is in its result. -/
theorem Reaches.get? {v : Visit} (reaches : c.Reaches ⟨false, e, .empty⟩ v)
    (compiled : c.compile e = .ok q) (notLiteral : isBoundLiteral v.expr = false) {n : Nat}
    {value : Value} (held : c.HoldsAt v n value) :
    q.parameters.get? (parameterName c.options.sigil n) = some value := by
  obtain ⟨o, b, ran, rfl⟩ := compile_eq_ok.1 compiled
  obtain ⟨_, _, ran', -, get, -⟩ :=
    Reaches.keeps reaches Bindings.inRange_empty (visit_of_compile compiled) notLiteral held
  cases ran.symm.trans ran'
  rwa [Table.get?_mapKeys (parameterName_injective _)]

end Results

end Compiler

end FilterSql.Sql
