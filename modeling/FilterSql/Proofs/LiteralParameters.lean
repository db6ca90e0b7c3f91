import FilterSql.Proofs.AlikeFilters
import FilterSql.Proofs.LiteralOccurrences

/-!
# Parameters of literals

A condition has one parameter for each literal of its filter, numbered in the order of the text, and
the table lists them in that order. Only the unit of a distance that is compared with something has a
number and no entry: it is bound with its call, and dropped where the call is compared.

## Main statements

* `Compiler.call_bindings`: what a call binds, and which of it is a unit.
* `Compiler.threshold_bindings`: what a comparison drops and converts.
* `Compiler.operand_bindings`: a compiled expression binds its literals.
* `Compiler.compile_parameters_literals`: the parameters of a condition are those of its literals.
-/

namespace FilterSql.Sql

open FilterSql.Filter Catalog

namespace Compiler

variable {c : Compiler}

/-! ## Arguments and values -/

theorem argument_literal {text : String} (bound : Literal.IsBound text) (f : SqlFunction)
    (index : Nat) : c.argument f index (.primary text) = bindValue (c.givenValue f index text) := by
  cases quoted : Literal.isQuoted text with
  | true =>
    have asLiteral : c.argument f index (.primary text) = c.argumentLiteral f index text := by
      simp [argument, quoted?, quoted]
    rw [asLiteral, argumentLiteral, givenValue]
    split
    · rfl
    · exact c.literal_eq_bindValue_literalValue text
  | false =>
    have plain : c.literalValue text = Literal.value text := by simp [literalValue, quoted]
    have given : c.givenValue f index text = c.literalValue text := by simp [givenValue, plain]
    simp [argument, quoted?, quoted, operand, primary_literal bound, given]

/-- An argument is a literal, which is bound to the next parameter, or any other operand. -/
theorem argument_cases {f : SqlFunction} {index : Nat} {e : Expr} {q : Fragment} {b : Bindings}
    (h : c.argument f index e .empty = .ok (q, b)) :
    (∃ text, e = .primary text ∧ Literal.IsBound text ∧ q = .param 1 ∧
      b = .single (c.givenValue f index text)) ∨
    isBoundLiteral e = false ∧ (∀ n, q ≠ .param n) ∧ ∃ o, c.operand false e .empty = .ok (o, b) := by
  cases literal : isBoundLiteral e with
  | true =>
    cases e with
    | primary text =>
      have bound := isBoundLiteral_primary_iff.1 literal
      rw [argument_literal bound, bindValue_apply] at h
      cases h
      exact .inl ⟨text, rfl, bound, rfl, rfl⟩
    | _ => cases literal
  | false =>
    have notParam : ∀ n, q ≠ .param n := by
      rintro n rfl
      rw [(argument_isParam_iff h).1 ⟨n, rfl⟩] at literal
      cases literal
    refine .inr ⟨rfl, notParam, ?_⟩
    cases quoted : quoted? e with
    | some text =>
      obtain ⟨rfl, isQuoted⟩ := quoted?_eq_some quoted
      rw [isBoundLiteral_primary_iff.2 (Literal.isBound_of_isQuoted isQuoted)] at literal
      cases literal
    | none =>
      simp only [argument, quoted, Compile.map_eq_ok] at h
      obtain ⟨o, ran, -⟩ := h
      exact ⟨o, ran⟩

theorem arguments_eq_ok_after {f : SqlFunction} {index : Nat} {es : List Expr} {base b : Bindings}
    {qs : List Fragment} (bounded : base.Bounded)
    (h : c.arguments f index es base = .ok (qs, b)) :
    ∃ qs₀ b₀, c.arguments f index es .empty = .ok (qs₀, b₀) ∧
      qs = qs₀.map (Fragment.renumber base.count) ∧ b = base ++ b₀ :=
  (arguments_follows bounded f (fun e _ _ => operand_follows bounded c false e) index).eq_ok h

theorem argument_inRange {f : SqlFunction} {index : Nat} {e : Expr} {b : Bindings} {q : Fragment}
    (h : c.argument f index e .empty = .ok (q, b)) : b.InRange :=
  (argument_grows (fun _ => operand_grows) h).1.inRange Bindings.inRange_empty

/-- Arguments are compiled one after the other. -/
theorem arguments_cons_eq_ok {f : SqlFunction} {index : Nat} {e : Expr} {es : List Expr}
    {b : Bindings} {qs : List Fragment}
    (h : c.arguments f index (e :: es) .empty = .ok (qs, b)) :
    ∃ q b₁ qs' b₂, c.argument f index e .empty = .ok (q, b₁) ∧
      c.arguments f (index + 1) es .empty = .ok (qs', b₂) ∧
      qs = q :: qs'.map (Fragment.renumber b₁.count) ∧ b = b₁ ++ b₂ := by
  simp only [arguments_cons, Compile.bind_eq_ok] at h
  obtain ⟨q, b₁, ran, others, b', more, h⟩ := h
  cases h
  obtain ⟨qs', b₂, alone, rfl, rfl⟩ := arguments_eq_ok_after (argument_inRange ran).bounded more
  exact ⟨q, b₁, qs', b₂, ran, alone, rfl, rfl⟩

/-- The expression binds its literals when it stands alone. -/
def Binds (c : Compiler) (e : Expr) : Prop :=
  ∀ o b, c.operand false e .empty = .ok (o, b) → b = c.bindingsOf (e.occurrences .operand)

section Arguments

variable {f : SqlFunction} {name : String} {b : Bindings}

theorem valueAt_argument (found : c.catalog.get? name = some f) (text : String) (index : Nat) :
    c.valueAt ⟨text, .argument name index⟩ = adornedValue f index (c.givenValue f index text) := by
  simp only [valueAt, argumentValue, found]

/-- An argument other than the second one binds its literals. -/
theorem argument_bindings (found : c.catalog.get? name = some f) {index : Nat} (other : index ≠ 1)
    {e : Expr} {q : Fragment} (binds : c.Binds e) (h : c.argument f index e .empty = .ok (q, b)) :
    b = c.bindingsOf (e.occurrences (.argument name index)) := by
  rcases argument_cases h with ⟨text, rfl, bound, -, rfl⟩ | ⟨literal, -, o, ran⟩
  · have plain : adornedValue f index (c.givenValue f index text) = c.givenValue f index text := by
      simp [adornedValue, other]
    rw [Expr.occurrences, if_pos bound, bindingsOf_singleton rfl, valueAt_argument found, plain]
  · rw [Expr.occurrences_of_not_isBoundLiteral literal (by simp)]
    exact binds o b ran

/-- Arguments behind the second one bind their literals. -/
theorem arguments_bindings (found : c.catalog.get? name = some f) (measures : Bool) {index : Nat}
    (late : 2 ≤ index) {es : List Expr} {qs : List Fragment} (binds : ∀ e ∈ es, c.Binds e)
    (h : c.arguments f index es .empty = .ok (qs, b)) :
    b = c.bindingsOf (Expr.argumentOccurrences measures name index es) := by
  induction es generalizing index qs b with
  | nil =>
    cases h
    rw [Expr.argumentOccurrences, bindingsOf_nil]
  | cons e es ih =>
    obtain ⟨q, b₁, qs', b₂, ran, more, rfl, rfl⟩ := arguments_cons_eq_ok h
    obtain ⟨first, others⟩ := List.forall_mem_cons.1 binds
    have place : (if (measures && index == 1) = true then Site.unit name else .argument name index) =
        .argument name index := if_neg (by simp; omega)
    rw [Expr.argumentOccurrences, place, bindingsOf_append,
      ← argument_bindings found (by omega) first ran, ← ih (by omega) others more]

end Arguments

/-- The values of a list are bound in turn. -/
theorem listValues_bindings {declared : Option Edm.Kind} {path : String} {values : List String}
    {b : Bindings} {cs : List Clause} (h : listValues declared path values .empty = .ok (cs, b)) :
    b = c.bindingsOf (values.map (⟨·, .listed⟩)) := by
  induction values generalizing b cs with
  | nil =>
    cases h
    rfl
  | cons value values ih =>
    obtain ⟨-, -, ds, more, rfl⟩ := listValues_cons_eq_ok.1 h
    have bounded : (Bindings.single (Literal.value value)).Bounded := by
      intro n member
      simpa [Bindings.single, Table.keys] using Nat.le_of_eq (List.mem_singleton.1 member)
    obtain ⟨ds', b', alone, -, rfl⟩ := (listValues_follows bounded declared path values).eq_ok more
    rw [List.map_cons, ← List.singleton_append, bindingsOf_append, ← ih alone]
    rfl

/-! ## Calls -/

/-- A parameter for the second argument gets the wildcard. -/
theorem wildcardArguments_param (f : SqlFunction) {base : Bindings} (bounded : base.Bounded)
    (rest : Bindings) (value : Value) (q : Fragment) (qs : List Fragment) :
    wildcardArguments f (q :: .param (base.count + 1) :: qs) (base ++ (.single value ++ rest)) =
      .ok (q :: .param (base.count + 1) :: qs,
        base ++ (.single (adornedValue f 1 value) ++ rest)) := by
  cases side : f.wildcardSide.isSome with
  | true =>
    have adorned : adornedValue f 1 value = .string (f.applyWildcard value.text) := by
      simp [adornedValue, side]
    have pattern := wildcard_param (Bindings.get?_single bounded value rest) f
    rw [Bindings.insert_single bounded value rest] at pattern
    simp only [wildcardArguments, side, if_true, adorned]
    exact Compile.bind_eq_ok.2 ⟨_, _, pattern, rfl⟩
  | false =>
    have plain : adornedValue f 1 value = value := by simp [adornedValue, side]
    simp [wildcardArguments, side, plain]

/-- Any other second argument leaves the bindings alone, and is no unit. -/
theorem wildcardArguments_of_ne_param {f : SqlFunction} {q q₁ : Fragment} {qs qs' : List Fragment}
    {b b' : Bindings} (notParam : ∀ n, q₁ ≠ .param n)
    (h : wildcardArguments f (q :: q₁ :: qs) b = .ok (qs', b')) :
    b' = b ∧ unitOf f qs' = none := by
  have noUnit {q' : Fragment} (other : ∀ n, q' ≠ .param n) : unitOf f (q :: q' :: qs) = none := by
    cases q' with
    | param n => exact absurd rfl (other n)
    | null | clause => rfl
  simp only [wildcardArguments] at h
  split at h
  · obtain ⟨pattern, b₁, ran, h⟩ := Compile.bind_eq_ok.1 h
    rw [wildcard_unbound fun n eq => absurd eq (notParam n)] at ran
    cases ran
    cases h
    obtain ⟨clause, eq⟩ := concatenated_eq_clause f q₁
    exact ⟨rfl, noUnit (by simp [eq])⟩
  · cases h
    exact ⟨rfl, noUnit notParam⟩

theorem isDistance_eq_sameName {name : String} {f : SqlFunction}
    (found : c.catalog.get? name = some f) : f.isDistance = Text.sameName name "distance" := by
  rw [Bool.eq_iff_iff]
  refine ⟨FunctionCatalog.sameName_of_isDistance found, fun distance => ?_⟩
  rw [FunctionCatalog.get?] at found
  have named := List.find?_some found
  simp only [SqlFunction.isDistance, Text.sameName, beq_iff_eq] at named distance ⊢
  rw [named, distance]

/-- What the left side of a comparison leaves: the bindings of its literals, with the unit of a
distance still among them. -/
def Measured (c : Compiler) (e : Expr) (o : Operand) (b : Bindings) : Prop :=
  (o.unit = none ∧ e.unit? = none ∧ b = c.bindingsOf (e.occurrences .leading)) ∨
  ∃ n name unit, o.unit = some n ∧ e.unit? = some (name, unit) ∧
    b.table.get? n = some (c.argumentValue name 1 unit) ∧
    (⟨b.count, b.table.erase n⟩ : Bindings) = c.bindingsOf (e.occurrences .leading)

/-- The literals of a call that stands at `site`, if its second argument is one of them. -/
theorem occurrences_call_literal {name raw unit : String} {e : Expr} {es : List Expr}
    (bound : Literal.IsBound unit) (site : Site) :
    (Expr.call name (e :: .primary unit :: es) raw).occurrences site =
      e.occurrences (.argument name 0) ++
        ([⟨unit, if site = .leading ∧ Text.sameName name "distance" = true then .unit name
            else .argument name 1⟩] ++
          Expr.argumentOccurrences (decide (site = .leading) && Text.sameName name "distance") name 2
            es) := by
  simp [Expr.occurrences, Expr.argumentOccurrences, bound]

section Calls

variable {f : SqlFunction} {name : String} {qs qs' : List Fragment} {b b' : Bindings}

/-- A call whose second argument is a literal. -/
theorem call_literal_bindings {unit : String} {e : Expr} {es : List Expr}
    (found : c.catalog.get? name = some f) (binds : ∀ e' ∈ e :: es, c.Binds e')
    (bound : Literal.IsBound unit)
    (h : c.arguments f 0 (e :: .primary unit :: es) .empty = .ok (qs, b))
    (wild : wildcardArguments f qs b = .ok (qs', b')) (raw : String) (fragment : Fragment) :
    b' = c.bindingsOf ((Expr.call name (e :: .primary unit :: es) raw).occurrences .operand) ∧
      c.Measured (.call name (e :: .primary unit :: es) raw) ⟨fragment, unitOf f qs'⟩ b' := by
  obtain ⟨first, others⟩ := List.forall_mem_cons.1 binds
  obtain ⟨q, b₀, _, _, ran, more, rfl, rfl⟩ := arguments_cons_eq_ok h
  obtain ⟨q₁, b₁, qs₂, b₂, literal, rest, rfl, rfl⟩ := arguments_cons_eq_ok more
  rw [argument_literal bound, bindValue_apply] at literal
  cases literal
  have bounded := (argument_inRange ran).bounded
  have value : c.valueAt ⟨unit, .argument name 1⟩ = adornedValue f 1 (c.givenValue f 1 unit) :=
    valueAt_argument found unit 1
  have ahead := argument_bindings found Nat.zero_ne_one first ran
  have behind (measures : Bool) :
      b₂ = c.bindingsOf (Expr.argumentOccurrences measures name 2 es) :=
    arguments_bindings found measures (Nat.le_refl 2) others rest
  have adorned := wildcardArguments_param f bounded b₂ (c.givenValue f 1 unit) q
    ((qs₂.map (Fragment.renumber 1)).map (Fragment.renumber b₀.count))
  obtain ⟨rfl, rfl⟩ : qs' = _ ∧ b' = _ := by simpa using wild.symm.trans adorned
  rw [← value]
  -- only the binding of the second argument depends on where the call stands
  have whole (site : Site) :
      c.bindingsOf ((Expr.call name (e :: .primary unit :: es) raw).occurrences site) =
        b₀ ++ (c.bindingsOf [⟨unit, if site = .leading ∧ Text.sameName name "distance" = true then
          .unit name else .argument name 1⟩] ++ b₂) := by
    rw [occurrences_call_literal bound, bindingsOf_append, bindingsOf_append, ← ahead, ← behind]
  constructor
  · rw [whole, if_neg (by simp), bindingsOf_singleton rfl]
  · have isDistance := isDistance_eq_sameName found
    cases distance : Text.sameName name "distance" with
    | true =>
      refine .inr ⟨b₀.count + 1, name, unit, ?_, ?_, ?_, ?_⟩
      · simp [unitOf, isDistance, distance]
      · simp [Expr.unit?, Expr.ungrouped, distance, bound]
      · exact Bindings.get?_single bounded _ b₂
      · rw [Bindings.erase_single bounded _ b₂, whole, if_pos ⟨rfl, distance⟩, bindingsOf_unit]
        rfl
    | false =>
      refine .inl ⟨?_, ?_, ?_⟩
      · simp [unitOf, isDistance, distance]
      · simp [Expr.unit?, Expr.ungrouped, distance]
      · rw [whole, if_neg (by simp [distance]), bindingsOf_singleton rfl]

/-- A call whose second argument is no literal. -/
theorem call_other_bindings {args : List Expr} (found : c.catalog.get? name = some f)
    (binds : ∀ e ∈ args, c.Binds e) (notLiteral : (args[1]?).any isBoundLiteral = false)
    (h : c.arguments f 0 args .empty = .ok (qs, b))
    (wild : wildcardArguments f qs b = .ok (qs', b')) (raw : String) (site : Site) :
    b' = c.bindingsOf ((Expr.call name args raw).occurrences site) ∧ unitOf f qs' = none ∧
      (Expr.call name args raw).unit? = none := by
  rw [Expr.occurrences]
  generalize (decide (site = .leading) && Text.sameName name "distance") = measures
  rcases args with _ | ⟨e, _ | ⟨e₁, es⟩⟩
  · cases h
    cases wild
    exact ⟨by rw [Expr.argumentOccurrences, bindingsOf_nil], rfl, rfl⟩
  · obtain ⟨q, b₀, _, _, ran, more, rfl, rfl⟩ := arguments_cons_eq_ok h
    cases more
    cases wild
    refine ⟨?_, rfl, rfl⟩
    have ahead := argument_bindings found Nat.zero_ne_one (binds e List.mem_cons_self) ran
    simp [Expr.argumentOccurrences, Bindings.append_empty, ahead]
  · have literal : isBoundLiteral e₁ = false := by simpa using notLiteral
    obtain ⟨first, second, others⟩ := (List.forall_mem_cons.1 binds).imp_right List.forall_mem_cons.1
    obtain ⟨q, b₀, _, _, ran, more, rfl, rfl⟩ := arguments_cons_eq_ok h
    obtain ⟨q₁, b₁, qs₂, b₂, ran₁, rest, rfl, rfl⟩ := arguments_cons_eq_ok more
    rcases argument_cases ran₁ with ⟨text, rfl, bound, -⟩ | ⟨-, notParam, o, alone⟩
    · rw [isBoundLiteral_primary_iff.2 bound] at literal
      cases literal
    · obtain ⟨rfl, noUnit⟩ :=
        wildcardArguments_of_ne_param (Fragment.renumber_ne_param notParam b₀.count) wild
      have place : e₁.occurrences (if measures = true then .unit name else .argument name 1) =
          e₁.occurrences .operand :=
        Expr.occurrences_of_not_isBoundLiteral literal (by split <;> simp)
      have ahead := argument_bindings found Nat.zero_ne_one first ran
      have behind := arguments_bindings found measures (Nat.le_refl 2) others rest
      refine ⟨?_, noUnit, ?_⟩
      · simp [Expr.argumentOccurrences, bindingsOf_append, place, ← ahead, ← second o b₁ alone,
          ← behind]
      · cases e₁ with
        | primary text =>
          have unbound : ¬Literal.IsBound text := mt isBoundLiteral_primary_iff.2 (by simp [literal])
          simp [Expr.unit?, Expr.ungrouped, unbound]
        | _ => rfl

end Calls

/-! ## Expressions -/

/-- No argument is found in the text of a call that has none. -/
def Unrecovered (e : Expr) : Prop :=
  ∀ name raw, Expr.Subterm (.call name [] raw) e → Expr.recoveredArgument? raw = none

theorem Unrecovered.part {u e : Expr} (h : Unrecovered e) (sub : Expr.Subterm u e) : Unrecovered u :=
  fun name raw part => h name raw (part.trans sub)

theorem recoverArguments_eq_pure {f : SqlFunction} {raw : String} {qs : List Fragment}
    (h : qs = [] → Expr.recoveredArgument? raw = none) : c.recoverArguments f raw qs = pure qs := by
  cases qs with
  | nil => simp [recoverArguments, h rfl]
  | cons => exact recoverArguments_of_ne_nil c f raw (by simp)

theorem exists_literal_second {args : List Expr} (h : (args[1]?).any isBoundLiteral = true) :
    ∃ e unit es, args = e :: .primary unit :: es ∧ Literal.IsBound unit := by
  rcases args with _ | ⟨e, _ | ⟨e₁, es⟩⟩
  · simp at h
  · simp at h
  · cases e₁ with
    | primary unit => exact ⟨e, unit, es, rfl, isBoundLiteral_primary_iff.1 (by simpa using h)⟩
    | _ => simp [isBoundLiteral] at h

theorem call_bindings {leading : Bool} {name raw : String} {args : List Expr} {o : Operand}
    {b : Bindings} (binds : ∀ e ∈ args, c.Binds e)
    (unrecovered : args = [] → Expr.recoveredArgument? raw = none)
    (h : c.operand leading (.call name args raw) .empty = .ok (o, b)) :
    b = c.bindingsOf ((Expr.call name args raw).occurrences .operand) ∧
      c.Measured (.call name args raw) o b := by
  obtain ⟨f, qs, b₁, found, ran, finished⟩ := operand_call_eq_ok h
  obtain ⟨qs₁, b₂, qs₂, recovered, -, wild, rfl⟩ := finishCall_eq_ok.1 finished
  have length := arguments_length ran
  rw [recoverArguments_eq_pure fun nil => unrecovered (by simpa [nil, eq_comm] using length)]
    at recovered
  cases recovered
  cases literal : (args[1]?).any isBoundLiteral with
  | true =>
    obtain ⟨e, unit, es, rfl, bound⟩ := exists_literal_second literal
    refine call_literal_bindings found (fun e' member => binds e' ?_) bound ran wild raw _
    rw [List.mem_cons] at member ⊢
    exact member.imp_right (List.mem_cons_of_mem _)
  | false =>
    have other (site : Site) := call_other_bindings found binds literal ran wild raw site
    obtain ⟨leads, noUnit, noUnit'⟩ := other .leading
    exact ⟨(other .operand).1, .inl ⟨noUnit, noUnit', leads⟩⟩

/-- On the left side of a comparison anything but a call binds what it binds elsewhere. -/
theorem bindingsOf_leading {e : Expr} (notCall : e.ungrouped.isCall = false) :
    e.unit? = none ∧
      c.bindingsOf (e.occurrences .leading) = c.bindingsOf (e.occurrences .operand) := by
  induction e with
  | primary text =>
    refine ⟨rfl, ?_⟩
    rw [Expr.occurrences, Expr.occurrences]
    split <;> rfl
  | call => cases notCall
  | group e ih =>
    obtain ⟨noUnit, same⟩ := ih notCall
    refine ⟨noUnit, ?_⟩
    simpa [Expr.occurrences] using same
  | not | comparison | logical | inList => exact ⟨rfl, by simp only [Expr.occurrences]⟩

theorem measured_of_not_isCall {e : Expr} (notCall : e.ungrouped.isCall = false) {leading : Bool}
    {o : Operand} {b : Bindings} (h : c.operand leading e .empty = .ok (o, b))
    (binds : b = c.bindingsOf (e.occurrences .operand)) : c.Measured e o b := by
  obtain ⟨unitless, same⟩ := bindingsOf_leading (c := c) notCall
  exact .inl ⟨operand_unit_eq_none notCall h, unitless, binds.trans same.symm⟩

/-! ## Comparisons -/

section Thresholds

variable {base b b' : Bindings} {unit : Nat} {q : Fragment}

/-- A literal threshold is converted if the unit is the metre. -/
theorem convertThreshold_param (bounded : base.Bounded) {value : Value}
    (erased : (⟨b.count, b.table.erase unit⟩ : Bindings) = base ++ .single value)
    (h : convertThreshold unit (.param (base.count + 1)) b = .ok (q, b')) :
    b' = base ++ .single
      (if Text.sameName (((b.table.get? unit).map (·.text)).getD "") "m" then value.toDegrees
        else value) := by
  have count : b.count = (base ++ .single value).count := by rw [← erased]
  have table : b.table.erase unit = (base ++ .single value).table := by rw [← erased]
  have get := Bindings.get?_single bounded value .empty
  have insert := Bindings.insert_single bounded value .empty
  simp only [Bindings.append_empty] at get insert
  simp only [convertThreshold, table, count, get, insert, Option.bind_some] at h
  split at h
  · next other =>
    cases h
    rw [if_neg (by simpa using other)]
  · next meters =>
    rw [if_pos (by simpa using meters), Value.toDegrees]
    cases float : value.toFloat? with
    | none =>
      rw [float] at h
      cases h
      rfl
    | some x =>
      rw [float] at h
      cases h
      rfl

theorem convertThreshold_of_ne_param {threshold : Fragment} (notParam : ∀ n, threshold ≠ .param n)
    (h : convertThreshold unit threshold b = .ok (q, b')) : b' = ⟨b.count, b.table.erase unit⟩ := by
  simp only [convertThreshold] at h
  split at h
  · cases h
    rfl
  · cases threshold with
    | param n => exact absurd rfl (notParam n)
    | null | clause =>
      cases h
      rfl

end Thresholds

/-- A comparison drops the unit of its left side, and converts a literal on its right side. -/
theorem threshold_bindings {l r : Expr} {left right : Operand} {bl br b : Bindings} {q : Fragment}
    (inRange : bl.InRange) (measured : c.Measured l left bl) (binds : c.Binds r)
    (alone : c.operand false r .empty = .ok (right, br))
    (h : threshold left.unit (right.renumber bl.count).fragment (bl ++ br) = .ok (q, b)) :
    b = c.bindingsOf (l.occurrences .leading ++ r.occurrences l.rightSite) := by
  have bound := binds right br alone
  rcases measured with ⟨noUnit, unitless, same⟩ | ⟨n, name, unit, isUnit, written, get, dropped⟩
  · rw [noUnit] at h
    cases h
    rw [bindingsOf_append, ← same, Expr.rightSite, unitless, ← bound]
  · have mem := Table.mem_keys_of_get? get
    have get' : (bl ++ br).table.get? n = some (c.argumentValue name 1 unit) :=
      (Table.get?_append_of_mem mem _).trans get
    have erased : (⟨(bl ++ br).count, (bl ++ br).table.erase n⟩ : Bindings) =
        c.bindingsOf (l.occurrences .leading) ++ br := by
      rw [← dropped, Bindings.table_append, Table.erase_append_of_mem mem]
      rfl
    rw [isUnit] at h
    rw [bindingsOf_append, Expr.rightSite, written]
    -- what is no literal has no parameter of its own, and is converted in the text of the condition
    cases literal : isBoundLiteral r with
    | true =>
      obtain ⟨text, rfl⟩ : ∃ text, r = .primary text := by
        cases r with
        | primary text => exact ⟨text, rfl⟩
        | _ => cases literal
      have isBound := isBoundLiteral_primary_iff.1 literal
      have count : bl.count = (c.bindingsOf (l.occurrences .leading)).count := by rw [← dropped]
      have bounded : (c.bindingsOf (l.occurrences .leading)).Bounded := by
        rw [← dropped]
        intro k member
        rw [Table.keys_erase] at member
        exact (inRange k (List.mem_of_mem_erase member)).2
      simp only [operand, primary_literal isBound] at alone
      cases alone
      rw [threshold, Operand.renumber, Fragment.renumber, count] at h
      rw [convertThreshold_param bounded erased h, Expr.occurrences, if_pos isBound,
        bindingsOf_singleton rfl, get']
      rfl
    | false =>
      have notParam : ∀ k, right.fragment ≠ .param k := by
        intro k fragment
        obtain ⟨text, value, rfl, eq⟩ := operand_eq_param alone fragment
        rw [isBoundLiteral_primary_iff.2 (isBound_of_primary eq)] at literal
        cases literal
      rw [convertThreshold_of_ne_param (Fragment.renumber_ne_param notParam bl.count) h, erased,
        Expr.occurrences_of_not_isBoundLiteral literal (by simp), ← bound]

theorem primary_bindings {text : String} {q : Fragment} {b : Bindings}
    (h : c.primary text .empty = .ok (q, b)) :
    b = c.bindingsOf ((Expr.primary text).occurrences .operand) := by
  rw [Expr.occurrences]
  split
  · next bound =>
    rw [primary_literal bound] at h
    cases h
    rfl
  · next unbound =>
    rcases c.primary_cases text with ⟨-, eq⟩ | ⟨notNull, literal, -⟩ | ⟨-, column, -, eq⟩ | ⟨-, -, eq⟩
    · rw [eq] at h
      cases h
      rfl
    · exact absurd ⟨literal, notNull⟩ unbound
    · rw [eq] at h
      cases h
      rfl
    · rw [eq] at h
      cases h

/-- A compiled expression binds its literals, each at its place. A call on the left side of a
comparison still has its unit. -/
theorem operand_bindings {e : Expr} (unrecovered : Unrecovered e) {leading : Bool} {o : Operand}
    {b : Bindings} (h : c.operand leading e .empty = .ok (o, b)) :
    b = c.bindingsOf (e.occurrences .operand) ∧
      (leading = true → e.ungrouped.isCall = true → c.Measured e o b) := by
  induction e generalizing leading o b with
  | primary text =>
    simp only [operand, Compile.bind_eq_ok] at h
    obtain ⟨q, b', ran, h⟩ := h
    cases h
    exact ⟨primary_bindings ran, fun _ isCall => by cases isCall⟩
  | call name args raw ih =>
    obtain ⟨binds, measured⟩ := call_bindings
      (fun e member o b ran => (ih e member (unrecovered.part (.argument member .self)) ran).1)
      (fun nil => unrecovered name raw (nil ▸ .self)) h
    exact ⟨binds, fun _ _ => measured⟩
  | not e ih =>
    simp only [operand, Compile.bind_eq_ok] at h
    obtain ⟨inner, b', ran, h⟩ := h
    cases h
    refine ⟨?_, fun _ isCall => by cases isCall⟩
    rw [Expr.occurrences]
    exact (ih (unrecovered.part (.negated .self)) ran).1
  | group e ih =>
    have place : (Expr.group e).occurrences .operand = e.occurrences .operand := by
      simp [Expr.occurrences]
    have part := unrecovered.part (.grouped .self)
    simp only [operand] at h
    split at h
    · next isCall =>
      obtain ⟨binds, measured⟩ := ih part h
      refine ⟨place ▸ binds, fun _ isCall => ?_⟩
      simpa [Measured, Expr.occurrences, Expr.unit?, Expr.ungrouped] using measured rfl isCall
    · next notCall =>
      obtain ⟨inner, b', ran, h⟩ := Compile.bind_eq_ok.1 h
      cases h
      refine ⟨place ▸ (ih part ran).1, fun leads isCall => absurd ?_ notCall⟩
      rw [leads, Bool.true_and]
      exact isCall
  | comparison op l r ihl ihr =>
    simp only [operand_comparison, compareOperands, Compile.bind_eq_ok, Compile.liftM_eq_ok] at h
    obtain ⟨left, bl, ranₗ, right, b₁, ranᵣ, q, b₂, converted, clause, b₃, ⟨-, rfl⟩, h⟩ := h
    cases h
    have inRange := (operand_grows ranₗ).1.inRange Bindings.inRange_empty
    obtain ⟨right, br, alone, -, rfl, rfl⟩ := operand_eq_ok_after inRange.bounded ranᵣ
    obtain ⟨bindsₗ, measured⟩ := ihl (unrecovered.part (.compareLeft .self)) ranₗ
    have measured : c.Measured l left bl := by
      cases isCall : l.ungrouped.isCall with
      | true => exact measured rfl isCall
      | false => exact measured_of_not_isCall isCall ranₗ bindsₗ
    have bindsᵣ : c.Binds r := fun o b ran => (ihr (unrecovered.part (.compareRight .self)) ran).1
    refine ⟨?_, fun _ isCall => by cases isCall⟩
    rw [Expr.occurrences]
    exact threshold_bindings inRange measured bindsᵣ alone converted
  | logical op l r ihl ihr =>
    simp only [operand, Compile.bind_eq_ok] at h
    obtain ⟨left, bl, ranₗ, right, b₁, ranᵣ, h⟩ := h
    cases h
    have inRange := (operand_grows ranₗ).1.inRange Bindings.inRange_empty
    obtain ⟨right, br, alone, -, rfl, rfl⟩ := operand_eq_ok_after inRange.bounded ranᵣ
    refine ⟨?_, fun _ isCall => by cases isCall⟩
    rw [Expr.occurrences, bindingsOf_append,
      ← (ihl (unrecovered.part (.connectLeft .self)) ranₗ).1,
      ← (ihr (unrecovered.part (.connectRight .self)) alone).1]
  | inList l values ih =>
    simp only [operand, Compile.bind_eq_ok] at h
    obtain ⟨left, bl, ran, clauses, b₁, listed, h⟩ := h
    cases h
    have inRange := (operand_grows ran).1.inRange Bindings.inRange_empty
    obtain ⟨clauses', bs, alone, -, rfl⟩ := (listValues_follows inRange.bounded _ _ values).eq_ok listed
    refine ⟨?_, fun _ isCall => by cases isCall⟩
    rw [Expr.occurrences, bindingsOf_append, ← (ih (unrecovered.part (.listed .self)) ran).1,
      ← listValues_bindings alone]

/-! ## Conditions -/

theorem Unrecovered.of_parse {text : String} {e : Expr} (h : Expr.parse text = .ok e) :
    Unrecovered e := by
  intro name raw sub
  obtain ⟨ts, prints⟩ := Expr.Readable.of_parse h sub
  exact prints.recoveredArgument?_eq

/-- The parameters of a condition are those of the literals of its filter, from left to right: the
`i`-th literal has the `i`-th parameter. Of these only the units of distances on the left side of
comparisons are missing. Where nothing changes it, a value is that of its literal, and a geometry is
reprojected if its text is not to be kept. -/
theorem compile_parameters_literals {text : String} {e : Expr} {p : Predicate}
    (parsed : Expr.parse text = .ok e) (compiled : c.compile e = .ok p) :
    (e.occurrences .operand).map (·.text) = e.literals ∧
      p.parameters.entries =
        (((e.occurrences .operand).zipIdx 1).filter (!·.1.site.isUnit)).map
          (fun (o, i) => (parameterName c.options.sigil i, c.valueAt o)) ∧
      ∀ o : Occurrence, c.isAdjusted o.site = false →
        c.valueAt o =
          if Literal.isQuoted o.text && Literal.isSpatial o.text && !c.keepsText o.site then
            c.reprojectedValue o.text
          else Literal.value o.text := by
  refine ⟨e.text_occurrences .operand, ?_, fun o => valueAt_of_not_isAdjusted⟩
  obtain ⟨o, b, ran, rfl⟩ := compile_eq_ok.1 compiled
  rw [(operand_bindings (.of_parse parsed) ran).1]
  simp [bindingsOf]

/-- A filter with a distance in a group and a list: the unit of the distance has no parameter. -/
theorem compile_parameters_literals_distance :
    ∃ e p, Expr.parse "(distance(Place,'m')) lt 5 and Name in ('a','b')" = .ok e ∧
      shop.compile e = .ok p ∧ e.literals = ["'m'", "5", "'a'", "'b'"] ∧
      p.parameters.keys = ["@p2", "@p3", "@p4"] := by
  have tokens : spacedTokens (dropFilterName "(distance(Place,'m')) lt 5 and Name in ('a','b')") =
      .ok [⟨"", .openParen, "("⟩, ⟨"", .word, "distance"⟩, ⟨"", .openParen, "("⟩,
        ⟨"", .word, "Place"⟩, ⟨"", .comma, ","⟩, ⟨"", .literal, "'m'"⟩, ⟨"", .closeParen, ")"⟩,
        ⟨"", .closeParen, ")"⟩, ⟨" ", .word, "lt"⟩, ⟨" ", .literal, "5"⟩, ⟨" ", .word, "and"⟩,
        ⟨" ", .word, "Name"⟩, ⟨" ", .word, "in"⟩, ⟨" ", .openParen, "("⟩, ⟨"", .literal, "'a'"⟩,
        ⟨"", .comma, ","⟩, ⟨"", .literal, "'b'"⟩, ⟨"", .closeParen, ")"⟩] :=
    eq_ok_of_toOption (by decide +kernel)
  have distance : IsExpr [⟨"", .word, "distance"⟩, ⟨"", .openParen, "("⟩, ⟨"", .word, "Place"⟩,
      ⟨"", .comma, ","⟩, ⟨"", .literal, "'m'"⟩, ⟨"", .closeParen, ")"⟩]
      (.callOf "distance" [.primary "Place", .primary "'m'"]) :=
    isExpr_call_two ⟨rfl, by decide⟩ rfl (isExpr_word _ (by decide)) rfl (isExpr_literal _ _) rfl
      (by decide +kernel)
  have near : IsExpr [⟨"", .openParen, "("⟩, ⟨"", .word, "distance"⟩, ⟨"", .openParen, "("⟩,
      ⟨"", .word, "Place"⟩, ⟨"", .comma, ","⟩, ⟨"", .literal, "'m'"⟩, ⟨"", .closeParen, ")"⟩,
      ⟨"", .closeParen, ")"⟩, ⟨" ", .word, "lt"⟩, ⟨" ", .literal, "5"⟩]
      (.comparison "lt" (.group (.callOf "distance" [.primary "Place", .primary "'m'"]))
        (.primary "5")) :=
    isExpr_comparison_iff.2 ⟨[_, _, _, _, _, _, _, _], _, [_], rfl, by decide, by decide,
      ⟨isExpr_group_iff.2 ⟨_, [_, _, _, _, _, _], _, rfl, rfl, distance, rfl⟩, rfl⟩,
      isExpr_literal _ _, rfl⟩
  have names : IsExpr [⟨" ", .word, "Name"⟩, ⟨" ", .word, "in"⟩, ⟨" ", .openParen, "("⟩,
      ⟨"", .literal, "'a'"⟩, ⟨"", .comma, ","⟩, ⟨"", .literal, "'b'"⟩, ⟨"", .closeParen, ")"⟩]
      (.inList (.primary "Name") ["'a'", "'b'"]) :=
    isExpr_inList_two (isExpr_word _ (by decide)) rfl (by decide) rfl rfl rfl rfl rfl
  have parsed : Expr.parse "(distance(Place,'m')) lt 5 and Name in ('a','b')" =
      .ok (.logical .and
        (.comparison "lt" (.group (.callOf "distance" [.primary "Place", .primary "'m'"]))
          (.primary "5"))
        (.inList (.primary "Name") ["'a'", "'b'"])) :=
    Expr.parse_of_isExpr tokens (isExpr_logical_iff.2
      ⟨_, _, _, rfl, by decide, ⟨near, by decide⟩, names, by decide⟩) (by decide)
  obtain ⟨p, compiled⟩ : ∃ p, shop.compile (.logical .and
      (.comparison "lt" (.group (.callOf "distance" [.primary "Place", .primary "'m'"]))
        (.primary "5"))
      (.inList (.primary "Name") ["'a'", "'b'"])) = .ok p := ⟨_, rfl⟩
  obtain ⟨-, entries, -⟩ := compile_parameters_literals parsed compiled
  refine ⟨_, p, parsed, compiled, by decide +kernel, ?_⟩
  rw [Table.keys, entries, List.map_map]
  decide +kernel

end Compiler

end FilterSql.Sql
