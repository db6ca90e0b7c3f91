import FilterSql.Proofs.AlikeFilters
import FilterSql.Proofs.ValidatedFilters

/-!
# Compiling alike filters

Two filters whose words differ in case only are compiled in step, with the same parameters bound at
each point: a path stands for the same column in any case, and a word that is bound is a truth value.
A list may hold the word `null`, which would be bound as it is written, but such a list does not pass
the check.

## Main statements

* `Compiler.compile_outline`: alike filters that pass a check compile to the same predicate, or fail
  with the same kind of error.
-/

namespace FilterSql

open Text FilterSql.Filter Catalog

/-! ## Steps that agree -/

namespace Sql

/-- The error without the words that it quotes from the filter. -/
def CompileError.outline : CompileError → CompileError
  | .unknownProperty _ => .unknownProperty ""
  | .unknownFunction _ => .unknownFunction ""
  | .argumentCount _ expected actual => .argumentCount "" expected actual
  | .unknownOperator token => .unknownOperator token
  | .nullComparison token => .nullComparison token
  | .notALiteral _ => .notALiteral ""
  | .inTypeMismatch _ _ => .inTypeMismatch "" ""

/-- From any bindings, both steps give the same result, or errors of the same kind. -/
def Compile.SameOutline {α : Type} (x x' : Compile α) : Prop :=
  ∀ b, (x' b).mapError CompileError.outline = (x b).mapError CompileError.outline

namespace Compile.SameOutline

variable {α β : Type} {x x' : Compile α}

theorem of_eq (h : x' = x) : SameOutline x x' := fun _ => by rw [h]

theorem bind {f f' : α → Compile β} (first : SameOutline x x')
    (next : ∀ a b b', x b = .ok (a, b') →
      (f' a b').mapError CompileError.outline = (f a b').mapError CompileError.outline) :
    SameOutline (x >>= f) (x' >>= f') := by
  intro b
  have same := first b
  simp only [Bind.bind, StateT.bind]
  rcases ran : x b with err | ⟨a, b₁⟩
  · rcases ran' : x' b with err' | ⟨a', b₁'⟩
    · simpa [ran, ran', Except.mapError, Except.bind] using same
    · simp [ran, ran', Except.mapError] at same
  · rcases ran' : x' b with err' | ⟨a', b₁'⟩
    · simp [ran, ran', Except.mapError] at same
    · simp only [ran, ran', Except.mapError, Except.ok.injEq, Prod.mk.injEq] at same
      obtain ⟨rfl, rfl⟩ := same
      exact next _ _ _ ran

theorem map (h : SameOutline x x') (f : α → β) : SameOutline (f <$> x) (f <$> x') := by
  intro b
  have same := h b
  rw [map_apply, map_apply]
  generalize x b = y, x' b = y' at same
  rcases y with err | r <;> rcases y' with err' | r' <;> simp_all [Except.mapError, Except.map]

theorem throw_bind {err err' : CompileError} (h : err'.outline = err.outline)
    (f f' : α → Compile β) : SameOutline (throw err >>= f) (throw err' >>= f') :=
  fun _ => congrArg Except.error h

end Compile.SameOutline

namespace Compiler

variable {c : Compiler} {f : SqlFunction} {e e' : Expr}

/-! ## Operands -/

theorem get?_column_congr {s s' : String} (h : SameLeaf s s') (columns : ColumnMap) :
    columns.get? s' = columns.get? s := by
  rcases h with rfl | ⟨-, -, same⟩
  · rfl
  · simp only [ColumnMap.get?, sameName_congr_right same]

theorem literal_eq {s s' : String} (h : SameLeaf s s') (isLiteral : Literal.isLiteral s = true)
    (notNull : Literal.isNull s = false) : c.literal s' = c.literal s := by
  have value := h.value_eq isLiteral notNull
  rcases h with rfl | ⟨word, word', -⟩
  · rfl
  · simp [literal, word.isQuoted_eq, word'.isQuoted_eq, value]

theorem primary_outline {s s' : String} (h : SameLeaf s s') :
    Compile.SameOutline (c.primary s) (c.primary s') := by
  intro b
  simp only [primary, h.isNull_eq, h.isLiteral_eq, get?_column_congr h]
  split
  · rfl
  · next notNull =>
    split
    · next isLiteral => rw [literal_eq h isLiteral (by simpa using notNull)]
    · cases c.columns.get? s <;> rfl

theorem quoted?_eq (h : e.SameButCase e') : quoted? e' = quoted? e := by
  cases h with
  | primary leaf =>
    rcases leaf with rfl | ⟨word, word', -⟩
    · rfl
    · simp [quoted?, word.isQuoted_eq, word'.isQuoted_eq]
  | call | not | group | comparison | logical | inList => rfl

theorem argument_outline (h : e.SameButCase e')
    (ih : Compile.SameOutline (c.operand false e) (c.operand false e')) (index : Nat) :
    Compile.SameOutline (c.argument f index e) (c.argument f index e') := by
  simp only [argument, quoted?_eq h]
  cases quoted? e with
  | some text => exact .of_eq rfl
  | none => exact ih.map _

theorem arguments_outline {es es' : List Expr} (h : List.Forall₂ Expr.SameButCase es es')
    (each : ∀ e ∈ es, ∀ e' ∈ es', e.SameButCase e' →
      Compile.SameOutline (c.operand false e) (c.operand false e')) (index : Nat) :
    Compile.SameOutline (c.arguments f index es) (c.arguments f index es') := by
  induction h generalizing index with
  | nil => exact .of_eq rfl
  | cons first _ ih =>
    rw [arguments_cons, arguments_cons]
    have operand := each _ List.mem_cons_self _ List.mem_cons_self first
    refine .bind (argument_outline first operand index) fun q _ b _ => ?_
    refine Compile.SameOutline.bind (ih (fun e member e' member' =>
      each e (List.mem_cons_of_mem _ member) e' (List.mem_cons_of_mem _ member')) (index + 1))
      (fun qs _ _ _ => rfl) b

/-- Where no argument is recovered from the texts, they do not matter. -/
theorem finishCall_outline {qs : List Fragment} {raw raw' : String}
    (recovered : qs = [] → Expr.recoveredArgument? raw = none ∧ Expr.recoveredArgument? raw' = none)
    (name name' : String) :
    Compile.SameOutline (c.finishCall f name raw qs) (c.finishCall f name' raw' qs) := by
  have same : c.recoverArguments f raw' qs = c.recoverArguments f raw qs := by
    by_cases nil : qs = []
    · obtain ⟨one, other⟩ := recovered nil
      simp only [recoverArguments, one, other]
    · rw [recoverArguments_of_ne_nil c f raw nil, recoverArguments_of_ne_nil c f raw' nil]
  unfold finishCall
  rw [same]
  refine .bind (.of_eq rfl) fun qs _ b _ => ?_
  split
  · rfl
  · rfl

/-! ## Lists -/

theorem listValues_outline {values values' : List String} (h : List.Forall₂ SameLeaf values values')
    (bound : ∀ value ∈ values, Literal.IsBound value) (declared : Option Edm.Kind)
    (path path' : String) :
    Compile.SameOutline (listValues declared path values) (listValues declared path' values') := by
  induction h with
  | nil => exact .of_eq rfl
  | @cons value value' _ _ first _ ih =>
    obtain ⟨⟨isLiteral, notNull⟩, bound⟩ := List.forall_mem_cons.1 bound
    have value_eq := first.value_eq isLiteral notNull
    simp only [listValues, first.isLiteral_eq, first.fits_eq, isLiteral, value_eq, Bool.not_true,
      Bool.false_eq_true, if_false]
    split
    · exact .throw_bind (by simp only [CompileError.outline]) _ _
    · refine .bind (.of_eq rfl) fun _ _ b _ => ?_
      exact Compile.SameOutline.bind (ih bound) (fun _ _ _ _ => rfl) b

theorem declaredKind_eq (h : e.SameButCase e') : c.declaredKind e' = c.declaredKind e := by
  cases h with
  | primary leaf => simp only [declaredKind, get?_column_congr leaf]
  | call | not | group | comparison | logical | inList => rfl

/-! ## Expressions -/

theorem isLogical_eq (h : e.SameButCase e') : e'.isLogical = e.isLogical := by
  cases h <;> rfl

theorem isCall_ungrouped_eq (h : e.SameButCase e') : e'.ungrouped.isCall = e.ungrouped.isCall := by
  induction e generalizing e' with
  | group e ih =>
    cases h with
    | group inner =>
      simp only [Expr.ungrouped]
      exact ih inner
  | primary | call | not | comparison | logical | inList =>
    cases h
    rfl

variable {v : Validator} {entity : Schema.EntityType}

theorem operand_outline (catalog : c.catalog = v.catalog) (h : e.ReadAlike e')
    (checked : v.check entity e = .ok ()) (leading : Bool) :
    Compile.SameOutline (c.operand leading e) (c.operand leading e') := by
  induction e generalizing e' leading with
  | primary s =>
    cases h.alike with
    | primary leaf =>
      simp only [operand]
      exact .bind (primary_outline leaf) fun _ _ _ _ => rfl
  | call name args raw ih =>
    cases h.alike with
    | @call _ name' _ raw' _ args' same arguments _ =>
      obtain ⟨f, found, checkedArgs, -⟩ := Validator.check_call_eq_ok.1 checked
      simp only [operand, FunctionCatalog.get?_congr same, catalog, found]
      have each : ∀ arg ∈ args, ∀ arg' ∈ args', arg.SameButCase arg' →
          Compile.SameOutline (c.operand false arg) (c.operand false arg') :=
        fun arg member arg' member' alike =>
          ih arg member (h.part (.argument member .self) (.argument member' .self) alike)
            (checkedArgs arg member) false
      refine .bind (arguments_outline arguments each 0) fun qs _ b ran => ?_
      refine finishCall_outline (fun nil => ?_) name name' b
      obtain rfl : args = [] := by simpa [nil, eq_comm] using arguments_length ran
      cases arguments
      obtain ⟨ts, prints⟩ := h.readable _ .self
      obtain ⟨ts', prints'⟩ := h.readable' _ .self
      exact ⟨prints.recoveredArgument?_eq, prints'.recoveredArgument?_eq⟩
  | not e ih =>
    cases h.alike with
    | not inner =>
      simp only [operand]
      exact .bind (ih (h.part (.negated .self) (.negated .self) inner) checked false)
        fun _ _ _ _ => rfl
  | group e ih =>
    cases h.alike with
    | group inner =>
      have part := h.part (.grouped .self) (.grouped .self) inner
      simp only [operand, isCall_ungrouped_eq inner]
      split
      · exact ih part checked true
      · exact .bind (ih part checked false) fun _ _ _ _ => rfl
  | comparison op l r ihl ihr =>
    cases h.alike with
    | comparison left right =>
      obtain ⟨checkedl, checkedr⟩ := Validator.bind_eq_ok.1 checked
      simp only [operand_comparison]
      refine .bind (ihl (h.part (.compareLeft .self) (.compareLeft .self) left) checkedl true)
        fun _ _ b _ => ?_
      exact Compile.SameOutline.bind
        (ihr (h.part (.compareRight .self) (.compareRight .self) right) checkedr false)
        (fun _ _ _ _ => rfl) b
  | logical op l r ihl ihr =>
    cases h.alike with
    | logical left right =>
      obtain ⟨checkedl, checkedr⟩ := Validator.bind_eq_ok.1 checked
      simp only [operand, connected, isLogical_eq left, isLogical_eq right]
      refine .bind (ihl (h.part (.connectLeft .self) (.connectLeft .self) left) checkedl false)
        fun _ _ b _ => ?_
      exact Compile.SameOutline.bind
        (ihr (h.part (.connectRight .self) (.connectRight .self) right) checkedr false)
        (fun _ _ _ _ => rfl) b
  | inList l values ih =>
    cases h.alike with
    | @inList _ l' _ values' left listed =>
      obtain ⟨checkedl, checkedValues⟩ := Validator.bind_eq_ok.1 checked
      have bound : ∀ value ∈ values, Literal.IsBound value := by
        intro value member
        obtain ⟨isLiteral, fits⟩ := Validator.checkValues_eq_ok.1 checkedValues value member
        exact ⟨isLiteral, by simp_all [Literal.fits]⟩
      simp only [operand, declaredKind_eq left]
      refine .bind (ih (h.part (.listed .self) (.listed .self) left) checkedl false)
        fun _ _ b _ => ?_
      exact Compile.SameOutline.bind (listValues_outline listed bound _ _ _)
        (fun _ _ _ _ => rfl) b

theorem compile_outline (catalog : c.catalog = v.catalog) (h : e.ReadAlike e')
    (checked : v.check entity e = .ok ()) :
    (c.compile e').mapError CompileError.outline = (c.compile e).mapError CompileError.outline :=
  mapError_bind_congr (operand_outline catalog h checked false .empty) fun _ => rfl

end Compiler

end Sql

end FilterSql
