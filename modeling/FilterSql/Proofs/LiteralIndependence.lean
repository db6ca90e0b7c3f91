import FilterSql.Proofs.Renumbering
import Mathlib.Data.List.Forall2

/-!
# The SQL text does not depend on literals

Two filters that differ in the texts of literals only compile to the same SQL, with parameters of
the same names in the same order: every literal binds one parameter, and nothing of its value gets
into the text.

Two texts decide more than a value, and are the same in both filters. The unit of a distance decides
whether the threshold is converted, and the text of a call without arguments may hold an argument.

The proof follows two compilations side by side. Their bindings stay alike: they hold the same
parameters, with values of their own.
-/

namespace FilterSql.Filter

/-- A literal other than `null`, for which a parameter is bound. -/
def Literal.IsBound (text : String) : Prop := isLiteral text = true ∧ isNull text = false

instance (text : String) : Decidable (Literal.IsBound text) :=
  inferInstanceAs (Decidable (_ ∧ _))

/-- The same text, or two literals that are bound. -/
def Literal.Interchangeable (s t : String) : Prop := s = t ∨ IsBound s ∧ IsBound t

instance (s t : String) : Decidable (Literal.Interchangeable s t) :=
  inferInstanceAs (Decidable (_ ∨ _))

/-- Expressions that differ in the texts of bound literals only. -/
inductive Expr.SameButLiterals : Expr → Expr → Prop
  | primary {s t : String} : Literal.Interchangeable s t → SameButLiterals (.primary s) (.primary t)
  | call {name raw raw' : String} {args args' : List Expr} :
    List.Forall₂ SameButLiterals args args' → (args = [] → raw = raw') →
    (Text.sameName name "distance" = true → args[1]? = args'[1]?) →
    SameButLiterals (.call name args raw) (.call name args' raw')
  | not {e e' : Expr} : SameButLiterals e e' → SameButLiterals (.not e) (.not e')
  | group {e e' : Expr} : SameButLiterals e e' → SameButLiterals (.group e) (.group e')
  | comparison {op : String} {l l' r r' : Expr} : SameButLiterals l l' → SameButLiterals r r' →
    SameButLiterals (.comparison op l r) (.comparison op l' r')
  | logical {op : Connective} {l l' r r' : Expr} : SameButLiterals l l' → SameButLiterals r r' →
    SameButLiterals (.logical op l r) (.logical op l' r')
  | inList {l l' : Expr} {values values' : List String} : SameButLiterals l l' →
    List.Forall₂ Literal.Interchangeable values values' →
    SameButLiterals (.inList l values) (.inList l' values')

theorem Expr.SameButLiterals.isLogical_eq {e e' : Expr} (h : SameButLiterals e e') :
    e.isLogical = e'.isLogical := by
  cases h <;> rfl

theorem Expr.SameButLiterals.isCall_ungrouped_eq {e e' : Expr} (h : SameButLiterals e e') :
    e.ungrouped.isCall = e'.ungrouped.isCall := by
  induction e generalizing e' with
  | group e ih =>
    cases h with
    | group h =>
      have inner := ih h
      exact inner
  | _ =>
    cases h
    rfl

end FilterSql.Filter

namespace FilterSql.Catalog

theorem FunctionCatalog.sameName_of_isDistance {c : FunctionCatalog} {name : String}
    {f : SqlFunction} (found : c.get? name = some f) (h : f.isDistance = true) :
    Text.sameName name "distance" = true := by
  rw [get?] at found
  have named := List.find?_some found
  simp only [SqlFunction.isDistance, Text.sameName, beq_iff_eq] at named h ⊢
  rw [← named, h]

end FilterSql.Catalog

namespace FilterSql.Sql

open FilterSql.Filter Catalog

/-! ## Two compilations side by side -/

/-- The same parameters are bound, to values that may differ. -/
structure Bindings.Alike (b b' : Bindings) : Prop where
  count : b.count = b'.count
  keys : b.table.keys = b'.table.keys
  inRange : b.InRange

theorem Bindings.Alike.inRange_right {b b' : Bindings} (h : b.Alike b') : b'.InRange := by
  intro n member
  exact h.count ▸ h.inRange n (h.keys ▸ member)

/-- If both steps succeed, they have the same result, and `Q` holds of it and the bindings that the
steps end with. -/
def Compile.Agrees {α : Type} (b b' : Bindings) (Q : α → Bindings → Bindings → Prop)
    (x x' : Compile α) : Prop :=
  ∀ ⦃a a' b₁ b₁'⦄, x b = .ok (a, b₁) → x' b' = .ok (a', b₁') → a = a' ∧ Q a b₁ b₁'

namespace Compile.Agrees

variable {α β : Type} {b b' : Bindings} {Q : α → Bindings → Bindings → Prop}
  {R : β → Bindings → Bindings → Prop}

theorem pure {a : α} (h : Q a b b') : Agrees b b' Q (pure a) (pure a) := by
  intro a₁ a₁' b₁ b₁' ran ran'
  cases ran
  cases ran'
  exact ⟨rfl, h⟩

theorem throw (err : CompileError) (x' : Compile α) : Agrees b b' Q (throw err) x' := by
  intro a₁ a₁' b₁ b₁' ran
  cases ran

theorem bind {x x' : Compile α} {f f' : α → Compile β} (hx : Agrees b b' Q x x')
    (hf : ∀ a b₁ b₁', x b = .ok (a, b₁) → x' b' = .ok (a, b₁') → Q a b₁ b₁' →
      Agrees b₁ b₁' R (f a) (f' a)) :
    Agrees b b' R (x >>= f) (x' >>= f') := by
  intro r r' b₂ b₂' ran ran'
  obtain ⟨a, b₁, first, second⟩ := bind_eq_ok.1 ran
  obtain ⟨a', b₁', first', second'⟩ := bind_eq_ok.1 ran'
  obtain ⟨rfl, q⟩ := hx first first'
  exact hf a b₁ b₁' first first' q second second'

theorem map {g : α → β} {x x' : Compile α} (hx : Agrees b b' Q x x')
    (hg : ∀ a b₁ b₁', Q a b₁ b₁' → R (g a) b₁ b₁') : Agrees b b' R (g <$> x) (g <$> x') := by
  intro r r' b₁ b₁' ran ran'
  obtain ⟨a, first, rfl⟩ := map_eq_ok.1 ran
  obtain ⟨a', first', rfl⟩ := map_eq_ok.1 ran'
  obtain ⟨rfl, q⟩ := hx first first'
  exact ⟨rfl, hg a b₁ b₁' q⟩

theorem lift {y : Except CompileError α} (h : ∀ a, Q a b b') :
    Agrees b b' Q (liftM y) (liftM y) := by
  intro a a' b₁ b₁' ran ran'
  obtain ⟨eq, rfl⟩ := liftM_eq_ok.1 ran
  obtain ⟨eq', rfl⟩ := liftM_eq_ok.1 ran'
  rw [eq] at eq'
  cases eq'
  exact ⟨rfl, h a⟩

end Compile.Agrees

/-! ## Steps on alike bindings -/

section Steps

open Compile

variable {b b' : Bindings}

theorem bindValue_injective : Function.Injective bindValue := by
  intro value value' h
  have run := congrFun h .empty
  cases run
  rfl

theorem bindValue_agrees (alike : b.Alike b') (value value' : Value) :
    Agrees b b' (fun _ => Bindings.Alike) (bindValue value) (bindValue value') := by
  intro a a' b₁ b₁' ran ran'
  cases ran
  cases ran'
  have fresh : ∀ {b : Bindings}, b.InRange → b.count + 1 ∉ b.table.keys :=
    fun inRange old => absurd (inRange _ old).2 (by omega)
  refine ⟨by rw [alike.count], congrArg (· + 1) alike.count, ?_, ?_⟩
  · dsimp only
    rw [Table.keys_insert_of_notMem (fresh alike.inRange),
      Table.keys_insert_of_notMem (fresh alike.inRange_right), alike.keys, alike.count]
  · exact (bindValue_grows value b).inRange alike.inRange

/-- A pattern gets its wildcard in the value or in the text, and in both runs in the same way. A
value that is the same in both runs stays so. -/
theorem wildcard_agrees (alike : b.Alike b') (f : SqlFunction) (pattern : Fragment) :
    Agrees b b' (fun _ b₁ b₁' => b₁.Alike b₁' ∧ ∀ n, b.table.get? n = b'.table.get? n →
      b₁.table.get? n = b₁'.table.get? n) (wildcard f pattern) (wildcard f pattern) := by
  intro q q' b₁ b₁' ran ran'
  by_cases bound : ∃ n ∈ b.table.keys, pattern = .param n
  · obtain ⟨n, member, rfl⟩ := bound
    obtain ⟨value, found⟩ := Table.exists_get?_of_mem member
    obtain ⟨value', found'⟩ := Table.exists_get?_of_mem (alike.keys ▸ member)
    rw [wildcard_param found] at ran
    rw [wildcard_param found'] at ran'
    cases ran
    cases ran'
    refine ⟨rfl, ⟨alike.count, ?_, ?_⟩, fun m same => ?_⟩
    · dsimp only
      rw [Table.keys_insert_of_mem member, Table.keys_insert_of_mem (alike.keys ▸ member),
        alike.keys]
    · intro m bound
      rw [Table.keys_insert_of_mem member] at bound
      exact alike.inRange m bound
    · by_cases eq : m = n
      · subst eq
        have values : value = value' := Option.some.inj (found.symm.trans (same.trans found'))
        rw [Table.get?_insert_self, Table.get?_insert_self, values]
      · rw [Table.get?_insert_of_ne eq, Table.get?_insert_of_ne eq, same]
  · have unbound : ∀ n, pattern = .param n → n ∉ b.table.keys := fun n eq member =>
      bound ⟨n, member, eq⟩
    rw [wildcard_unbound fun n eq => Table.get?_eq_none (unbound n eq)] at ran
    rw [wildcard_unbound fun n eq => Table.get?_eq_none (alike.keys ▸ unbound n eq)] at ran'
    cases ran
    cases ran'
    exact ⟨rfl, alike, fun _ same => same⟩

/-- Where the unit has the same value in both runs, the threshold becomes the same fragment. -/
theorem convertThreshold_agrees (alike : b.Alike b') {unit : Nat}
    (same : b.table.get? unit = b'.table.get? unit) (right : Fragment) :
    Agrees b b' (fun _ => Bindings.Alike) (convertThreshold unit right)
      (convertThreshold unit right) := by
  intro q q' b₁ b₁' ran ran'
  obtain ⟨count, keys, rfl⟩ := convertThreshold_eq_ok ran
  obtain ⟨count', keys', rfl⟩ := convertThreshold_eq_ok ran'
  refine ⟨by rw [same], by rw [count, count', alike.count], by rw [keys, keys', alike.keys], ?_⟩
  intro n member
  rw [keys] at member
  exact count ▸ alike.inRange n (List.mem_of_mem_erase member)

namespace Compiler

/-! ## Calls -/

/-- The unit among compiled arguments has the same value in both runs. -/
def SameUnit (f : SqlFunction) (args : List Fragment) (b b' : Bindings) : Prop :=
  b.Alike b' ∧ ∀ n, unitOf f args = some n → b.table.get? n = b'.table.get? n

theorem wildcardArguments_agrees {f : SqlFunction} {args : List Fragment}
    (same : SameUnit f args b b') :
    Agrees b b' (SameUnit f) (wildcardArguments f args) (wildcardArguments f args) := by
  match args with
  | [] | [_] => exact .pure same
  | first :: second :: others =>
    simp only [wildcardArguments]
    split
    · refine .bind (wildcard_agrees same.1 f second) fun q b₁ b₁' ran _ alike => ?_
      refine .pure ⟨alike.1, fun n unit => alike.2 n (same.2 n ?_)⟩
      -- a wildcard that leaves a parameter leaves the one that was there
      rcases (wildcard_eq_ok ran).2.2 with rfl | ⟨c, rfl⟩
      · exact unit
      · cases unit
    · exact .pure same

theorem recoverArguments_agrees (c : Compiler) {f : SqlFunction} {args : List Fragment}
    {raw raw' : String} (same : SameUnit f args b b') (sameRaw : args = [] → raw = raw') :
    Agrees b b' (SameUnit f) (c.recoverArguments f raw args) (c.recoverArguments f raw' args) := by
  by_cases nil : args = []
  · rw [← sameRaw nil]
    subst nil
    rcases c.recoverArguments_nil f raw with eq | ⟨value, eq⟩
    · rw [eq]
      exact .pure same
    · rw [eq]
      refine .bind (bindValue_agrees same.1 value value) fun q b₁ b₁' _ _ alike => ?_
      exact .pure ⟨alike, fun n unit => by cases unit⟩
  · rw [recoverArguments_of_ne_nil c f raw nil, recoverArguments_of_ne_nil c f raw' nil]
    exact .pure same

/-- The unit of an operand has the same value in both runs. -/
def SameOperandUnit (o : Operand) (b b' : Bindings) : Prop :=
  b.Alike b' ∧ ∀ n ∈ o.unit, b.table.get? n = b'.table.get? n

theorem finishCall_agrees (c : Compiler) {f : SqlFunction} {args : List Fragment}
    {name raw raw' : String} (same : SameUnit f args b b') (sameRaw : args = [] → raw = raw') :
    Agrees b b' SameOperandUnit (c.finishCall f name raw args) (c.finishCall f name raw' args) := by
  unfold finishCall
  refine .bind (recoverArguments_agrees c same sameRaw) fun args₁ b₁ b₁' _ _ same₁ => ?_
  dsimp only
  split
  · exact .bind (Q := fun _ _ _ => True) (.throw _ _) fun _ _ _ thrown => by cases thrown
  · refine .bind (wildcardArguments_agrees same₁) fun args₂ b₂ b₂' _ _ same₂ => ?_
    exact .pure ⟨same₂.1, fun n unit => same₂.2 n unit⟩

/-! ## Arguments -/

theorem primary_of_isBound (c : Compiler) {text : String} (h : Literal.IsBound text) :
    ∃ value, c.primary text = bindValue value := by
  rcases c.primary_cases text with ⟨null, -⟩ | ⟨-, -, bound⟩ | ⟨path, -⟩ | ⟨path, -⟩
  · rw [h.2] at null
    cases null
  · exact bound
  all_goals
    rw [h.1] at path
    cases path

theorem argument_of_primary {c : Compiler} {text : String} {value : Value}
    (h : c.primary text = bindValue value) (f : SqlFunction) (index : Nat) :
    ∃ value', c.argument f index (.primary text) = bindValue value' := by
  cases quoted : quoted? (.primary text) with
  | some t =>
    obtain ⟨value', eq⟩ := c.argumentLiteral_eq_bindValue f index t
    exact ⟨value', by simp only [argument, quoted, eq]⟩
  | none =>
    refine ⟨value, ?_⟩
    simp only [argument, quoted, operand, h]
    rfl

theorem argument_of_isBound (c : Compiler) (f : SqlFunction) (index : Nat) {text : String}
    (h : Literal.IsBound text) : ∃ value, c.argument f index (.primary text) = bindValue value := by
  obtain ⟨value, eq⟩ := c.primary_of_isBound h
  exact argument_of_primary eq f index

theorem argument_agrees {c : Compiler} (f : SqlFunction) (index : Nat) {e e' : Expr}
    (same : e.SameButLiterals e') (alike : b.Alike b')
    (ih : Agrees b b' SameOperandUnit (c.operand false e) (c.operand false e')) :
    Agrees b b' (fun _ => Bindings.Alike) (c.argument f index e) (c.argument f index e') := by
  have compiled : quoted? e = none → quoted? e' = none →
      Agrees b b' (fun _ => Bindings.Alike) (c.argument f index e) (c.argument f index e') := by
    intro none none'
    simp only [argument, none, none']
    exact ih.map fun _ _ _ h => h.1
  cases same with
  | primary slot =>
    rcases slot with rfl | ⟨bound, bound'⟩
    · cases quoted : quoted? (.primary _) with
      | none => exact compiled quoted quoted
      | some text =>
        obtain ⟨value, eq⟩ := c.argumentLiteral_eq_bindValue f index text
        simp only [argument, quoted, eq]
        exact bindValue_agrees alike value value
    · obtain ⟨value, eq⟩ := c.argument_of_isBound f index bound
      obtain ⟨value', eq'⟩ := c.argument_of_isBound f index bound'
      rw [eq, eq']
      exact bindValue_agrees alike value value'
  | _ => exact compiled rfl rfl

theorem arguments_agrees {c : Compiler} (f : SqlFunction) {es es' : List Expr}
    (same : List.Forall₂ Expr.SameButLiterals es es')
    (ih : ∀ e ∈ es, ∀ e' b b', e.SameButLiterals e' → b.Alike b' →
      Agrees b b' SameOperandUnit (c.operand false e) (c.operand false e'))
    (index : Nat) (alike : b.Alike b') :
    Agrees b b' (fun _ => Bindings.Alike) (c.arguments f index es) (c.arguments f index es') := by
  induction same generalizing index b b' with
  | nil =>
    simp only [arguments]
    exact .pure alike
  | @cons e e' es es' first _ more =>
    rw [arguments_cons, arguments_cons]
    refine .bind (argument_agrees f index first alike (ih e (by simp) e' b b' first alike))
      fun q b₁ b₁' _ _ alike₁ => ?_
    refine .bind (more (fun e he => ih e (by simp [he])) (index + 1) alike₁)
      fun qs b₂ b₂' _ _ alike₂ => ?_
    exact .pure alike₂

theorem argument_eq_param {c : Compiler} {f : SqlFunction} {index n : Nat} {e : Expr}
    (h : c.argument f index e b = .ok (.param n, b')) :
    ∃ value, c.argument f index e = bindValue value := by
  cases quoted : quoted? e with
  | some text =>
    obtain ⟨value, eq⟩ := c.argumentLiteral_eq_bindValue f index text
    exact ⟨value, by simp only [argument, quoted, eq]⟩
  | none =>
    simp only [argument, quoted, map_eq_ok] at h
    obtain ⟨o, ran, fragment⟩ := h
    obtain ⟨text, value, rfl, eq⟩ := operand_eq_param ran fragment
    exact argument_of_primary eq f index

/-- The unit of a distance is the value of its second argument, a literal. -/
theorem arguments_unit {c : Compiler} {f : SqlFunction} {es : List Expr} {qs : List Fragment}
    {n : Nat} (inRange : b.InRange) (h : c.arguments f 0 es b = .ok (qs, b')) (unit : unitOf f qs = some n) :
    ∃ e value, es[1]? = some e ∧ c.argument f 1 e = bindValue value ∧
      b'.table.get? n = some value := by
  obtain ⟨-, q₀, others, rfl⟩ := unitOf_eq_some.1 unit
  match es, arguments_length h with
  | e₀ :: e₁ :: es, _ =>
    simp only [arguments_cons, bind_eq_ok, pure_apply] at h
    obtain ⟨_, b₁, ran₀, _, _, ⟨_, b₂, ran₁, _, b₃, ran₂, eq⟩, h⟩ := h
    cases eq
    cases h
    have inRange₁ : b₁.InRange := (argument_grows (fun _ => operand_grows) ran₀).1.inRange inRange
    have inRange₂ : b₂.InRange := (argument_grows (fun _ => operand_grows) ran₁).1.inRange inRange₁
    obtain ⟨value, bound⟩ := argument_eq_param ran₁
    rw [bound, bindValue_apply] at ran₁
    cases ran₁
    refine ⟨e₁, value, rfl, bound, ?_⟩
    rw [arguments_keeps inRange₂.bounded ran₂ (Nat.le_refl _), Table.get?_insert_self]

/-- The second argument of a distance is the same in both filters, and so is the value of its
parameter. -/
theorem arguments_sameUnit {c : Compiler} {f : SqlFunction} {es es' : List Expr}
    (same : List.Forall₂ Expr.SameButLiterals es es')
    (ih : ∀ e ∈ es, ∀ e' b b', e.SameButLiterals e' → b.Alike b' →
      Agrees b b' SameOperandUnit (c.operand false e) (c.operand false e'))
    (unit : f.isDistance = true → es[1]? = es'[1]?) (alike : b.Alike b') :
    Agrees b b' (SameUnit f) (c.arguments f 0 es) (c.arguments f 0 es') := by
  intro qs qs' b₁ b₁' ran ran'
  obtain ⟨rfl, alike₁⟩ := arguments_agrees f same ih 0 alike ran ran'
  refine ⟨rfl, alike₁, fun n isUnit => ?_⟩
  obtain ⟨e, value, second, eq, found⟩ := arguments_unit alike.inRange ran isUnit
  obtain ⟨e', value', second', eq', found'⟩ := arguments_unit alike.inRange_right ran' isUnit
  rw [unit (unitOf_eq_some.1 isUnit).1, second'] at second
  cases second
  rw [eq] at eq'
  rw [found, found', bindValue_injective eq']

/-! ## Whole filters -/

theorem listValues_agrees {values values' : List String}
    (same : List.Forall₂ Literal.Interchangeable values values')
    (declared declared' : Option Edm.Kind) (path path' : String) (alike : b.Alike b') :
    Agrees b b' (fun _ => Bindings.Alike) (listValues declared path values)
      (listValues declared' path' values') := by
  induction same generalizing b b' with
  | nil => exact .pure alike
  | @cons value value' values values' _ _ more =>
    intro cs cs' b₁ b₁' ran ran'
    obtain ⟨-, -, ds, rest, rfl⟩ := listValues_cons_eq_ok.1 ran
    obtain ⟨-, -, ds', rest', rfl⟩ := listValues_cons_eq_ok.1 ran'
    have alike₁ := (bindValue_agrees alike (Literal.value value) (Literal.value value') rfl rfl).2
    obtain ⟨rfl, alike₂⟩ := more alike₁ rest rest'
    exact ⟨by rw [alike.count], alike₂⟩

theorem compareOperands_agrees {left : Operand} (op : String) (right : Operand)
    (same : SameOperandUnit left b b') :
    Agrees b b' SameOperandUnit (compareOperands op left right)
      (compareOperands op left right) := by
  have converted : Agrees b b' (fun _ => Bindings.Alike) (threshold left.unit right.fragment)
      (threshold left.unit right.fragment) := by
    cases unit : left.unit with
    | none => exact .pure same.1
    | some n => exact convertThreshold_agrees same.1 (same.2 n unit) right.fragment
  refine .bind converted fun q b₁ b₁' _ _ alike => ?_
  refine .bind (.lift fun _ => alike) fun clause b₂ b₂' _ _ alike => ?_
  exact .pure ⟨alike, by simp⟩

theorem primary_agrees (c : Compiler) {s t : String} (slot : Literal.Interchangeable s t)
    (alike : b.Alike b') :
    Agrees b b' (fun _ => Bindings.Alike) (c.primary s) (c.primary t) := by
  rcases slot with rfl | ⟨bound, bound'⟩
  · rcases c.primary_cases s with ⟨-, eq⟩ | ⟨-, -, value, eq⟩ | ⟨-, column, -, eq⟩ | ⟨-, -, eq⟩
    all_goals rw [eq]
    · exact .pure alike
    · exact bindValue_agrees alike value value
    · exact .pure alike
    · exact .throw _ _
  · obtain ⟨value, eq⟩ := c.primary_of_isBound bound
    obtain ⟨value', eq'⟩ := c.primary_of_isBound bound'
    rw [eq, eq']
    exact bindValue_agrees alike value value'

theorem operand_agrees (c : Compiler) {leading : Bool} {e e' : Expr} (same : e.SameButLiterals e')
    (alike : b.Alike b') :
    Agrees b b' SameOperandUnit (c.operand leading e) (c.operand leading e') := by
  induction e generalizing leading b b' e' with
  | primary text =>
    cases same with
    | primary slot =>
      simp only [operand]
      refine .bind (c.primary_agrees slot alike) fun q b₁ b₁' _ _ alike₁ => ?_
      exact .pure ⟨alike₁, by simp⟩
  | call name args raw ih =>
    cases same with
    | call sameArgs sameRaw sameUnit =>
      cases found : c.catalog.get? name with
      | none =>
        simp only [operand, found]
        exact .throw _ _
      | some f =>
        simp only [operand, found]
        refine .bind (arguments_sameUnit sameArgs (fun e he _ _ _ same alike => ih e he same alike)
          (fun distance => sameUnit ?_) alike) fun qs b₁ b₁' ran _ same₁ => ?_
        · exact FunctionCatalog.sameName_of_isDistance found distance
        · refine finishCall_agrees c same₁ fun nil => sameRaw ?_
          simpa [nil, eq_comm] using arguments_length ran
  | not e ih =>
    cases same with
    | not same =>
      simp only [operand]
      refine .bind (ih same alike) fun inner b₁ b₁' _ _ same₁ => ?_
      exact .pure ⟨same₁.1, by simp⟩
  | group e ih =>
    cases same with
    | group same =>
      simp only [operand, same.isCall_ungrouped_eq]
      split
      · exact ih same alike
      · refine .bind (ih same alike) fun inner b₁ b₁' _ _ same₁ => ?_
        exact .pure ⟨same₁.1, by simp⟩
  | comparison op l r ihl ihr =>
    cases same with
    | comparison samel samer =>
      rw [operand_comparison, operand_comparison]
      refine .bind (ihl samel alike) fun left b₁ b₁' ranl _ same₁ => ?_
      refine .bind (ihr samer same₁.1) fun right b₂ b₂' ranr ranr' same₂ => ?_
      -- the right operand leaves the unit of the left one as it is
      refine compareOperands_agrees op right ⟨same₂.1, fun n unit => ?_⟩
      have le : n ≤ b₁.count := ((operand_grows ranl).2.2 n unit).2
      rw [operand_keeps same₁.1.inRange.bounded ranr le,
        operand_keeps same₁.1.inRange_right.bounded ranr' (same₁.1.count ▸ le), same₁.2 n unit]
  | logical op l r ihl ihr =>
    cases same with
    | logical samel samer =>
      simp only [operand]
      refine .bind (ihl samel alike) fun left b₁ b₁' _ _ same₁ => ?_
      refine .bind (ihr samer same₁.1) fun right b₂ b₂' _ _ same₂ => ?_
      simp only [connected, samel.isLogical_eq, samer.isLogical_eq]
      exact .pure ⟨same₂.1, by simp⟩
  | inList l values ih =>
    cases same with
    | inList samel sameValues =>
      simp only [operand]
      refine .bind (ih samel alike) fun left b₁ b₁' _ _ same₁ => ?_
      refine .bind (listValues_agrees sameValues _ _ _ _ same₁.1) fun cs b₂ b₂' _ _ alike₂ => ?_
      exact .pure ⟨alike₂, by simp⟩

end Compiler

end Steps

namespace Compiler

/-- Filters that differ in the texts of bound literals only, if both compile, have the same SQL and
parameters of the same names in the same order. -/
theorem compile_sql_literal_independent (c : Compiler) {e e' : Expr} (same : e.SameButLiterals e')
    {p p' : Predicate} (h : c.compile e = .ok p) (h' : c.compile e' = .ok p') :
    p.sql = p'.sql ∧ p.parameters.keys = p'.parameters.keys := by
  obtain ⟨o, b, ran, rfl⟩ := compile_eq_ok.1 h
  obtain ⟨o', b', ran', rfl⟩ := compile_eq_ok.1 h'
  have alike : Bindings.Alike .empty .empty := ⟨rfl, rfl, Bindings.inRange_empty⟩
  obtain ⟨rfl, same, -⟩ := c.operand_agrees same alike ran ran'
  exact ⟨rfl, by rw [Table.keys_mapKeys, Table.keys_mapKeys, same.keys]⟩

/-- The literals of a pattern, a list and a threshold change, and the unit stays. -/
theorem compile_sql_literal_independent_shop :
    let filter (pattern price limit : String) : Expr :=
      .logical .and
        (.logical .or (.callOf "startswith" [.primary "Name", .primary pattern])
          (.inList (.primary "Price") [price, "1.5"]))
        (.comparison "lt" (.callOf "distance" [.primary "Place", .primary "'m'"]) (.primary limit))
    ∃ p p', shop.compile (filter "'a'" "2" "100") = .ok p ∧
      shop.compile (filter "7" "-0.5" "'x' OR 1=1 --'") = .ok p' ∧
      p.sql = p'.sql ∧ p.parameters.keys = p'.parameters.keys := by
  intro filter
  have succeeds : (shop.compile (filter "'a'" "2" "100")).isOk = true := rfl
  have succeeds' : (shop.compile (filter "7" "-0.5" "'x' OR 1=1 --'")).isOk = true := rfl
  have same : (filter "'a'" "2" "100").SameButLiterals (filter "7" "-0.5" "'x' OR 1=1 --'") := by
    refine .logical (.logical (.call (.cons (.primary ?_) (.cons (.primary ?_) .nil)) nofun nofun)
      (.inList (.primary ?_) (.cons ?_ (.cons ?_ .nil))))
      (.comparison (.call (.cons (.primary ?_) (.cons (.primary ?_) .nil)) nofun fun _ => rfl)
        (.primary ?_))
    all_goals decide
  rcases h : shop.compile (filter "'a'" "2" "100") with err | p
  · rw [h] at succeeds
    cases succeeds
  rcases h' : shop.compile (filter "7" "-0.5" "'x' OR 1=1 --'") with err | p'
  · rw [h'] at succeeds'
    cases succeeds'
  exact ⟨p, p', rfl, rfl, compile_sql_literal_independent shop same h h'⟩

end Compiler

end FilterSql.Sql
