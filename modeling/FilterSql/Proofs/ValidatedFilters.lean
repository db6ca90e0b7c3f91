import FilterSql.Proofs.Acceptance
import FilterSql.Proofs.Compile
import FilterSql.Proofs.Phrases
import FilterSql.Proofs.PlacedTokens
import FilterSql.Validation

/-!
# Validated filters compile

The check of a filter and its compilation walk the same tree, one with a schema and the other with a
map of columns. Where both have the same catalog, and the columns have the kinds that the schema
declares, a filter that passes the check compiles, unless it names a property without a column or
orders something against `null`.
-/

namespace FilterSql

open FilterSql.Filter Catalog Schema

/-! ## Leaves -/

namespace Filter

mutual

/-- The texts of the leaves of an expression. -/
def Expr.primaries : Expr → List String
  | .primary text => [text]
  | .call _ args _ => primariesOf args
  | .not e => e.primaries
  | .group e => e.primaries
  | .comparison _ l r => l.primaries ++ r.primaries
  | .logical _ l r => l.primaries ++ r.primaries
  | .inList l _ => l.primaries

def Expr.primariesOf : List Expr → List String
  | [] => []
  | e :: es => e.primaries ++ primariesOf es

end

end Filter

/-! ## What a check says -/

/-- The number of arguments is right, if an argument that only the text shows is counted. -/
def ArityFits {α : Type} (f : SqlFunction) (raw : String) (args : List α) : Prop :=
  args.length = f.arity ∨ args = [] ∧ f.arity = 1 ∧
    ∃ text, (Expr.recoveredArgument? raw).filter Literal.isQuoted = some text

namespace Validator

variable {v : Validator} {entity : EntityType}

theorem bind_eq_ok {ε : Type} {x y : Except ε Unit} :
    (x >>= fun _ => y) = .ok () ↔ x = .ok () ∧ y = .ok () := by
  rcases x with err | ⟨⟩ <;> simp [bind, Except.bind]

theorem checkAll_eq_ok {es : List Expr} :
    v.checkAll entity es = .ok () ↔ ∀ e ∈ es, v.check entity e = .ok () := by
  induction es with
  | nil => simp [checkAll]
  | cons e es ih => simp only [checkAll, bind_eq_ok, ih, List.forall_mem_cons]

theorem checkValues_eq_ok {declared : Edm.Kind} {path : String} {values : List String} :
    checkValues declared path values = .ok () ↔
      ∀ value ∈ values, Literal.isLiteral value = true ∧ Literal.fits declared value = true := by
  induction values with
  | nil => simp [checkValues]
  | cons value values ih =>
    cases lit : Literal.isLiteral value <;> cases fit : Literal.fits declared value <;>
      simp [checkValues, lit, fit, ih]

theorem check_call_eq_ok {name raw : String} {args : List Expr} :
    v.check entity (.call name args raw) = .ok () ↔
      ∃ f, v.catalog.get? name = some f ∧ (∀ arg ∈ args, v.check entity arg = .ok ()) ∧
        v.checkCall entity f name raw args = .ok () := by
  cases found : v.catalog.get? name with
  | none => simp [check, found]
  | some f => simp [check, found, bind_eq_ok, checkAll_eq_ok]

theorem checkCall_arity {f : SqlFunction} {name raw : String} {args : List Expr}
    (h : v.checkCall entity f name raw args = .ok ()) : ArityFits f raw args := by
  unfold checkCall at h
  split at h
  · next one =>
    simp only [Bool.and_eq_true, List.isEmpty_iff, beq_iff_eq] at one
    split at h
    · cases h
    · next text recovered => exact .inr ⟨one.1, one.2, text, recovered⟩
  · split at h
    · cases h
    · next arity => exact .inl (not_not.1 arity)

theorem validate_eq_ok {e : Expr} {entitySet : String} :
    v.validate e entitySet = .ok () ↔
      ∃ entity, v.schema.entityTypeOfSet? entitySet = some entity ∧ v.check entity e = .ok () := by
  constructor
  · intro h
    unfold validate at h
    split at h
    · cases h
    · next set found =>
      split at h
      · cases h
      · next entity typed =>
        refine ⟨entity, by rw [Model.entityTypeOfSet?, found, Option.bind_some, typed], ?_⟩
        rcases ran : v.check entity e with err | ⟨⟩
        · rw [ran] at h
          cases h
        · rfl
  · rintro ⟨entity, typed, checked⟩
    obtain ⟨set, found, typed⟩ := Option.bind_eq_some_iff.1 typed
    simp only [validate, found, typed, checked]
    rfl

end Validator

namespace Sql

open Compile

/-! ## Steps that cannot fail -/

/-- The step succeeds with all bindings. -/
def Compile.Total {α : Type} (x : Compile α) : Prop := ∀ b err, x b ≠ .error err

theorem Compile.Total.bind {α β : Type} {x : Compile α} {f : α → Compile β} (hx : x.Total)
    (hf : ∀ a, (f a).Total) : (x >>= f).Total := by
  intro b err failed
  rcases bind_eq_error.1 failed with first | ⟨a, b', -, second⟩
  · exact hx b err first
  · exact hf a b' err second

theorem total_pure {α : Type} (a : α) : (pure a : Compile α).Total := nofun

theorem total_bindValue (value : Value) : (bindValue value).Total := nofun

theorem total_wildcard (f : SqlFunction) (pattern : Fragment) : (wildcard f pattern).Total := by
  intro b err failed
  unfold wildcard at failed
  split at failed
  · split at failed <;> cases failed
  · cases failed

theorem total_wildcardArguments (f : SqlFunction) (args : List Fragment) :
    (wildcardArguments f args).Total := by
  unfold wildcardArguments
  split
  · split
    · exact (total_wildcard f _).bind fun _ => total_pure _
    · exact total_pure _
  · exact total_pure _

theorem total_convertThreshold (unit : Nat) (right : Fragment) :
    (convertThreshold unit right).Total := by
  intro b err failed
  unfold convertThreshold at failed
  dsimp only at failed
  split at failed
  · cases failed
  · split at failed
    · cases failed
    · split at failed <;> cases failed
    · cases failed

namespace Compiler

theorem recoverArguments_length {c : Compiler} {f : SqlFunction} {raw : String}
    {args args' : List Fragment} {b b' : Bindings} (arity : ArityFits f raw args)
    (h : c.recoverArguments f raw args b = .ok (args', b')) : args'.length = f.arity := by
  unfold recoverArguments at h
  rcases arity with arity | ⟨rfl, one, text, recovered⟩
  · have given : (args.isEmpty && f.arity == 1) = false := by
      cases args with
      | nil => simp [← arity]
      | cons => rfl
    rw [if_neg (by simp [given])] at h
    cases h
    exact arity
  · rw [if_pos (by simp [one]), recovered] at h
    obtain ⟨q, b₁, -, h⟩ := bind_eq_ok.1 h
    cases h
    exact one.symm

theorem total_recoverArguments (c : Compiler) (f : SqlFunction) (raw : String)
    (args : List Fragment) : (c.recoverArguments f raw args).Total := by
  by_cases nil : args = []
  · subst nil
    rcases c.recoverArguments_nil f raw with eq | ⟨value, eq⟩
    · exact eq ▸ total_pure _
    · exact eq ▸ (total_bindValue value).bind fun _ => total_pure _
  · rw [recoverArguments_of_ne_nil c f raw nil]
    exact total_pure _

theorem total_finishCall {c : Compiler} {f : SqlFunction} {raw : String} {args : List Fragment}
    (arity : ArityFits f raw args) (name : String) : (c.finishCall f name raw args).Total := by
  intro b err failed
  rcases bind_eq_error.1 failed with first | ⟨args', b', recovered, rest⟩
  · exact total_recoverArguments c f raw args b err first
  · rw [if_neg (not_not.2 (recoverArguments_length arity recovered))] at rest
    exact ((total_wildcardArguments f args').bind fun _ => total_pure _) b' err rest

theorem total_listValues {declared : Option Edm.Kind} {values : List String}
    (fit : ∀ value ∈ values, Literal.isLiteral value = true ∧
      declared.all (Literal.fits · value) = true) (path : String) :
    (listValues declared path values).Total := by
  induction values with
  | nil => exact total_pure _
  | cons value values ih =>
    obtain ⟨first, others⟩ := List.forall_mem_cons.1 fit
    simp only [listValues, first.1, first.2, Bool.not_true, Bool.false_eq_true, if_false]
    exact (total_bindValue _).bind fun _ => (ih others).bind fun _ => total_pure _

theorem total_threshold (unit : Option Nat) (right : Fragment) : (threshold unit right).Total := by
  cases unit with
  | none => exact total_pure right
  | some unit => exact total_convertThreshold unit right

theorem declaredKind_eq_some {c : Compiler} {e : Expr} {kind : Edm.Kind}
    (h : c.declaredKind e = some kind) :
    ∃ path column, e = .primary path ∧ c.columns.get? path = some column ∧ column.kind = kind := by
  cases e with
  | primary path =>
    obtain ⟨column, mapped, rfl⟩ := Option.map_eq_some_iff.1 h
    exact ⟨path, column, rfl, mapped, rfl⟩
  | _ => cases h

end Compiler

/-! ## Errors that remain -/

theorem compareFragments_eq_error {op : String} {l r : Fragment} {err : CompileError}
    (known : op ∈ comparisonOperators) (h : compareFragments op l r = .error err) :
    err = .nullComparison op := by
  have read : ∀ op ∈ comparisonOperators, (ComparisonOperator.ofToken? op).isSome = true := by
    decide
  have nullTest_error : ∀ {c : ComparisonOperator} {q : Fragment},
      nullTest c op q = .error err → err = .nullComparison op := by
    intro c q h
    cases c <;> cases h
    all_goals rfl
  obtain ⟨operator, found⟩ := Option.isSome_iff_exists.1 (read op known)
  simp only [compareFragments, found] at h
  split at h
  · exact nullTest_error h
  · exact nullTest_error h
  · cases h

/-- An error that a check against the schema does not rule out: one of the properties has no column,
or something is ordered against `null`. -/
def Excused (c : Compiler) (xs : List String) (err : CompileError) : Prop :=
  (∃ x ∈ xs, Literal.isLiteral x = false ∧ c.columns.get? x = none ∧ err = .unknownProperty x) ∨
    ∃ op, err = .nullComparison op

/-- The columns have the kinds that the schema declares. -/
def KindsMatch (c : Compiler) (v : Validator) (entity : EntityType) (xs : List String) : Prop :=
  ∀ x ∈ xs, ∀ column, c.columns.get? x = some column →
    column.kind = .ofTypeName (v.typeOf entity (.primary x))

theorem Excused.mono {c : Compiler} {xs ys : List String} {err : CompileError}
    (h : Excused c xs err) (subset : xs ⊆ ys) : Excused c ys err := by
  rcases h with ⟨x, member, rest⟩ | null
  · exact .inl ⟨x, subset member, rest⟩
  · exact .inr null

theorem KindsMatch.mono {c : Compiler} {v : Validator} {entity : EntityType} {xs ys : List String}
    (h : KindsMatch c v entity ys) (subset : xs ⊆ ys) : KindsMatch c v entity xs :=
  fun x member => h x (subset member)

namespace Compiler

variable {c : Compiler} {v : Validator} {entity : EntityType}

/-- If a checked expression fails to compile, the error is excused. -/
def FailsExcused (c : Compiler) (v : Validator) (entity : EntityType) (e : Expr) : Prop :=
  v.check entity e = .ok () → KindsMatch c v entity e.primaries →
    ∀ leading b err, c.operand leading e b = .error err → Excused c e.primaries err

theorem failsExcused_primary (text : String) : FailsExcused c v entity (.primary text) := by
  intro _ _ leading b err failed
  simp only [operand, bind_pure_eq_error] at failed
  rcases c.primary_cases text with ⟨-, eq⟩ | ⟨-, -, value, eq⟩ | ⟨-, column, -, eq⟩ |
    ⟨path, unmapped, eq⟩
  all_goals rw [eq] at failed
  · cases failed
  · cases failed
  · cases failed
  · cases failed
    exact .inl ⟨text, List.mem_singleton.2 rfl, path, unmapped, rfl⟩

theorem argument_eq_error {f : SqlFunction} {index : Nat} {e : Expr} {b : Bindings}
    {err : CompileError} (h : c.argument f index e b = .error err) :
    c.operand false e b = .error err := by
  cases quoted : quoted? e with
  | some text =>
    obtain ⟨value, eq⟩ := c.argumentLiteral_eq_bindValue f index text
    simp only [argument, quoted, eq] at h
    cases h
  | none =>
    simp only [argument, quoted, map_eq_error] at h
    exact h

theorem arguments_excused {f : SqlFunction} {es : List Expr}
    (ih : ∀ e ∈ es, FailsExcused c v entity e) (checked : ∀ e ∈ es, v.check entity e = .ok ())
    (kinds : KindsMatch c v entity (Expr.primariesOf es)) {index : Nat} {b : Bindings}
    {err : CompileError} (failed : c.arguments f index es b = .error err) :
    Excused c (Expr.primariesOf es) err := by
  induction es generalizing index b with
  | nil =>
    simp only [arguments, pure_apply] at failed
    cases failed
  | cons e es more =>
    simp only [List.forall_mem_cons] at ih checked
    rw [arguments_cons] at failed
    rcases bind_eq_error.1 failed with first | ⟨q, b₁, -, others⟩
    · have left := List.subset_append_left e.primaries (Expr.primariesOf es)
      exact (ih.1 checked.1 (kinds.mono left) _ _ _ (argument_eq_error first)).mono left
    · have right := List.subset_append_right e.primaries (Expr.primariesOf es)
      exact (more ih.2 checked.2 (kinds.mono right) (bind_pure_eq_error.1 others)).mono right

theorem failsExcused_call (catalog : c.catalog = v.catalog) (name : String) (args : List Expr)
    (raw : String) (ih : ∀ arg ∈ args, FailsExcused c v entity arg) :
    FailsExcused c v entity (.call name args raw) := by
  intro checked kinds leading b err failed
  obtain ⟨f, found, checkedArgs, checkedCall⟩ := Validator.check_call_eq_ok.1 checked
  simp only [operand, catalog, found, bind_eq_error] at failed
  rcases failed with failed | ⟨qs, b₁, compiled, failed⟩
  · exact arguments_excused ih checkedArgs kinds failed
  · have length := arguments_length compiled
    have arity : ArityFits f raw qs := by
      rcases Validator.checkCall_arity checkedCall with arity | ⟨rfl, one, recovered⟩
      · exact .inl (length.trans arity)
      · exact .inr ⟨List.length_eq_zero_iff.1 length, one, recovered⟩
    exact absurd failed (total_finishCall arity name b₁ err)

theorem failsExcused_comparison {op : String} {l r : Expr} (known : op ∈ comparisonOperators)
    (ihl : FailsExcused c v entity l) (ihr : FailsExcused c v entity r) :
    FailsExcused c v entity (.comparison op l r) := by
  intro checked kinds leading b err failed
  obtain ⟨checkedl, checkedr⟩ := Validator.bind_eq_ok.1 checked
  have left := List.subset_append_left l.primaries r.primaries
  have right := List.subset_append_right l.primaries r.primaries
  rw [operand_comparison] at failed
  rcases bind_eq_error.1 failed with failed | ⟨o, b₁, -, failed⟩
  · exact (ihl checkedl (kinds.mono left) _ _ _ failed).mono left
  rcases bind_eq_error.1 failed with failed | ⟨o', b₂, -, failed⟩
  · exact (ihr checkedr (kinds.mono right) _ _ _ failed).mono right
  rcases bind_eq_error.1 failed with failed | ⟨q, b₃, -, failed⟩
  · exact absurd failed (total_threshold o.unit o'.fragment b₂ err)
  have compared := bind_pure_eq_error.1 failed
  rw [liftM_eq_error] at compared
  exact .inr ⟨op, compareFragments_eq_error known compared⟩

theorem failsExcused_logical (op : Connective) {l r : Expr}
    (ihl : FailsExcused c v entity l) (ihr : FailsExcused c v entity r) :
    FailsExcused c v entity (.logical op l r) := by
  intro checked kinds leading b err failed
  obtain ⟨checkedl, checkedr⟩ := Validator.bind_eq_ok.1 checked
  have left := List.subset_append_left l.primaries r.primaries
  have right := List.subset_append_right l.primaries r.primaries
  simp only [operand] at failed
  rcases bind_eq_error.1 failed with failed | ⟨o, b₁, -, failed⟩
  · exact (ihl checkedl (kinds.mono left) _ _ _ failed).mono left
  · exact (ihr checkedr (kinds.mono right) _ _ _ (bind_pure_eq_error.1 failed)).mono right

theorem failsExcused_inList {l : Expr} (values : List String) (ih : FailsExcused c v entity l) :
    FailsExcused c v entity (.inList l values) := by
  intro checked kinds leading b err failed
  obtain ⟨checkedl, checkedValues⟩ := Validator.bind_eq_ok.1 checked
  simp only [operand] at failed
  rcases bind_eq_error.1 failed with failed | ⟨o, b₁, -, failed⟩
  · exact ih checkedl kinds _ _ _ failed
  · have failed := bind_pure_eq_error.1 failed
    refine absurd failed (total_listValues (fun value member => ?_) l.text b₁ err)
    obtain ⟨isLiteral, fits⟩ := Validator.checkValues_eq_ok.1 checkedValues value member
    refine ⟨isLiteral, ?_⟩
    cases declared : c.declaredKind l with
    | none => rfl
    | some kind =>
      obtain ⟨path, column, rfl, mapped, rfl⟩ := declaredKind_eq_some declared
      rw [Option.all_some, kinds path (List.mem_singleton.2 rfl) column mapped]
      exact fits

/-- No tree of a phrase fails to compile for a reason that the check rules out. -/
theorem failsExcused_of_isExpr (catalog : c.catalog = v.catalog) {π : Type} [Place π]
    {ts : List (Token π)} {e : Expr} (h : IsExpr ts e) : FailsExcused c v entity e := by
  refine h.tree_induction (fun op _ _ => failsExcused_logical op) failsExcused_primary
    (failsExcused_call catalog) ?not ?group (fun _ _ _ => failsExcused_comparison)
    fun _ values _ => failsExcused_inList values
  case not =>
    intro e ih checked kinds leading b err failed
    simp only [operand, bind_pure_eq_error] at failed
    exact ih checked kinds _ _ _ failed
  case group =>
    intro e ih checked kinds leading b err failed
    simp only [operand] at failed
    -- dropped before a call or not, the group has the leaves of what it holds
    split at failed
    · exact ih checked kinds _ _ _ failed
    · exact ih checked kinds _ _ _ (bind_pure_eq_error.1 failed)

/-- A filter that passes the check against a schema compiles with the same catalog, where the
columns have the kinds that the schema declares. Only a property without a column and an order
against `null` are still errors. -/
theorem compile_of_validate (catalog : c.catalog = v.catalog) {text entitySet : String} {e : Expr}
    (parsed : Expr.parse text = .ok e) (valid : v.validate e entitySet = .ok ())
    (kinds : ∀ entity, v.schema.entityTypeOfSet? entitySet = some entity →
      KindsMatch c v entity e.primaries) :
    (∃ p, c.compile e = .ok p) ∨
      (∃ x ∈ e.primaries, Literal.isLiteral x = false ∧ c.columns.get? x = none ∧
        c.compile e = .error (.unknownProperty x)) ∨
      ∃ op, c.compile e = .error (.nullComparison op) := by
  obtain ⟨entity, found, checked⟩ := Validator.validate_eq_ok.1 valid
  obtain ⟨ts, phrase⟩ := Expr.isExpr_of_parse parsed
  rcases ran : c.operand false e .empty with err | ⟨o, b⟩
  · rw [compile_eq_error ran]
    rcases failsExcused_of_isExpr catalog phrase checked (kinds entity found) _ _ _ ran with
      ⟨x, member, path, unmapped, rfl⟩ | ⟨op, rfl⟩
    · exact .inr (.inl ⟨x, member, path, unmapped, rfl⟩)
    · exact .inr (.inr ⟨op, rfl⟩)
  · exact .inl ⟨_, compile_eq_ok.2 ⟨o, b, ran, rfl⟩⟩

/-- The products of the sample compiler, and its catalog. -/
def shopValidator : Validator where
  schema :=
    { entityTypes := [⟨⟨"Product", [.plain "Name" "Edm.String", .plain "Price" "Edm.Double"]⟩, []⟩]
      complexTypes := []
      functions := []
      containers := [⟨"Shop", [⟨"Products", "Demo.Product"⟩]⟩] }
  catalog := shop.catalog

theorem compile_of_validate_list :
    Expr.parse "Name in ('a','b')" = .ok (.inList (.primary "Name") ["'a'", "'b'"]) ∧
      shopValidator.validate (.inList (.primary "Name") ["'a'", "'b'"]) "products" = .ok () ∧
      ∃ p, shop.compile (.inList (.primary "Name") ["'a'", "'b'"]) = .ok p := by
  have tokens : spacedTokens (dropFilterName "Name in ('a','b')") =
      .ok [⟨"", .word, "Name"⟩, ⟨" ", .word, "in"⟩, ⟨" ", .openParen, "("⟩, ⟨"", .literal, "'a'"⟩,
        ⟨"", .comma, ","⟩, ⟨"", .literal, "'b'"⟩, ⟨"", .closeParen, ")"⟩] :=
    eq_ok_of_toOption (by decide +kernel)
  have phrase : IsExpr [⟨"", .word, "Name"⟩, ⟨" ", .word, "in"⟩, ⟨" ", .openParen, "("⟩,
      ⟨"", .literal, "'a'"⟩, ⟨"", .comma, ","⟩, ⟨"", .literal, "'b'"⟩, ⟨"", .closeParen, ")"⟩]
      (.inList (.primary "Name") ["'a'", "'b'"]) :=
    isExpr_inList_two (isExpr_word _ (by decide)) rfl (by decide) rfl rfl rfl rfl rfl
  have parsed : Expr.parse "Name in ('a','b')" =
      .ok (.inList (.primary "Name") ["'a'", "'b'"]) :=
    Expr.parse_of_isExpr tokens phrase (by decide)
  have valid : shopValidator.validate (.inList (.primary "Name") ["'a'", "'b'"]) "products" =
      .ok () := rfl
  refine ⟨parsed, valid, ?_⟩
  have kinds : ∀ entity, shopValidator.schema.entityTypeOfSet? "products" = some entity →
      KindsMatch shop shopValidator entity ["Name"] := by
    intro entity found x member column mapped
    cases found
    cases List.mem_singleton.1 member
    cases mapped
    rfl
  rcases compile_of_validate rfl parsed valid kinds with compiled | ⟨x, member, -, unmapped, -⟩ |
    ⟨op, failed⟩
  · exact compiled
  · cases List.mem_singleton.1 member
    cases unmapped
  · have succeeds : (shop.compile (.inList (.primary "Name") ["'a'", "'b'"])).isOk = true := rfl
    rw [failed] at succeeds
    cases succeeds

end Compiler

end Sql

end FilterSql
