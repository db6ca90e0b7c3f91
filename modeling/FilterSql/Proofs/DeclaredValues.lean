import FilterSql.Proofs.LiteralForms
import FilterSql.Proofs.Visits

/-!
# Values of declared types

A literal is bound as a value whose form shows in its text: digits make a number, quotes a string.
The check compares the kind of a literal with a declared type, and leaves the value out. This module
shows that both go together: in a filter that passes, the values of a list have the family that the
column is declared with, and literal arguments have the families that the catalog declares.

## Main statements

* `Literal.value_isOf_kind`: the value of a text belongs to the family of its kind.
* `Pipeline.process_declared`: what an accepted filter binds where a type is declared.
-/

namespace FilterSql

open Text FilterSql.Filter Catalog Schema Sql

/-! ## Values of a family -/

namespace Sql

/-- Whether a value may stand for one of a family: shapes are written as strings, whole numbers count
as decimals, and the unknown family asks for nothing. -/
def Value.isOf : Edm.Family → Value → Bool
  | .string, .string _ | .geography, .string _ => true
  | .integer, .int _ => true
  | .decimal, .int _ | .decimal, .double _ => true
  | .boolean, .bool _ => true
  | .dateTime, .dateTime _ => true
  | .unknown, _ => true
  | _, _ => false

/-- The families of strings do not depend on what is written in them. -/
theorem Value.isOf_string (family : Edm.Family) (s t : String) :
    (Value.string s).isOf family = (Value.string t).isOf family := by
  cases family <;> rfl

/-- A family takes the values of another one, if it is the same, or unknown, or that of decimals and
the other one that of integers. -/
theorem Value.isOf_of_accepts {want given : Edm.Family} {v : Value} (h : v.isOf given = true)
    (accepts : want = given ∨ want = .decimal ∧ given = .integer ∨ want = .unknown) :
    v.isOf want = true := by
  rcases accepts with rfl | ⟨rfl, rfl⟩ | rfl
  · exact h
  · cases v <;> first | rfl | cases h
  · cases v <;> rfl

end Sql

namespace Filter.Literal

/-- The value of a text belongs to the family of its kind. -/
theorem value_isOf_kind (x : String) : (value x).isOf (kind x).family = true := by
  have form := hasForm x
  generalize kind x = k, value x = v, isLiteral x = literal at form
  cases form with
  | quoted => split <;> rfl
  | integer => split <;> rfl
  | truth | decimal | timestamp | plain => rfl

theorem value_of_isQuoted {x : String} (h : isQuoted (trim x) = true) :
    value x = .string (unquote (trim x)) := by
  simp [value, h]

theorem value_isOf_kindFor (x : String) (expected : Edm.Family) :
    (value x).isOf (kindFor x expected).family = true := by
  unfold kindFor
  split
  · next quoted =>
    simp only [Bool.and_eq_true] at quoted
    rw [value_of_isQuoted quoted.2]
    rfl
  · exact value_isOf_kind x

/-- The kind of a literal is one of those that a schema can declare. -/
theorem kind_mem_known (x : String) : kind x ∈ Edm.Kind.known := by
  unfold kind
  dsimp only
  repeat' split
  all_goals decide

theorem kindFor_mem_known (x : String) (expected : Edm.Family) :
    kindFor x expected ∈ Edm.Kind.known := by
  unfold kindFor
  split
  · decide
  · exact kind_mem_known x

end Filter.Literal

namespace Edm

theorem Kind.family_of_accepts {declared actual : Kind} (known : actual.family ≠ .unknown)
    (h : declared.accepts actual = true) :
    declared.family = actual.family ∨ declared.family = .decimal ∧ actual.family = .integer := by
  unfold accepts at h
  rcases Bool.or_eq_true_iff.1 h with same | families
  · exact .inl (congrArg family (eq_of_beq same))
  · generalize declared.family = want, actual.family = given at *
    cases want <;> cases given <;> simp_all

theorem Kind.family_ne_unknown : ∀ k ∈ known, k.family ≠ .unknown := by decide

theorem Family.ofTypeName_typeName : ∀ k ∈ Kind.known, ofTypeName k.typeName = k.family := by
  decide +kernel

end Edm

/-! ## Checked literals -/

namespace Filter.Literal

/-- A literal that fits a declared kind has a value of its family. None fits the unknown kind. -/
theorem value_isOf_of_fits {declared : Edm.Kind} {x : String} (h : fits declared x = true) :
    declared ≠ .unknown ∧ (value x).isOf declared.family = true := by
  obtain ⟨-, accepts⟩ := Bool.and_eq_true_iff.1 h
  have known := Edm.Kind.family_ne_unknown _ (kindFor_mem_known x declared.family)
  have families := Edm.Kind.family_of_accepts known accepts
  constructor
  · rintro rfl
    rcases families with same | ⟨isDecimal, -⟩
    · exact known same.symm
    · cases isDecimal
  · refine Value.isOf_of_accepts (value_isOf_kindFor x declared.family) ?_
    exact families.imp_right .inl

end Filter.Literal

namespace Validation

/-- A checked argument of a known kind has a family that the declared one takes. -/
theorem argumentFamily_of_checkArgumentType {f : SqlFunction} {index : Nat} {k : Edm.Kind}
    (known : k ∈ Edm.Kind.known) (h : checkArgumentType f index k.typeName = .ok ()) :
    f.argumentFamily index = k.family ∨
      f.argumentFamily index = .decimal ∧ k.family = .integer ∨
      f.argumentFamily index = .unknown := by
  unfold checkArgumentType at h
  unfold SqlFunction.argumentFamily
  cases declared : f.argumentTypes[index]? with
  | none => exact .inr (.inr rfl)
  | some expected =>
    simp only [declared, Option.elim_some] at h ⊢
    have accepts : typeAccepts expected k.typeName = true := by
      by_contra refused
      simp [refused] at h
    rw [typeAccepts, Edm.Family.ofTypeName_typeName k known] at accepts
    generalize Edm.Family.ofTypeName expected = want, k.family = given at *
    cases want <;> cases given <;> simp_all

end Validation

namespace Validator

theorem checkTypes_getElem? {v : Validator} {entity : EntityType} {f : SqlFunction} {index : Nat}
    {args : List Expr} (h : v.checkTypes entity f index args = .ok ()) {i : Nat} {arg : Expr}
    (at_i : args[i]? = some arg) :
    Validation.checkArgumentType f (index + i) (v.argumentType entity f (index + i) arg) =
      .ok () := by
  induction args generalizing index i with
  | nil => cases at_i
  | cons first others ih =>
    obtain ⟨-, checked⟩ := bind_eq_ok.1 h
    obtain ⟨checked, rest⟩ := bind_eq_ok.1 checked
    cases i with
    | zero =>
      cases at_i
      exact checked
    | succ i => simpa [Nat.add_assoc, Nat.add_comm 1] using ih rest at_i

end Validator

namespace Sql.Compiler

variable {c : Compiler} {f : SqlFunction} {index : Nat} {x : String}

/-- What a literal is bound to as an argument: a string, if it is quoted, or else its value. -/
theorem givenValue_cases (c : Compiler) (f : SqlFunction) (index : Nat) (x : String) :
    Literal.isQuoted x = true ∧ (∃ s, c.givenValue f index x = .string s) ∨
      Literal.isQuoted x = false ∧ c.givenValue f index x = Literal.value x := by
  cases quoted : Literal.isQuoted x with
  | true =>
    refine .inl ⟨rfl, ?_⟩
    have isString : ∃ s, Literal.value x = .string s :=
      ⟨_, Literal.value_of_isQuoted (by rw [Literal.trim_of_isQuoted quoted, quoted])⟩
    unfold givenValue literalValue
    split
    · exact isString
    · split
      · dsimp only
        split <;> exact ⟨_, rfl⟩
      · exact isString
  | false =>
    refine .inr ⟨rfl, ?_⟩
    simp [givenValue, literalValue, quoted]

/-- A literal argument that passes the check has a value of the declared family. -/
theorem givenValue_isOf {v : Validator} {entity : EntityType} (bound : Literal.IsBound x)
    (checked : Validation.checkArgumentType f index
      (v.argumentType entity f index (.primary x)) = .ok ()) :
    (c.givenValue f index x).isOf (f.argumentFamily index) = true := by
  rcases c.givenValue_cases f index x with ⟨quoted, s, isString⟩ | ⟨notQuoted, isValue⟩
  · simp only [Validator.argumentType, quoted, if_true] at checked
    rw [isString]
    refine Value.isOf_of_accepts ?_ (Validation.argumentFamily_of_checkArgumentType
      (Literal.kindFor_mem_known x (f.argumentFamily index)) checked)
    have written := Literal.value_isOf_kindFor x (f.argumentFamily index)
    rwa [Literal.value_of_isQuoted (by rwa [Literal.trim_of_isQuoted quoted]),
      Value.isOf_string] at written
  · simp only [Validator.argumentType, notQuoted, Validator.typeOf, bound.1, bound.2,
      Bool.false_eq_true, if_false, if_true] at checked
    rw [isValue]
    exact Value.isOf_of_accepts (Literal.value_isOf_kind x)
      (Validation.argumentFamily_of_checkArgumentType (Literal.kind_mem_known x) checked)

/-- The values of a list are bound one by one to parameters of their own. -/
theorem listValues_params {declared : Option Edm.Kind} {path : String} {values : List String}
    {b b' : Bindings} {cs : List Clause} (h : listValues declared path values b = .ok (cs, b')) :
    ∃ ns : List Nat, cs = ns.map (fun n => [Symbol.param n]) ∧
      List.Forall₂ (fun value n => b.count < n ∧ b'.table.get? n = some (Literal.value value))
        values ns := by
  induction values generalizing b cs with
  | nil =>
    cases h
    exact ⟨[], rfl, .nil⟩
  | cons value rest ih =>
    obtain ⟨-, -, ds, more, rfl⟩ := listValues_cons_eq_ok.1 h
    obtain ⟨ns, rfl, bound⟩ := ih more
    refine ⟨(b.count + 1) :: ns, rfl, .cons ⟨Nat.lt_succ_self _, ?_⟩ ?_⟩
    · rw [listValues_keeps more (Nat.le_refl _), Table.get?_insert_self]
    · exact bound.imp fun _ _ held => ⟨Nat.lt_of_succ_lt held.1, held.2⟩

theorem listValues_fit {declared : Option Edm.Kind} {path : String} {values : List String}
    {b b' : Bindings} {cs : List Clause} (h : listValues declared path values b = .ok (cs, b')) :
    ∀ value ∈ values, Literal.isLiteral value = true ∧
      declared.all (Literal.fits · value) = true := by
  induction values generalizing b cs with
  | nil => simp
  | cons value rest ih =>
    obtain ⟨isLiteral, fits, ds, more, -⟩ := listValues_cons_eq_ok.1 h
    exact List.forall_mem_cons.2 ⟨⟨isLiteral, fits⟩, ih more⟩

end Sql.Compiler

namespace Validator

variable {v : Validator} {entity : EntityType}

/-- The parts of an expression that passes the check do. -/
theorem check_subterm {u e : Expr} (sub : Expr.Subterm u e) (h : v.check entity e = .ok ()) :
    v.check entity u = .ok () := by
  induction sub with
  | self => exact h
  | argument member _ ih =>
    obtain ⟨f, -, checked, -⟩ := check_call_eq_ok.1 h
    exact ih (checked _ member)
  | negated _ ih | grouped _ ih => exact ih h
  | compareLeft _ ih | connectLeft _ ih | listed _ ih => exact ih (bind_eq_ok.1 h).1
  | compareRight _ ih | connectRight _ ih => exact ih (bind_eq_ok.1 h).2

theorem checkCall_argument {f : SqlFunction} {name raw : String} {args : List Expr}
    (h : v.checkCall entity f name raw args = .ok ()) {i : Nat} {arg : Expr}
    (at_i : args[i]? = some arg) :
    Validation.checkArgumentType f i (v.argumentType entity f i arg) = .ok () := by
  unfold checkCall at h
  split at h
  · next one =>
    obtain ⟨empty, -⟩ := Bool.and_eq_true_iff.1 one
    rw [List.isEmpty_iff.1 empty] at at_i
    cases at_i
  · split at h
    · cases h
    · simpa using checkTypes_getElem? h at_i

end Validator

/-! ## What an accepted filter binds -/

namespace Sql.Compiler

/-- A compilation that comes to a list with the bindings `base` binds each of its values, as it is
read, to a parameter of the result, and the values belong to the family. -/
def BindsValues (c : Compiler) (q : Predicate) (base : Bindings) (path : String) (kind : Edm.Kind)
    (values : List String) : Prop :=
  ∃ (left : Operand) (b b' : Bindings) (ns : List Nat),
    c.operand false (.primary path) base = .ok (left, b) ∧
    listValues (some kind) path values b = .ok (ns.map fun n => [.param n], b') ∧
    List.Forall₂ (fun value n =>
      q.parameters.get? (parameterName c.options.sigil n) = some (Literal.value value) ∧
        (Literal.value value).isOf kind.family = true) values ns

/-- A compilation that comes to a call with the bindings `base` binds each literal among the
arguments, other than `null`, to a value of the family that is declared for it. This is its value
before the wildcard of the function is added. The result has it with the wildcard, unless it is the
unit of a distance that is the left side of a comparison. -/
def BindsArguments (c : Compiler) (q : Predicate) (leading : Bool) (base : Bindings)
    (f : SqlFunction) (args : List Expr) : Prop :=
  ∃ (qs : List Fragment) (b : Bindings), c.arguments f 0 args base = .ok (qs, b) ∧
    ∀ i x, args[i]? = some (.primary x) → Literal.IsBound x →
      ∃ n value, qs[i]? = some (.param n) ∧ b.table.get? n = some value ∧
        value.isOf (f.argumentFamily i) = true ∧
        (¬(leading = true ∧ i = 1 ∧ f.isDistance = true) →
          q.parameters.get? (parameterName c.options.sigil n) = some (adornedValue f i value))

variable {c : Compiler} {e : Expr} {q : Predicate} {leading : Bool} {base : Bindings}

theorem Reaches.bindsValues {path : String} {values : List String} {column : Column}
    (compiled : c.compile e = .ok q)
    (reaches : c.Reaches ⟨false, e, .empty⟩ ⟨leading, .inList (.primary path) values, base⟩)
    (mapped : c.columns.get? path = some column) :
    c.BindsValues q base path column.kind values := by
  obtain ⟨-, ⟨o, b'⟩, ran⟩ := Reaches.ran reaches Bindings.inRange_empty (visit_of_compile compiled)
  obtain ⟨left, b, cs, ranLeft, listed, unitless⟩ := operand_inList_eq_ok ran
  simp only [declaredKind, mapped, Option.map_some] at listed
  obtain ⟨ns, rfl, bound⟩ := listValues_params listed
  have kept : List.Forall₂ (fun value n => q.parameters.get? (parameterName c.options.sigil n) =
      some (Literal.value value)) values ns := by
    refine bound.imp fun value n held => reaches.get? compiled rfl ⟨o, b', ran, ?_, held.2, ?_⟩
    · exact Nat.lt_of_le_of_lt (operand_grows ranLeft).1.count_le held.1
    · simp [unitless]
  have fits := listValues_fit listed
  refine ⟨left, b, b', ns, ranLeft, listed, ?_⟩
  refine ((List.forall₂_and_left _ _).2 ⟨fun value member => ?_, kept⟩).imp fun _ _ h => h.symm
  exact (Literal.value_isOf_of_fits (by simpa using (fits value member).2)).2

/-- A list compiles on a column of a known kind only. -/
theorem Reaches.kind_ne_unknown {path : String} {values : List String} {column : Column}
    (compiled : c.compile e = .ok q)
    (reaches : c.Reaches ⟨false, e, .empty⟩ ⟨leading, .inList (.primary path) values, base⟩)
    (mapped : c.columns.get? path = some column) (nonempty : values ≠ []) :
    column.kind ≠ .unknown := by
  obtain ⟨left, b, b', ns, -, listed, -⟩ := reaches.bindsValues compiled mapped
  obtain ⟨value, member⟩ := List.exists_mem_of_ne_nil values nonempty
  exact (Literal.value_isOf_of_fits (by simpa using (listValues_fit listed value member).2)).1

/-- The literal arguments of a call that passes the check belong to the declared families. -/
theorem Reaches.bindsArguments {v : Validator} {entity : EntityType} {name raw : String}
    {args : List Expr} (compiled : c.compile e = .ok q)
    (reaches : c.Reaches ⟨false, e, .empty⟩ ⟨leading, .call name args raw, base⟩)
    (catalog : v.catalog = c.catalog) (checked : v.check entity (.call name args raw) = .ok ()) :
    ∃ f, c.catalog.get? name = some f ∧ c.BindsArguments q leading base f args := by
  obtain ⟨inRange, ⟨o, b'⟩, ran⟩ :=
    Reaches.ran reaches Bindings.inRange_empty (visit_of_compile compiled)
  obtain ⟨f, qs, b, found, arguments, finished⟩ := operand_call_eq_ok ran
  obtain ⟨f', found', -, checkedCall⟩ := Validator.check_call_eq_ok.1 checked
  rw [catalog, found] at found'
  cases found'
  refine ⟨f, found, qs, b, arguments, fun i x at_i bound => ?_⟩
  have isOf : (c.givenValue f i x).isOf (f.argumentFamily i) = true :=
    givenValue_isOf bound (Validator.checkCall_argument checkedCall at_i)
  obtain ⟨n, param, held⟩ := arguments_getElem? inRange arguments at_i
    (by rw [Nat.zero_add, argument_literal bound])
  refine ⟨n, _, param, held, isOf, fun notDropped => ?_⟩
  obtain ⟨qs₁, b₁, qs₂, recovered, -, wild, rfl⟩ := finishCall_eq_ok.1 finished
  have nonempty : qs ≠ [] := by
    rintro rfl
    cases param
  rw [recoverArguments_of_ne_nil c f raw nonempty] at recovered
  cases recovered
  have only : ∀ j, qs[j]? = some (.param n) → j = i :=
    fun j at_j => arguments_param_inj arguments at_j param
  refine reaches.get? compiled rfl ⟨_, _, ran, ?_, ?_, fun leads unit => notDropped ⟨leads, ?_⟩⟩
  · exact lt_of_param_mem_arguments arguments (List.mem_of_getElem? param)
  · exact wildcardArguments_adorns wild param only held
  · obtain ⟨isDistance, at_one⟩ := unitOf_wildcardArguments wild unit
    exact ⟨(only 1 at_one).symm, isDistance⟩

end Sql.Compiler

namespace Pipeline

variable {p : Pipeline} {text set : String} {q : Predicate}

/-- What a pipeline accepts: a blank filter, or one that is read, passes the check and compiles. -/
theorem process_eq_ok (h : p.process text set = .ok q) :
    (trim (dropFilterName text)).isEmpty = true ∧ q = .empty ∨
      ∃ e, Expr.parse (lowerFunctionNames p.knownFunctions (trim (dropFilterName text))) = .ok e ∧
        p.validator.validate e set = .ok () ∧ p.compiler.compile e = .ok q := by
  unfold process at h
  dsimp only at h
  split at h
  · next empty =>
    cases h
    exact .inl ⟨empty, rfl⟩
  · split at h
    · cases h
    · rcases parsed : Expr.parse (lowerFunctionNames p.knownFunctions
        (trim (dropFilterName text))) with err | e
      · rw [parsed] at h
        cases h
      · rw [parsed] at h
        obtain ⟨valid, compiled⟩ := finish_eq_ok.1 h
        exact .inr ⟨e, rfl, valid, compiled⟩

theorem process_of_parse {body : String} {e : Expr} (trimmed : trim (dropFilterName text) = body)
    (nonempty : body.isEmpty = false) (short : body.length ≤ p.options.maxLength)
    (parsed : Expr.parse (lowerFunctionNames p.knownFunctions body) = .ok e)
    (valid : p.validator.validate e set = .ok ()) (compiled : p.compiler.compile e = .ok q) :
    p.process text set = .ok q := by
  simp only [process, trimmed, nonempty, Bool.false_eq_true, if_false, Nat.not_lt.2 short, parsed]
  exact finish_eq_ok.2 ⟨valid, compiled⟩

/-- A filter that is accepted is empty, or its compilation comes to every part of what it is read as
and binds the literals as values of the declared types: the values of a list belong to the family of
its column, which is known, and the literal arguments of a call to the families that the catalog
declares. -/
theorem process_declared (h : p.process text set = .ok q) :
    (trim (dropFilterName text)).isEmpty = true ∧ q = .empty ∨
      ∃ e, Expr.parse (lowerFunctionNames p.knownFunctions (trim (dropFilterName text))) = .ok e ∧
        p.compiler.compile e = .ok q ∧
        (∀ u, Expr.Subterm u e → ∃ leading base,
          p.compiler.Reaches ⟨false, e, .empty⟩ ⟨leading, u, base⟩) ∧
        (∀ path values column leading base,
          p.compiler.Reaches ⟨false, e, .empty⟩ ⟨leading, .inList (.primary path) values, base⟩ →
          p.columns.get? path = some column →
          column.kind ≠ .unknown ∧ p.compiler.BindsValues q base path column.kind values) ∧
        ∀ name args raw leading base,
          p.compiler.Reaches ⟨false, e, .empty⟩ ⟨leading, .call name args raw, base⟩ →
          ∃ f, p.catalog.get? name = some f ∧
            p.compiler.BindsArguments q leading base f args := by
  rcases process_eq_ok h with blank | ⟨e, parsed, valid, compiled⟩
  · exact .inl blank
  · obtain ⟨entity, -, checked⟩ := Validator.validate_eq_ok.1 valid
    refine .inr ⟨e, parsed, compiled, fun u sub => ?_,
      fun path values column leading base reaches mapped => ?_,
      fun name args raw leading base reaches => ?_⟩
    · exact Compiler.exists_reaches sub Bindings.inRange_empty (Compiler.visit_of_compile compiled)
    · have nonempty : values ≠ [] := by
        obtain ⟨ts, -, phrase, -⟩ := Expr.exists_phrase_of_parse parsed
        obtain ⟨us, -, part⟩ := phrase.holdsPhrase_of_subterm reaches.subterm
        obtain ⟨-, -, -, -, -, value, others, -, -, -, -, -, rfl, -⟩ := isExpr_inList_iff.1 part
        exact List.cons_ne_nil value others
      exact ⟨reaches.kind_ne_unknown compiled mapped nonempty, reaches.bindsValues compiled mapped⟩
    · exact reaches.bindsArguments compiled rfl (Validator.check_subterm reaches.subterm checked)

/-- A filter with a pattern and a list: the pattern is bound as a string, and the prices as numbers. -/
theorem process_declared_prices :
    ∃ q x, shop.process "startswith(Name,'a') and Price in (1,2.5)" "products" = .ok q ∧
      q.parameters = ⟨[("@p1", .string "a%"), ("@p2", .int 1), ("@p3", .double x)]⟩ ∧
      (∃ base, shop.compiler.BindsValues q base "Price" .double ["1", "2.5"]) ∧
      ∃ f base, shop.catalog.get? "startswith" = some f ∧
        shop.compiler.BindsArguments q false base f [.primary "Name", .primary "'a'"] := by
  have tokens : spacedTokens (dropFilterName "startswith(Name,'a') and Price in (1,2.5)") =
      .ok [⟨"", .word, "startswith"⟩, ⟨"", .openParen, "("⟩, ⟨"", .word, "Name"⟩,
        ⟨"", .comma, ","⟩, ⟨"", .literal, "'a'"⟩, ⟨"", .closeParen, ")"⟩, ⟨" ", .word, "and"⟩,
        ⟨" ", .word, "Price"⟩, ⟨" ", .word, "in"⟩, ⟨" ", .openParen, "("⟩, ⟨"", .literal, "1"⟩,
        ⟨"", .comma, ","⟩, ⟨"", .literal, "2.5"⟩, ⟨"", .closeParen, ")"⟩] :=
    eq_ok_of_toOption (by decide +kernel)
  have pattern : IsExpr (π := Gap) [⟨"", .word, "startswith"⟩, ⟨"", .openParen, "("⟩,
      ⟨"", .word, "Name"⟩, ⟨"", .comma, ","⟩, ⟨"", .literal, "'a'"⟩, ⟨"", .closeParen, ")"⟩]
      (.callOf "startswith" [.primary "Name", .primary "'a'"]) :=
    isExpr_call_two ⟨rfl, by decide⟩ rfl (isExpr_word _ (by decide)) rfl (isExpr_literal _ _) rfl
      (by decide +kernel)
  have prices : IsExpr (π := Gap) [⟨" ", .word, "Price"⟩, ⟨" ", .word, "in"⟩,
      ⟨" ", .openParen, "("⟩, ⟨"", .literal, "1"⟩, ⟨"", .comma, ","⟩, ⟨"", .literal, "2.5"⟩,
      ⟨"", .closeParen, ")"⟩] (.inList (.primary "Price") ["1", "2.5"]) :=
    isExpr_inList_two (isExpr_word _ (by decide)) rfl (by decide) rfl rfl rfl rfl rfl
  have parsed : Expr.parse "startswith(Name,'a') and Price in (1,2.5)" =
      .ok (.logical .and (.callOf "startswith" [.primary "Name", .primary "'a'"])
        (.inList (.primary "Price") ["1", "2.5"])) :=
    Expr.parse_of_isExpr tokens (isExpr_logical_iff.2 ⟨_, _, _, rfl, isKeyword_self " " "and",
      ⟨pattern, by decide⟩, prices, by decide⟩) (by decide)
  have body : trim (dropFilterName "startswith(Name,'a') and Price in (1,2.5)") =
      "startswith(Name,'a') and Price in (1,2.5)" := by decide +kernel
  have lowered : lowerFunctionNames shop.knownFunctions
      "startswith(Name,'a') and Price in (1,2.5)" = "startswith(Name,'a') and Price in (1,2.5)" := by
    decide +kernel
  have valid : shop.validator.validate (.logical .and
      (.callOf "startswith" [.primary "Name", .primary "'a'"])
      (.inList (.primary "Price") ["1", "2.5"])) "products" = .ok () := rfl
  obtain ⟨q, x, compiled, bound⟩ : ∃ q x, shop.compiler.compile (.logical .and
      (.callOf "startswith" [.primary "Name", .primary "'a'"])
      (.inList (.primary "Price") ["1", "2.5"])) = .ok q ∧
      q.parameters = ⟨[("@p1", .string "a%"), ("@p2", .int 1), ("@p3", .double x)]⟩ :=
    ⟨_, _, rfl, rfl⟩
  have accepted : shop.process "startswith(Name,'a') and Price in (1,2.5)" "products" = .ok q :=
    process_of_parse body (by decide) (by decide +kernel) (by rw [lowered, parsed]) valid compiled
  rcases process_declared accepted with ⟨empty, -⟩ | ⟨e, parsed', -, reached, lists, calls⟩
  · rw [body] at empty
    exact absurd empty (by decide)
  · rw [body, lowered, parsed] at parsed'
    cases parsed'
    refine ⟨q, x, accepted, bound, ?_, ?_⟩
    · obtain ⟨leading, base, reaches⟩ := reached _ (.connectRight .self)
      exact ⟨base, (lists _ _ _ leading base reaches rfl).2⟩
    · obtain ⟨f, found, binds⟩ := calls _ _ _ _ _ (.single .connectLeft)
      exact ⟨f, _, found, binds⟩

end Pipeline

end FilterSql
