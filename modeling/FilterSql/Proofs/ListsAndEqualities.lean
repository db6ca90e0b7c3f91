import FilterSql.Proofs.LiteralIndependence
import FilterSql.Proofs.Literals

/-!
# A list and a chain of equalities

A list and the chain of equalities with its values bind as many parameters, in the same order and
under the same names. The values are bound in two ways: those of a list as they are written, and those
of an equality as the literals that they are, with geometries reprojected. So the two agree exactly if
reprojection leaves every geometry among the values as it was written.

## Main statements

* `Compiler.compile_inList_equalities`: the parameters of both, and when they are the same.
-/

namespace FilterSql.Filter.Expr

/-- The chain of equalities of a path with some values, which leans to the left. -/
def equalities (path first : String) (others : List String) : Expr :=
  others.foldl (fun e value => .logical .or e (.comparison "eq" (.primary path) (.primary value)))
    (.comparison "eq" (.primary path) (.primary first))

end FilterSql.Filter.Expr

namespace FilterSql.Sql

open FilterSql.Filter Catalog

/-! ## Values bound in turn -/

namespace Bindings

/-- The bindings after one more value. -/
def push (b : Bindings) (value : Value) : Bindings :=
  ⟨b.count + 1, b.table.insert (b.count + 1) value⟩

/-- The bindings after more values, which are bound in turn. -/
def pushAll (b : Bindings) (values : List Value) : Bindings := values.foldl push b

@[simp] theorem pushAll_nil (b : Bindings) : b.pushAll [] = b := rfl

@[simp] theorem pushAll_cons (b : Bindings) (value : Value) (values : List Value) :
    b.pushAll (value :: values) = (b.push value).pushAll values := rfl

theorem InRange.entries_push {b : Bindings} (h : b.InRange) (value : Value) :
    (b.push value).table.entries = b.table.entries ++ [(b.count + 1, value)] := by
  have fresh : b.count + 1 ∉ b.table.keys := fun old => absurd (h _ old).2 (by omega)
  have inserted := Table.insert_append_of_notMem fresh .empty value
  have whole : b.table ++ .empty = b.table := congrArg Table.mk (List.append_nil _)
  rw [whole] at inserted
  rw [push, inserted]
  rfl

/-- The values are numbered from the count on. -/
theorem InRange.entries_pushAll {b : Bindings} (h : b.InRange) (values : List Value) :
    (b.pushAll values).table.entries =
      b.table.entries ++ values.mapIdx fun i value => (b.count + 1 + i, value) := by
  induction values generalizing b with
  | nil => simp
  | cons value values ih =>
    have step := ih (b := b.push value) ((bindValue_grows value b).inRange h)
    have count : (b.push value).count = b.count + 1 := rfl
    rw [pushAll_cons, step, h.entries_push, count]
    simp [List.mapIdx_cons, Nat.add_assoc, Nat.add_comm]

end Bindings

namespace Compiler

variable {c : Compiler} {path : String} {column : Column}

/-! ## The values of a list -/

theorem listValues_eq_ok {declared : Option Edm.Kind} {values : List String}
    (fit : ∀ value ∈ values, Literal.isLiteral value = true ∧
      declared.all (Literal.fits · value) = true) (b : Bindings) :
    ∃ clauses, listValues declared path values b =
      .ok (clauses, b.pushAll (values.map Literal.value)) := by
  induction values generalizing b with
  | nil => exact ⟨[], rfl⟩
  | cons value values ih =>
    obtain ⟨⟨isLiteral, fits⟩, others⟩ := List.forall_mem_cons.1 fit
    obtain ⟨clauses, ran⟩ := ih others (b.push (Literal.value value))
    exact ⟨_, listValues_cons_eq_ok.2 ⟨isLiteral, fits, clauses, ran, rfl⟩⟩

theorem primary_column (isPath : Literal.isLiteral path = false)
    (mapped : c.columns.get? path = some column) :
    c.primary path = pure (.clause (.ofString column.filterSql)) := by
  rcases c.primary_cases path with ⟨null, -⟩ | ⟨-, isLiteral, -⟩ | ⟨-, column', mapped', eq⟩ |
    ⟨-, unmapped, -⟩
  · rw [Literal.isLiteral_of_isNull null] at isPath
    cases isPath
  · rw [isPath] at isLiteral
    cases isLiteral
  · rw [mapped] at mapped'
    cases mapped'
    exact eq
  · rw [mapped] at unmapped
    cases unmapped

theorem primary_literal {value : String} (bound : Literal.IsBound value) :
    c.primary value = bindValue (c.literalValue value) := by
  simp [primary, bound.1, bound.2, literal_eq_bindValue_literalValue]

theorem operand_inList (isPath : Literal.isLiteral path = false)
    (mapped : c.columns.get? path = some column) {values : List String}
    (fit : ∀ value ∈ values, Literal.isLiteral value = true ∧
      Literal.fits column.kind value = true) (b : Bindings) :
    ∃ o, c.operand false (.inList (.primary path) values) b =
      .ok (o, b.pushAll (values.map Literal.value)) := by
  have declared : c.declaredKind (.primary path) = some column.kind := by
    simp [declaredKind, mapped]
  obtain ⟨clauses, listed⟩ : ∃ clauses, listValues (some column.kind) path values b =
      .ok (clauses, b.pushAll (values.map Literal.value)) := listValues_eq_ok (by simpa using fit) b
  simp only [operand, primary_column isPath mapped, declared, Expr.text, Compile.bind_eq_ok]
  exact ⟨_, _, _, ⟨_, _, rfl, rfl⟩, _, _, listed, rfl⟩

/-! ## A chain of equalities -/

theorem operand_equality (isPath : Literal.isLiteral path = false)
    (mapped : c.columns.get? path = some column) {value : String} (bound : Literal.IsBound value)
    (b : Bindings) :
    c.operand false (.comparison "eq" (.primary path) (.primary value)) b =
      .ok (⟨.clause (Clause.ofString column.filterSql ++ Clause.ofString " = " ++
        [.param (b.count + 1)]), none⟩, b.push (c.literalValue value)) := by
  rw [operand_comparison]
  simp only [operand, primary_column isPath mapped, primary_literal bound, compareOperands,
    Compile.bind_eq_ok]
  exact ⟨_, _, ⟨_, _, rfl, rfl⟩, _, _, ⟨_, _, rfl, rfl⟩, _, _, rfl, _, _, rfl, rfl⟩

theorem operand_equalities (isPath : Literal.isLiteral path = false)
    (mapped : c.columns.get? path = some column) {first : String} {others : List String}
    (bound : ∀ value ∈ first :: others, Literal.IsBound value) (b : Bindings) :
    ∃ o, c.operand false (Expr.equalities path first others) b =
      .ok (o, b.pushAll ((first :: others).map c.literalValue)) := by
  obtain ⟨isBound, areBound⟩ := List.forall_mem_cons.1 bound
  -- the chain grows on the right, and each new equality goes on with what is bound before it
  suffices chain : ∀ (e : Expr) (b' : Bindings), (∃ o, c.operand false e b = .ok (o, b')) →
      ∃ o, c.operand false (others.foldl (fun e value =>
        .logical .or e (.comparison "eq" (.primary path) (.primary value))) e) b =
          .ok (o, b'.pushAll (others.map c.literalValue)) from
    chain _ _ ⟨_, operand_equality isPath mapped isBound b⟩
  clear bound
  induction others with
  | nil => exact fun _ _ ran => ran
  | cons value others ih =>
    rintro e b' ⟨left, ran⟩
    obtain ⟨isBound', areBound⟩ := List.forall_mem_cons.1 areBound
    have ran' := operand_equality isPath mapped isBound' b'
    refine ih areBound _ (b'.push (c.literalValue value)) ?_
    rw [operand]
    exact ⟨_, Compile.bind_eq_ok.2 ⟨_, _, ran, Compile.bind_eq_ok.2 ⟨_, _, ran', rfl⟩⟩⟩

/-! ## Comparing the two -/

/-- A literal is bound as it is written, unless it is a geometry that reprojection changes. -/
theorem value_eq_literalValue_iff {value : String} :
    Literal.value value = c.literalValue value ↔
      (Literal.isQuoted value = true → Literal.isSpatial value = true → ∀ moved,
        Geodesy.reprojectText c.options.sourceSrid Geodesy.storageSrid (Literal.unquote value) =
          .ok moved → moved = Literal.unquote value) := by
  cases quoted : Literal.isQuoted value with
  | false => simp [literalValue, quoted]
  | true =>
    cases spatial : Literal.isSpatial value with
    | false => simp [literalValue, spatial]
    | true =>
      have written : Literal.value value = .string (Literal.unquote value) := by
        simp [Literal.value, Literal.trim_of_isQuoted quoted, quoted]
      simp only [written, literalValue, quoted, spatial, Bool.and_self, if_true]
      cases Geodesy.reprojectText c.options.sourceSrid Geodesy.storageSrid
        (Literal.unquote value) with
      | error err => simp
      | ok moved => simp [eq_comm]

/-- The parameters of a compilation that binds some values in turn. -/
theorem compile_pushAll {e : Expr} {o : Operand} {values : List Value}
    (ran : c.operand false e .empty = .ok (o, Bindings.empty.pushAll values)) :
    ∃ p, c.compile e = .ok p ∧ p.parameters.entries =
      values.mapIdx fun i value => (parameterName c.options.sigil (i + 1), value) := by
  refine ⟨_, compile_eq_ok.2 ⟨o, _, ran, rfl⟩, ?_⟩
  rw [Table.entries_mapKeys, Bindings.inRange_empty.entries_pushAll]
  refine List.ext_getElem? fun i => ?_
  simp [Bindings.empty, Table.empty, Nat.add_comm, Function.comp_def]

/-- A list binds its values as they are written, and the chain of equalities binds them as literals,
under the same names. Both tables are the same exactly if reprojection changes no geometry. -/
theorem compile_inList_equalities {first : String} {others : List String}
    (isPath : Literal.isLiteral path = false) (mapped : c.columns.get? path = some column)
    (fit : ∀ value ∈ first :: others, Literal.isLiteral value = true ∧
      Literal.fits column.kind value = true) :
    ∃ p q, c.compile (.inList (.primary path) (first :: others)) = .ok p ∧
      c.compile (Expr.equalities path first others) = .ok q ∧
      (p.parameters.entries = ((first :: others).map Literal.value).mapIdx
        fun i value => (parameterName c.options.sigil (i + 1), value)) ∧
      (q.parameters.entries = ((first :: others).map c.literalValue).mapIdx
        fun i value => (parameterName c.options.sigil (i + 1), value)) ∧
      (p.parameters = q.parameters ↔ ∀ value ∈ first :: others,
        Literal.isQuoted value = true → Literal.isSpatial value = true → ∀ moved,
          Geodesy.reprojectText c.options.sourceSrid Geodesy.storageSrid (Literal.unquote value) =
            .ok moved → moved = Literal.unquote value) := by
  have bound : ∀ value ∈ first :: others, Literal.IsBound value := by
    intro value member
    obtain ⟨isLiteral, fits⟩ := fit value member
    exact ⟨isLiteral, by simp_all [Literal.fits]⟩
  obtain ⟨_, ran⟩ := operand_inList isPath mapped fit .empty
  obtain ⟨_, ran'⟩ := operand_equalities isPath mapped bound .empty
  obtain ⟨p, compiled, entries⟩ := compile_pushAll ran
  obtain ⟨q, compiled', entries'⟩ := compile_pushAll ran'
  refine ⟨p, q, compiled, compiled', entries, entries', ?_⟩
  have values : ∀ vs : List Value, (vs.mapIdx fun i value =>
      (parameterName c.options.sigil (i + 1), value)).map (·.2) = vs := by
    intro vs
    refine List.ext_getElem? fun i => ?_
    simp [Function.comp_def]
  have same : p.parameters = q.parameters ↔
      (first :: others).map Literal.value = (first :: others).map c.literalValue := by
    constructor
    · intro eq
      rw [← values ((first :: others).map Literal.value), ← entries, eq, entries', values]
    · intro eq
      have all : p.parameters.entries = q.parameters.entries := by rw [entries, eq, entries']
      exact congrArg Table.mk all
  rw [same, List.map_inj_left]
  exact forall₂_congr fun _ _ => value_eq_literalValue_iff

theorem compile_inList_equalities_names :
    ∃ p q, shop.compile (.inList (.primary "Name") ["'a'", "'it''s'"]) = .ok p ∧
      shop.compile (Expr.equalities "Name" "'a'" ["'it''s'"]) = .ok q ∧
      p.parameters.entries = [("@p1", .string "a"), ("@p2", .string "it's")] ∧
      p.parameters = q.parameters := by
  have isPath : Literal.isLiteral "Name" = false := by decide +kernel
  have mapped : shop.columns.get? "Name" = some ⟨"Name", "name", "Edm.String", none⟩ := by
    decide +kernel
  have fit : ∀ value ∈ ["'a'", "'it''s'"], Literal.isLiteral value = true ∧
      Literal.fits (Column.kind ⟨"Name", "name", "Edm.String", none⟩) value = true := by
    decide +kernel
  have plain : ∀ value ∈ ["'a'", "'it''s'"], Literal.isSpatial value = false := by decide +kernel
  obtain ⟨p, q, compiled, compiled', entries, -, same⟩ := compile_inList_equalities isPath mapped fit
  refine ⟨p, q, compiled, compiled', entries, same.2 fun value member _ spatial => ?_⟩
  rw [plain value member] at spatial
  cases spatial

/-- A list binds a geometry as it is written, where an equality binds it as reprojection writes it. -/
theorem inList_keeps_written_geometry :
    ∃ p q, shop.compile (.inList (.primary "Place") ["'linestring empty'"]) = .ok p ∧
      shop.compile (Expr.equalities "Place" "'linestring empty'" []) = .ok q ∧
      p.parameters.entries = [("@p1", .string "linestring empty")] ∧
      q.parameters.entries = [("@p1", .string "LINESTRING EMPTY")] := by
  have moved : (Geodesy.reprojectText shop.options.sourceSrid Geodesy.storageSrid
      (Literal.unquote "'linestring empty'")).toOption = some "LINESTRING EMPTY" := by
    decide +kernel
  have value : shop.literalValue "'linestring empty'" = .string "LINESTRING EMPTY" := by
    have spatial : (Literal.isQuoted "'linestring empty'" &&
      Literal.isSpatial "'linestring empty'") = true := by decide +kernel
    rw [literalValue, if_pos spatial]
    cases ran : Geodesy.reprojectText shop.options.sourceSrid Geodesy.storageSrid
      (Literal.unquote "'linestring empty'") with
    | error err => simp [ran, Except.toOption] at moved
    | ok text => simpa [ran, Except.toOption] using moved
  have isPath : Literal.isLiteral "Place" = false := by decide +kernel
  have mapped : shop.columns.get? "Place" = some ⟨"Place", "place", "Edm.GeographyPoint", none⟩ := by
    decide +kernel
  have bound : ∀ value ∈ ["'linestring empty'"], Literal.IsBound value := by decide +kernel
  obtain ⟨o, ran⟩ := operand_equalities isPath mapped bound .empty
  obtain ⟨q, compiled, entries⟩ := compile_pushAll ran
  rw [List.map_singleton, value] at entries
  exact ⟨_, q, rfl, compiled, rfl, entries⟩

end Compiler

end FilterSql.Sql
