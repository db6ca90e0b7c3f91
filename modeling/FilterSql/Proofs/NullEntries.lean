import FilterSql.Proofs.DeclaredValues

/-!
# Null in lists

The values of a list are bound one by one, and `null` is no value. It is refused where the type of the
left side is declared, because it does not fit any type. Elsewhere nothing is checked: on the right of
a call, a literal or a grouped path `null` is bound as if it were the string of its letters.

## Main statements

* `Compiler.compile_null_entries`: a filter compiles exactly if no path of a declared type has `null` in
  its list and the filter with strings in place of the others does, and to the same condition.
-/

namespace FilterSql

open Text FilterSql.Filter Catalog Sql

/-! ## Strings in place of null -/

namespace Filter

/-- A null literal as a string of the same letters; any other text as it is. -/
def Literal.quoteNull (text : String) : String :=
  if isNull text then quote (trim text) else text

theorem Literal.quoteNull_of_not_isNull {text : String} (h : isNull text = false) :
    quoteNull text = text := by
  simp [quoteNull, h]

theorem Literal.isWord_of_isNull {text : String} (h : isNull text = true) : IsWord (trim text) := by
  have null : "null".toList = ['n', 'u', 'l', 'l'] := by decide
  have same := (sameName_iff.1 h).symm
  rw [null] at same
  have word : IsWordText 'n' ['u', 'l', 'l'] := ⟨by decide, List.all_eq_true.1 (by decide)⟩
  cases letters : (trim text).toList with
  | nil =>
    rw [letters] at same
    cases same
  | cons c run =>
    rw [letters] at same
    exact ⟨c, run, letters, isWordText_of_map_toLower same word⟩

/-- Nothing is read from `null` but its letters. -/
theorem Literal.value_of_isNull {text : String} (h : isNull text = true) :
    value text = .string (trim text) := by
  have word := isWord_of_isNull h
  have notBool : readBool? (trim text) = none := by
    have null : sameName (trim text) "null" = true := h
    have other : readBool? "null" = none := by decide
    simpa only [readBool?, sameName_congr null] using other
  have trimmed : value text = value (trim text) := by simp only [value, word.trim_eq]
  rw [trimmed, word.value_eq, notBool]
  rfl

@[simp] theorem Literal.value_quoteNull (text : String) : value (quoteNull text) = value text := by
  unfold quoteNull
  split
  · next null => rw [value_quote, value_of_isNull null]
  · rfl

@[simp] theorem Literal.isLiteral_quoteNull (text : String) :
    isLiteral (quoteNull text) = isLiteral text := by
  unfold quoteNull
  split
  · next null =>
    rw [isLiteral_of_isNull null, (isBound_of_isQuoted (isQuoted_quote _)).1]
  · rfl

namespace Expr

mutual

/-- The expression with strings in place of `null` in all of its lists. -/
def quoteNulls : Expr → Expr
  | .primary text => .primary text
  | .call name args raw => .call name (quoteNullsAll args) raw
  | .not e => .not e.quoteNulls
  | .group e => .group e.quoteNulls
  | .comparison op l r => .comparison op l.quoteNulls r.quoteNulls
  | .logical op l r => .logical op l.quoteNulls r.quoteNulls
  | .inList l values => .inList l.quoteNulls (values.map Literal.quoteNull)

def quoteNullsAll : List Expr → List Expr
  | [] => []
  | e :: es => e.quoteNulls :: quoteNullsAll es

end

theorem isLogical_quoteNulls (e : Expr) : e.quoteNulls.isLogical = e.isLogical := by
  cases e <;> rfl

theorem isCall_ungrouped_quoteNulls (e : Expr) :
    e.quoteNulls.ungrouped.isCall = e.ungrouped.isCall := by
  induction e with
  | group e ih => exact ih
  | primary | call | not | comparison | logical | inList => rfl

end Expr

end Filter

/-! ## Compiling both -/

namespace Sql.Compiler

variable {c : Compiler}

theorem quoted?_quoteNulls (e : Expr) : quoted? e.quoteNulls = quoted? e := by
  cases e <;> rfl

theorem declaredKind_quoteNulls (c : Compiler) (e : Expr) :
    c.declaredKind e.quoteNulls = c.declaredKind e := by
  cases e <;> rfl

/-- Where no kind is declared, both lists bind the same values. -/
theorem listValues_map_quoteNull (path path' : String) (values : List String) :
    listValues none path' (values.map Literal.quoteNull) = listValues none path values := by
  induction values with
  | nil => rfl
  | cons value values ih =>
    -- a value that is refused is no null literal, so the error names the same text
    have refused : Literal.isLiteral value = false → Literal.quoteNull value = value := by
      intro notLiteral
      refine Literal.quoteNull_of_not_isNull (Bool.eq_false_iff.2 fun null => ?_)
      rw [Literal.isLiteral_of_isNull null] at notLiteral
      cases notLiteral
    simp only [List.map_cons, listValues, Literal.isLiteral_quoteNull, Literal.value_quoteNull,
      Option.all_none, ih, Bool.not_true, Bool.false_eq_true, if_false]
    cases literal : Literal.isLiteral value with
    | true => simp only [Bool.not_true, Bool.false_eq_true, if_false]
    | false => simp only [refused literal]

/-- No path of a declared type has `null` in its list. -/
def NullsUndeclared (c : Compiler) (e : Expr) : Prop :=
  ∀ l values value, Expr.Subterm (.inList l values) e → value ∈ values →
    Literal.isNull value = true → c.declaredKind l = none

theorem NullsUndeclared.subterm {u e : Expr} (h : c.NullsUndeclared e) (sub : Expr.Subterm u e) :
    c.NullsUndeclared u :=
  fun l values value part => h l values value (part.trans sub)

theorem listValues_quoteNulls {l : Expr} {values : List String}
    (h : c.NullsUndeclared (.inList l values)) :
    listValues (c.declaredKind l.quoteNulls) l.quoteNulls.text (values.map Literal.quoteNull) =
      listValues (c.declaredKind l) l.text values := by
  rw [declaredKind_quoteNulls]
  cases declared : c.declaredKind l with
  | none => exact listValues_map_quoteNull l.text l.quoteNulls.text values
  | some kind =>
    have noNull : ∀ value ∈ values, Literal.quoteNull value = value := by
      intro value member
      refine Literal.quoteNull_of_not_isNull (Bool.eq_false_iff.2 fun null => ?_)
      rw [h l values value .self member null] at declared
      cases declared
    -- only a path is declared, and a path has no lists
    have path : l.quoteNulls = l := by
      cases l with
      | primary => rfl
      | call | not | group | comparison | logical | inList => cases declared
    rw [path, List.map_congr_left noNull, List.map_id']

theorem arguments_quoteNullsAll {f : SqlFunction} {args : List Expr}
    (h : ∀ arg ∈ args, c.operand false arg.quoteNulls = c.operand false arg) (index : Nat) :
    c.arguments f index (Expr.quoteNullsAll args) = c.arguments f index args := by
  induction args generalizing index with
  | nil => rfl
  | cons arg args ih =>
    obtain ⟨first, others⟩ := List.forall_mem_cons.1 h
    have same : c.argument f index arg.quoteNulls = c.argument f index arg := by
      simp only [argument, quoted?_quoteNulls, first]
    simp only [Expr.quoteNullsAll, arguments_cons, same, ih others]

/-- Unless a path is declared, `null` in its list is bound as a string. -/
theorem operand_quoteNulls {e : Expr} (h : c.NullsUndeclared e) (leading : Bool) :
    c.operand leading e.quoteNulls = c.operand leading e := by
  induction e generalizing leading with
  | primary => rfl
  | call name args raw ih =>
    have args : ∀ f, c.arguments f 0 (Expr.quoteNullsAll args) = c.arguments f 0 args := fun f =>
      arguments_quoteNullsAll
        (fun arg member => ih arg member (h.subterm (.argument member .self)) false) 0
    simp only [Expr.quoteNulls, operand, args]
  | not e ih => simp only [Expr.quoteNulls, operand, ih (h.subterm (.negated .self))]
  | group e ih =>
    simp only [Expr.quoteNulls, operand, Expr.isCall_ungrouped_quoteNulls,
      ih (h.subterm (.grouped .self))]
  | comparison op l r ihl ihr =>
    simp only [Expr.quoteNulls, operand, ihl (h.subterm (.compareLeft .self)),
      ihr (h.subterm (.compareRight .self))]
  | logical op l r ihl ihr =>
    simp only [Expr.quoteNulls, operand, connected, Expr.isLogical_quoteNulls,
      ihl (h.subterm (.connectLeft .self)), ihr (h.subterm (.connectRight .self))]
  | inList l values ih =>
    simp only [Expr.quoteNulls, operand, listValues_quoteNulls h, ih (h.subterm (.listed .self))]

/-- On a path of a declared type `null` is refused. -/
theorem nullsUndeclared_of_compile {e : Expr} {p : Predicate} (compiled : c.compile e = .ok p) :
    c.NullsUndeclared e := by
  intro l values value sub member null
  have ran := visit_of_compile compiled
  obtain ⟨leading, base, reaches⟩ := exists_reaches sub Bindings.inRange_empty ran
  obtain ⟨-, ⟨o, b⟩, ran⟩ := Reaches.ran reaches Bindings.inRange_empty ran
  obtain ⟨left, b₁, cs, -, listed, -⟩ := operand_inList_eq_ok ran
  have fits := (listValues_fit listed value member).2
  cases declared : c.declaredKind l with
  | none => rfl
  | some kind => simp [declared, Literal.fits, null] at fits

/-- A filter compiles to a condition exactly if no path of a declared type has `null` in its list, and
the filter with strings in place of all other null entries compiles to it. -/
theorem compile_null_entries (c : Compiler) (e : Expr) (p : Predicate) :
    c.compile e = .ok p ↔
      c.NullsUndeclared e ∧ c.compile e.quoteNulls = .ok p := by
  constructor
  · intro compiled
    have undeclared : c.NullsUndeclared e := nullsUndeclared_of_compile compiled
    refine ⟨undeclared, ?_⟩
    rwa [compile, operand_quoteNulls undeclared, ← compile]
  · rintro ⟨undeclared, compiled⟩
    rwa [compile, operand_quoteNulls undeclared, ← compile] at compiled

/-- The parentheses around a path hide its type, so the letters of `null` are searched for. -/
theorem grouped_path_listed_with_null :
    Literal.isNull "null" = true ∧
      shop.compile (.inList (.group (.primary "Name")) ["null"]) =
        .ok ⟨some "(name) IN (@p1)", ⟨[("@p1", .string "null")]⟩⟩ :=
  ⟨by decide, rfl⟩

end Sql.Compiler

end FilterSql
