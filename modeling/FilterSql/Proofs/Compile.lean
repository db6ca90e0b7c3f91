import FilterSql.Proofs.Expr
import FilterSql.Proofs.Table
import FilterSql.Sql.Compiler

/-!
# Steps of a compilation

A compilation is a chain of steps, each of which passes on the bindings or fails. This module has the
laws by which a chain is taken apart, one lemma for each step that says what the step can do, and the
invariant of the bindings: every parameter in the table has a number from one up to the count.

## Main statements

* `Compile.bind_eq_ok`, `Compile.bind_eq_error`: how a chain of two steps ends.
* `Compiler.operand_grows`: compiling keeps the invariant, and the parameters that an operand refers
  to are numbered too.
-/

namespace FilterSql.Sql

open FilterSql.Filter Catalog

/-! ## Chains of steps -/

namespace Compile

variable {α β : Type}

theorem bind_eq_ok {x : Compile α} {f : α → Compile β} {b : Bindings} {r : β × Bindings} :
    (x >>= f) b = .ok r ↔ ∃ a b', x b = .ok (a, b') ∧ f a b' = .ok r := by
  change (x b >>= fun p => f p.1 p.2) = .ok r ↔ _
  rcases x b with err | ⟨a, b'⟩ <;> simp [bind, Except.bind, and_assoc]

theorem bind_eq_error {x : Compile α} {f : α → Compile β} {b : Bindings} {err : CompileError} :
    (x >>= f) b = .error err ↔
      x b = .error err ∨ ∃ a b', x b = .ok (a, b') ∧ f a b' = .error err := by
  change (x b >>= fun p => f p.1 p.2) = .error err ↔ _
  rcases x b with err | ⟨a, b'⟩ <;> simp [bind, Except.bind, and_assoc]

theorem bind_pure_eq_error {x : Compile α} {g : α → β} {b : Bindings} {err : CompileError} :
    (x >>= fun a => pure (g a)) b = .error err ↔ x b = .error err := by
  change (x b >>= fun p => .ok (g p.1, p.2)) = .error err ↔ _
  rcases x b with err | ⟨a, b'⟩ <;> simp [bind, Except.bind]

@[simp] theorem pure_apply (a : α) (b : Bindings) : (pure a : Compile α) b = .ok (a, b) := rfl

@[simp] theorem throw_apply (err : CompileError) (b : Bindings) :
    (throw err : Compile α) b = .error err := rfl

@[simp] theorem liftM_apply (x : Except CompileError α) (b : Bindings) :
    (liftM x : Compile α) b = x.map (·, b) := by
  cases x <;> rfl

@[simp] theorem map_apply (g : α → β) (x : Compile α) (b : Bindings) :
    (g <$> x) b = (x b).map (Prod.map g id) := by
  change (x b >>= fun p => pure (g p.1, p.2)) = _
  rcases x b with err | ⟨a, b'⟩ <;> rfl

theorem liftM_eq_ok {x : Except CompileError α} {b b' : Bindings} {a : α} :
    (liftM x : Compile α) b = .ok (a, b') ↔ x = .ok a ∧ b = b' := by
  rw [liftM_apply]
  cases x <;> simp [Except.map]

theorem liftM_eq_error {x : Except CompileError α} {b : Bindings} {err : CompileError} :
    (liftM x : Compile α) b = .error err ↔ x = .error err := by
  rw [liftM_apply]
  cases x <;> simp [Except.map]

theorem map_eq_ok {g : α → β} {x : Compile α} {b b' : Bindings} {r : β} :
    (g <$> x) b = .ok (r, b') ↔ ∃ a, x b = .ok (a, b') ∧ g a = r := by
  rw [map_apply]
  rcases x b with err | ⟨a, b₁⟩
  · simp [Except.map]
  · constructor
    · intro h
      cases h
      exact ⟨a, rfl, rfl⟩
    · rintro ⟨a', h, rfl⟩
      cases h
      rfl

theorem map_eq_error {g : α → β} {x : Compile α} {b : Bindings} {err : CompileError} :
    (g <$> x) b = .error err ↔ x b = .error err := by
  rw [map_apply]
  rcases x b with err | r <;> simp [Except.map]

end Compile

/-! ## Numbered parameters -/

/-- Every parameter in the table has a number from one up to the count. -/
def Bindings.InRange (b : Bindings) : Prop := ∀ n ∈ b.table.keys, 0 < n ∧ n ≤ b.count

/-- A parameter that stands alone has a number from one up to the count. -/
def Fragment.InRange (count : Nat) : Fragment → Prop
  | .param n => 0 < n ∧ n ≤ count
  | .null | .clause _ => True

def Operand.InRange (count : Nat) (o : Operand) : Prop :=
  o.fragment.InRange count ∧ ∀ n ∈ o.unit, 0 < n ∧ n ≤ count

/-- What a step may do to the bindings as a whole. -/
structure Bindings.Grows (b b' : Bindings) : Prop where
  count_le : b.count ≤ b'.count
  inRange : b.InRange → b'.InRange

theorem Bindings.inRange_empty : Bindings.empty.InRange := by
  intro n member
  simp [empty] at member

theorem Bindings.Grows.refl (b : Bindings) : b.Grows b := ⟨Nat.le_refl _, id⟩

theorem Bindings.Grows.trans {b₁ b₂ b₃ : Bindings} (h : b₁.Grows b₂) (g : b₂.Grows b₃) :
    b₁.Grows b₃ :=
  ⟨Nat.le_trans h.count_le g.count_le, g.inRange ∘ h.inRange⟩

/-- A step that numbers nothing may only drop parameters from the table. -/
theorem Bindings.Grows.of_keys_subset {b b' : Bindings} (count : b'.count = b.count)
    (keys : b'.table.keys ⊆ b.table.keys) : b.Grows b' :=
  ⟨Nat.le_of_eq count.symm, fun h n member => count ▸ h n (keys member)⟩

theorem Fragment.InRange.mono {f : Fragment} {m n : Nat} (h : f.InRange m) (le : m ≤ n) :
    f.InRange n := by
  cases f with
  | param number => exact ⟨h.1, Nat.le_trans h.2 le⟩
  | null | clause => trivial

theorem Operand.InRange.mono {o : Operand} {m n : Nat} (h : o.InRange m) (le : m ≤ n) :
    o.InRange n :=
  ⟨h.1.mono le, fun u hu => ⟨(h.2 u hu).1, Nat.le_trans (h.2 u hu).2 le⟩⟩

/-! ## Binding literals -/

theorem bindValue_apply (value : Value) (b : Bindings) :
    bindValue value b =
      .ok (.param (b.count + 1), ⟨b.count + 1, b.table.insert (b.count + 1) value⟩) := rfl

theorem bindValue_grows (value : Value) (b : Bindings) :
    b.Grows ⟨b.count + 1, b.table.insert (b.count + 1) value⟩ := by
  refine ⟨Nat.le_succ _, fun h n member => ?_⟩
  have fresh : b.count + 1 ∉ b.table.keys := fun old => absurd (h _ old).2 (by omega)
  rw [Table.keys_insert_of_notMem fresh, List.mem_append, List.mem_singleton] at member
  rcases member with old | rfl
  · exact ⟨(h n old).1, Nat.le_succ_of_le (h n old).2⟩
  · exact ⟨Nat.succ_pos _, Nat.le_refl _⟩

namespace Compiler

/-- The value that a literal is bound to. -/
def literalValue (c : Compiler) (text : String) : Value :=
  if Literal.isQuoted text && Literal.isSpatial text then
    let written := Literal.unquote text
    match Geodesy.reprojectText c.options.sourceSrid Geodesy.storageSrid written with
    | .ok moved => .string moved
    | .error _ => .string written
  else Literal.value text

theorem literal_eq_bindValue_literalValue (c : Compiler) (text : String) :
    c.literal text = bindValue (c.literalValue text) := by
  unfold literal literalValue
  split
  · dsimp only
    cases Geodesy.reprojectText c.options.sourceSrid Geodesy.storageSrid (Literal.unquote text) with
    | ok moved => rfl
    | error _ => rfl
  · rfl

/-- A literal is bound to one value, which does not depend on what is bound already. -/
theorem literal_eq_bindValue (c : Compiler) (text : String) :
    ∃ value, c.literal text = bindValue value :=
  ⟨_, c.literal_eq_bindValue_literalValue text⟩

theorem argumentLiteral_eq_bindValue (c : Compiler) (f : SqlFunction) (index : Nat)
    (text : String) : ∃ value, c.argumentLiteral f index text = bindValue value := by
  unfold argumentLiteral
  split
  · exact ⟨_, rfl⟩
  · exact c.literal_eq_bindValue text

/-- A leaf is `null`, a literal, or a path, which is a column or unknown. -/
theorem primary_cases (c : Compiler) (text : String) :
    (Literal.isNull text = true ∧ c.primary text = pure .null) ∨
    (Literal.isNull text = false ∧ Literal.isLiteral text = true ∧
      ∃ value, c.primary text = bindValue value) ∨
    (Literal.isLiteral text = false ∧
      ∃ column, c.columns.get? text = some column ∧
        c.primary text = pure (.clause (.ofString column.filterSql))) ∨
    (Literal.isLiteral text = false ∧ c.columns.get? text = none ∧
      c.primary text = throw (.unknownProperty text)) := by
  unfold primary
  cases null : Literal.isNull text with
  | true => exact .inl ⟨rfl, rfl⟩
  | false =>
    cases lit : Literal.isLiteral text with
    | true => exact .inr (.inl ⟨rfl, rfl, by simpa using c.literal_eq_bindValue text⟩)
    | false =>
      cases found : c.columns.get? text with
      | some column => exact .inr (.inr (.inl ⟨rfl, column, rfl, by simp⟩))
      | none => exact .inr (.inr (.inr ⟨rfl, rfl, by simp⟩))

end Compiler

/-! ## Wildcards and thresholds

Both come after the fact: they overwrite or drop a parameter that is bound already, and number
nothing.
-/

theorem wildcard_param {b : Bindings} {n : Nat} {value : Value}
    (h : b.table.get? n = some value) (f : SqlFunction) :
    wildcard f (.param n) b =
      .ok (.param n,
        { b with table := b.table.insert n (.string (f.applyWildcard value.text)) }) := by
  simp only [wildcard, h]

theorem wildcard_unbound {b : Bindings} {pattern : Fragment}
    (h : ∀ n, pattern = .param n → b.table.get? n = none) (f : SqlFunction) :
    wildcard f pattern b = .ok (wildcard.concatenated f pattern, b) := by
  cases pattern with
  | param n => simp only [wildcard, h n rfl]
  | null | clause => rfl

theorem concatenated_eq_clause (f : SqlFunction) (pattern : Fragment) :
    ∃ c, wildcard.concatenated f pattern = .clause c := by
  unfold wildcard.concatenated
  rcases f.wildcardSide with _ | (_ | _ | _) <;> exact ⟨_, rfl⟩

theorem wildcard_eq_ok {f : SqlFunction} {pattern q : Fragment} {b b' : Bindings}
    (h : wildcard f pattern b = .ok (q, b')) :
    b'.count = b.count ∧ b'.table.keys = b.table.keys ∧ (q = pattern ∨ ∃ c, q = .clause c) := by
  by_cases bound : ∃ n value, pattern = .param n ∧ b.table.get? n = some value
  · obtain ⟨n, value, rfl, found⟩ := bound
    rw [wildcard_param found] at h
    cases h
    exact ⟨rfl, Table.keys_insert_of_mem (Table.mem_keys_of_get? found) _, .inl rfl⟩
  · rw [wildcard_unbound (fun n hn => ?_)] at h
    · cases h
      exact ⟨rfl, rfl, .inr (concatenated_eq_clause f pattern)⟩
    · exact Option.eq_none_iff_forall_ne_some.2 fun value found => bound ⟨n, value, hn, found⟩

theorem wildcardArguments_eq_ok {f : SqlFunction} {args args' : List Fragment} {b b' : Bindings}
    (h : wildcardArguments f args b = .ok (args', b')) :
    b'.count = b.count ∧ b'.table.keys = b.table.keys ∧ args'.length = args.length ∧
      ∀ a' ∈ args', a' ∈ args ∨ ∃ c, a' = .clause c := by
  unfold wildcardArguments at h
  split at h
  · next first second others =>
    split at h
    · obtain ⟨q, b₁, ran, h⟩ := Compile.bind_eq_ok.1 h
      cases h
      obtain ⟨count, keys, same⟩ := wildcard_eq_ok ran
      refine ⟨count, keys, rfl, ?_⟩
      rcases same with rfl | clause
      · exact fun a' member => .inl member
      · simp +contextual [clause]
    · cases h
      exact ⟨rfl, rfl, rfl, fun a' member => .inl member⟩
  · cases h
    exact ⟨rfl, rfl, rfl, fun a' member => .inl member⟩

/-- The fragment that a threshold becomes, where the unit is bound to the given value. -/
def convertedFragment (unit : Option Value) : Fragment → Fragment
  | .clause c =>
    if Text.sameName ((unit.map (·.text)).getD "") "m" then
      .clause (c ++ .ofString (" / " ++ toString metersPerDegree ++ ".0")).parenthesized
    else .clause c
  | f => f

theorem convertThreshold_eq_ok {unit : Nat} {threshold q : Fragment} {b b' : Bindings}
    (h : convertThreshold unit threshold b = .ok (q, b')) :
    b'.count = b.count ∧ b'.table.keys = b.table.keys.erase unit ∧
      q = convertedFragment (b.table.get? unit) threshold := by
  unfold convertThreshold at h
  dsimp only at h
  split at h
  · next other =>
    cases h
    refine ⟨rfl, Table.keys_erase _ _, ?_⟩
    cases threshold with
    | clause c => exact (if_neg (by simpa using other)).symm
    | null | param => rfl
  · next meters =>
    split at h
    · cases h
      exact ⟨rfl, Table.keys_erase _ _, rfl⟩
    · split at h
      · next found =>
        cases h
        obtain ⟨value, bound, -⟩ := Option.bind_eq_some_iff.1 found
        refine ⟨rfl, ?_, rfl⟩
        exact (Table.keys_insert_of_mem (Table.mem_keys_of_get? bound) _).trans
          (Table.keys_erase _ _)
      · cases h
        exact ⟨rfl, Table.keys_erase _ _, rfl⟩
    · cases h
      exact ⟨rfl, Table.keys_erase _ _, (if_pos (by simpa using meters)).symm⟩

/-! ## Calls, lists and comparisons -/

namespace Compiler

/-- Arguments are recovered from the text of a call only where the call has none. -/
theorem recoverArguments_of_ne_nil (c : Compiler) (f : SqlFunction) (raw : String)
    {args : List Fragment} (h : args ≠ []) : c.recoverArguments f raw args = pure args := by
  cases args with
  | nil => exact absurd rfl h
  | cons => rfl

theorem recoverArguments_nil (c : Compiler) (f : SqlFunction) (raw : String) :
    c.recoverArguments f raw [] = pure [] ∨
      ∃ value, c.recoverArguments f raw [] = (do return [← bindValue value]) := by
  unfold recoverArguments
  split
  · split
    · next text _ =>
      obtain ⟨value, bound⟩ := c.argumentLiteral_eq_bindValue f 0 text
      exact .inr ⟨value, by rw [bound]⟩
    · exact .inl rfl
  · exact .inl rfl

theorem finishCall_eq_ok {c : Compiler} {f : SqlFunction} {name raw : String}
    {args : List Fragment} {b b' : Bindings} {o : Operand} :
    c.finishCall f name raw args b = .ok (o, b') ↔
      ∃ args₁ b₁ args₂, c.recoverArguments f raw args b = .ok (args₁, b₁) ∧
        args₁.length = f.arity ∧ wildcardArguments f args₁ b₁ = .ok (args₂, b') ∧
        o = ⟨.clause (callClause f args₂), unitOf f args₂⟩ := by
  simp only [finishCall, Compile.bind_eq_ok]
  constructor
  · rintro ⟨args₁, b₁, recovered, h⟩
    split at h
    · obtain ⟨_, _, thrown, -⟩ := Compile.bind_eq_ok.1 h
      cases thrown
    · next arity =>
      obtain ⟨args₂, b₂, ran, h⟩ := Compile.bind_eq_ok.1 h
      cases h
      exact ⟨args₁, b₁, args₂, recovered, not_not.1 arity, ran, rfl⟩
  · rintro ⟨args₁, b₁, args₂, recovered, arity, ran, rfl⟩
    refine ⟨args₁, b₁, recovered, ?_⟩
    rw [if_neg (not_not.2 arity)]
    exact Compile.bind_eq_ok.2 ⟨args₂, b', ran, rfl⟩

theorem unitOf_eq_some {f : SqlFunction} {args : List Fragment} {n : Nat} :
    unitOf f args = some n ↔
      f.isDistance = true ∧ ∃ first others, args = first :: .param n :: others := by
  constructor
  · intro h
    unfold unitOf at h
    split at h
    · obtain ⟨distance, rfl⟩ : f.isDistance = true ∧ _ = n := by simpa using h
      exact ⟨distance, _, _, rfl⟩
    · cases h
  · rintro ⟨distance, first, others, rfl⟩
    simp [unitOf, distance]

theorem listValues_cons_eq_ok {declared : Option Edm.Kind} {path value : String}
    {rest : List String} {b b' : Bindings} {cs : List Clause} :
    listValues declared path (value :: rest) b = .ok (cs, b') ↔
      Literal.isLiteral value = true ∧ declared.all (Literal.fits · value) = true ∧
      ∃ ds, listValues declared path rest
          ⟨b.count + 1, b.table.insert (b.count + 1) (Literal.value value)⟩ = .ok (ds, b') ∧
        cs = [.param (b.count + 1)] :: ds := by
  cases lit : Literal.isLiteral value with
  | false => simp [listValues, lit, Compile.bind_eq_ok]
  | true =>
    cases fits : declared.all (Literal.fits · value) with
    | false => simp [listValues, lit, fits, Compile.bind_eq_ok]
    | true =>
      simp only [listValues, lit, fits, Bool.not_true, Bool.false_eq_true, if_false,
        Compile.bind_eq_ok, bindValue_apply, Compile.pure_apply]
      constructor
      · rintro ⟨_, _, bound, ds, _, ran, h⟩
        cases bound
        cases h
        exact ⟨trivial, trivial, ds, ran, rfl⟩
      · rintro ⟨-, -, ds, ran, rfl⟩
        exact ⟨_, _, rfl, ds, b', ran, rfl⟩

/-- The right side of a comparison: a threshold, if the left side is a distance in some unit. -/
def threshold (unit : Option Nat) (right : Fragment) : Compile Fragment :=
  match unit with
  | some unit => convertThreshold unit right
  | none => pure right

/-- The end of a comparison, once both operands are compiled. -/
def compareOperands (op : String) (left right : Operand) : Compile Operand := do
  let right ← threshold left.unit right.fragment
  let clause ← compareFragments op left.fragment right
  return ⟨.clause clause, none⟩

theorem operand_comparison (c : Compiler) (leading : Bool) (op : String) (l r : Expr) :
    c.operand leading (.comparison op l r) = (do
      let left ← c.operand true l
      let right ← c.operand false r
      compareOperands op left right) := by
  simp only [operand, compareOperands]
  congr 1
  funext left
  congr 1
  funext right
  cases left.unit <;> rfl

/-- An argument of a call: a quoted literal fits the declared family, all else is an operand. -/
def argument (c : Compiler) (f : SqlFunction) (index : Nat) (e : Expr) : Compile Fragment :=
  match quoted? e with
  | some text => c.argumentLiteral f index text
  | none => (·.fragment) <$> c.operand false e

theorem arguments_cons (c : Compiler) (f : SqlFunction) (index : Nat) (e : Expr) (es : List Expr) :
    c.arguments f index (e :: es) = (do
      let first ← c.argument f index e
      let others ← c.arguments f (index + 1) es
      return first :: others) := by
  simp only [arguments, argument]
  cases quoted? e <;> rfl

theorem arguments_length {c : Compiler} {f : SqlFunction} {index : Nat} {es : List Expr}
    {b b' : Bindings} {qs : List Fragment} (h : c.arguments f index es b = .ok (qs, b')) :
    qs.length = es.length := by
  induction es generalizing index b qs with
  | nil =>
    simp only [arguments, Compile.pure_apply] at h
    cases h
    rfl
  | cons e es ih =>
    simp only [arguments_cons, Compile.bind_eq_ok, Compile.pure_apply] at h
    obtain ⟨q, b₁, -, others, b₂, ran, h⟩ := h
    cases h
    rw [List.length_cons, ih ran, List.length_cons]

theorem operand_call_eq_ok {c : Compiler} {leading : Bool} {name raw : String}
    {args : List Expr} {b b' : Bindings} {o : Operand}
    (h : c.operand leading (.call name args raw) b = .ok (o, b')) :
    ∃ f qs b₁, c.catalog.get? name = some f ∧ c.arguments f 0 args b = .ok (qs, b₁) ∧
      c.finishCall f name raw qs b₁ = .ok (o, b') := by
  simp only [operand] at h
  cases found : c.catalog.get? name with
  | none =>
    rw [found] at h
    cases h
  | some f =>
    rw [found] at h
    obtain ⟨qs, b₁, ran, finished⟩ := Compile.bind_eq_ok.1 h
    exact ⟨f, qs, b₁, rfl, ran, finished⟩

/-- Only a literal compiles to a parameter that stands alone. -/
theorem operand_eq_param {c : Compiler} {e : Expr} {b b' : Bindings} {o : Operand} {n : Nat}
    (h : c.operand false e b = .ok (o, b')) (param : o.fragment = .param n) :
    ∃ text value, e = .primary text ∧ c.primary text = bindValue value := by
  cases e with
  | primary text =>
    simp only [operand, Compile.bind_eq_ok] at h
    obtain ⟨q, b₁, leaf, h⟩ := h
    cases h
    cases param
    rcases c.primary_cases text with ⟨-, eq⟩ | ⟨-, -, value, eq⟩ | ⟨-, column, -, eq⟩ | ⟨-, -, eq⟩
    · rw [eq] at leaf
      cases leaf
    · exact ⟨text, value, rfl, eq⟩
    all_goals
      rw [eq] at leaf
      cases leaf
  | call name args raw =>
    cases found : c.catalog.get? name with
    | none =>
      simp only [operand, found] at h
      cases h
    | some f =>
      simp only [operand, found, Compile.bind_eq_ok, finishCall_eq_ok] at h
      obtain ⟨qs, b₁, -, args₁, b₂, args₂, -, -, -, rfl⟩ := h
      cases param
  | comparison op l r =>
    simp only [operand_comparison, compareOperands, Compile.bind_eq_ok] at h
    obtain ⟨_, _, -, _, _, -, _, _, -, _, _, -, h⟩ := h
    cases h
    cases param
  | not e | group e =>
    simp only [operand, Bool.false_and, Bool.false_eq_true, if_false, Compile.bind_eq_ok] at h
    obtain ⟨_, _, -, h⟩ := h
    cases h
    cases param
  | logical op l r | inList l values =>
    simp only [operand, Compile.bind_eq_ok] at h
    obtain ⟨_, _, -, _, _, -, h⟩ := h
    cases h
    cases param

/-! ## The invariant along a compilation -/

theorem primary_grows {c : Compiler} {text : String} {b b' : Bindings} {q : Fragment}
    (h : c.primary text b = .ok (q, b')) : b.Grows b' ∧ q.InRange b'.count := by
  rcases c.primary_cases text with ⟨-, eq⟩ | ⟨-, -, value, eq⟩ | ⟨-, column, -, eq⟩ | ⟨-, -, eq⟩
  all_goals rw [eq] at h; cases h
  · exact ⟨.refl b, trivial⟩
  · exact ⟨bindValue_grows value b, Nat.succ_pos _, Nat.le_refl _⟩
  · exact ⟨.refl b, trivial⟩

theorem argument_grows {c : Compiler} {f : SqlFunction} {index : Nat} {e : Expr} {b b' : Bindings}
    {q : Fragment}
    (ih : ∀ o, c.operand false e b = .ok (o, b') → b.Grows b' ∧ o.InRange b'.count)
    (h : c.argument f index e b = .ok (q, b')) : b.Grows b' ∧ q.InRange b'.count := by
  cases quoted : quoted? e with
  | some text =>
    obtain ⟨value, eq⟩ := c.argumentLiteral_eq_bindValue f index text
    simp only [argument, quoted, eq] at h
    cases h
    exact ⟨bindValue_grows value b, Nat.succ_pos _, Nat.le_refl _⟩
  | none =>
    simp only [argument, quoted, Compile.map_eq_ok] at h
    obtain ⟨o, ran, rfl⟩ := h
    exact ⟨(ih o ran).1, (ih o ran).2.1⟩

theorem arguments_grows {c : Compiler} {f : SqlFunction} {es : List Expr} {index : Nat}
    {b b' : Bindings} {qs : List Fragment}
    (ih : ∀ e ∈ es, ∀ b b' o, c.operand false e b = .ok (o, b') →
      b.Grows b' ∧ o.InRange b'.count)
    (h : c.arguments f index es b = .ok (qs, b')) :
    b.Grows b' ∧ ∀ q ∈ qs, q.InRange b'.count := by
  induction es generalizing index b qs with
  | nil =>
    simp only [arguments, Compile.pure_apply] at h
    cases h
    exact ⟨.refl _, by simp⟩
  | cons e es more =>
    simp only [arguments_cons, Compile.bind_eq_ok] at h
    obtain ⟨q, b₁, first, rs, b₂, others, h⟩ := h
    cases h
    obtain ⟨grows₁, inRange⟩ := argument_grows (ih e (by simp) b b₁) first
    obtain ⟨grows₂, inRanges⟩ := more (fun e' he' => ih e' (by simp [he'])) others
    refine ⟨grows₁.trans grows₂, ?_⟩
    simpa using ⟨inRange.mono grows₂.count_le, inRanges⟩

theorem recoverArguments_grows {c : Compiler} {f : SqlFunction} {raw : String}
    {args args' : List Fragment} {b b' : Bindings}
    (h : c.recoverArguments f raw args b = .ok (args', b'))
    (inRange : ∀ a ∈ args, a.InRange b.count) : b.Grows b' ∧ ∀ a ∈ args', a.InRange b'.count := by
  by_cases nil : args = []
  · subst nil
    rcases c.recoverArguments_nil f raw with eq | ⟨value, eq⟩
    · rw [eq] at h
      cases h
      exact ⟨.refl b, inRange⟩
    · rw [eq, Compile.bind_eq_ok] at h
      obtain ⟨q, b₁, bound, h⟩ := h
      cases bound
      cases h
      refine ⟨bindValue_grows value b, ?_⟩
      simpa using ⟨Nat.succ_pos _, Nat.le_refl _⟩
  · rw [recoverArguments_of_ne_nil c f raw nil] at h
    cases h
    exact ⟨.refl b, inRange⟩

theorem finishCall_grows {c : Compiler} {f : SqlFunction} {name raw : String}
    {args : List Fragment} {b b' : Bindings} {o : Operand}
    (h : c.finishCall f name raw args b = .ok (o, b'))
    (inRange : ∀ a ∈ args, a.InRange b.count) : b.Grows b' ∧ o.InRange b'.count := by
  obtain ⟨args₁, b₁, args₂, recovered, -, ran, rfl⟩ := finishCall_eq_ok.1 h
  obtain ⟨grows, inRange₁⟩ := recoverArguments_grows recovered inRange
  obtain ⟨count, keys, -, same⟩ := wildcardArguments_eq_ok ran
  refine ⟨grows.trans (.of_keys_subset count (keys ▸ List.Subset.refl _)), trivial, fun n unit => ?_⟩
  obtain ⟨-, first, others, eq⟩ := unitOf_eq_some.1 unit
  rcases same (.param n) (by simp [eq]) with member | ⟨c, clause⟩
  · exact count ▸ inRange₁ _ member
  · cases clause

theorem compareOperands_grows {op : String} {left right o : Operand} {b b' : Bindings}
    (h : compareOperands op left right b = .ok (o, b')) : b.Grows b' ∧ o.InRange b'.count := by
  simp only [compareOperands, Compile.bind_eq_ok, Compile.liftM_eq_ok] at h
  obtain ⟨q, b₁, converted, clause, b₂, ⟨-, rfl⟩, h⟩ := h
  cases h
  refine ⟨?_, trivial, by simp⟩
  cases unit : left.unit with
  | none =>
    rw [unit] at converted
    cases converted
    exact .refl b
  | some u =>
    rw [unit] at converted
    obtain ⟨count, keys, -⟩ := convertThreshold_eq_ok converted
    exact .of_keys_subset count (keys ▸ List.erase_subset)

theorem listValues_grows {declared : Option Edm.Kind} {path : String} {values : List String}
    {b b' : Bindings} {cs : List Clause}
    (h : listValues declared path values b = .ok (cs, b')) : b.Grows b' := by
  induction values generalizing b cs with
  | nil =>
    cases h
    exact .refl _
  | cons value rest ih =>
    obtain ⟨-, -, ds, ran, -⟩ := listValues_cons_eq_ok.1 h
    exact (bindValue_grows (Literal.value value) b).trans (ih ran)

/-- Compiling keeps the invariant of the bindings, and the operand refers to numbered parameters. -/
theorem operand_grows {c : Compiler} {e : Expr} {leading : Bool} {b b' : Bindings} {o : Operand}
    (h : c.operand leading e b = .ok (o, b')) : b.Grows b' ∧ o.InRange b'.count := by
  induction e generalizing leading b b' o with
  | primary text =>
    simp only [operand, Compile.bind_eq_ok] at h
    obtain ⟨q, b₁, ran, h⟩ := h
    cases h
    exact ⟨(primary_grows ran).1, (primary_grows ran).2, by simp⟩
  | call name args raw ih =>
    cases found : c.catalog.get? name with
    | none =>
      simp only [operand, found] at h
      cases h
    | some f =>
      simp only [operand, found, Compile.bind_eq_ok] at h
      obtain ⟨qs, b₁, compiled, finished⟩ := h
      obtain ⟨grows₁, inRange⟩ := arguments_grows (fun e he _ _ _ => ih e he) compiled
      obtain ⟨grows₂, inRange₂⟩ := finishCall_grows finished inRange
      exact ⟨grows₁.trans grows₂, inRange₂⟩
  | not e ih =>
    simp only [operand, Compile.bind_eq_ok] at h
    obtain ⟨inner, b₁, ran, h⟩ := h
    cases h
    exact ⟨(ih ran).1, trivial, by simp⟩
  | group e ih =>
    simp only [operand] at h
    split at h
    · exact ih h
    · obtain ⟨inner, b₁, ran, h⟩ := Compile.bind_eq_ok.1 h
      cases h
      exact ⟨(ih ran).1, trivial, by simp⟩
  | comparison op l r ihl ihr =>
    simp only [operand_comparison, Compile.bind_eq_ok] at h
    obtain ⟨left, b₁, ranl, right, b₂, ranr, compared⟩ := h
    obtain ⟨grows, inRange⟩ := compareOperands_grows compared
    exact ⟨((ihl ranl).1.trans (ihr ranr).1).trans grows, inRange⟩
  | logical op l r ihl ihr =>
    simp only [operand, Compile.bind_eq_ok] at h
    obtain ⟨left, b₁, ranl, right, b₂, ranr, h⟩ := h
    cases h
    exact ⟨(ihl ranl).1.trans (ihr ranr).1, trivial, by simp⟩
  | inList l values ih =>
    simp only [operand, Compile.bind_eq_ok] at h
    obtain ⟨left, b₁, ran, cs, b₂, listed, h⟩ := h
    cases h
    exact ⟨(ih ran).1.trans (listValues_grows listed), trivial, by simp⟩

theorem compile_eq_ok {c : Compiler} {e : Expr} {p : Predicate} :
    c.compile e = .ok p ↔ ∃ o b, c.operand false e .empty = .ok (o, b) ∧
      p = ⟨some (o.fragment.toClause.render c.options.sigil),
        b.table.mapKeys (parameterName c.options.sigil)⟩ := by
  rcases ran : c.operand false e .empty with err | ⟨o, b⟩
  · simp [compile, StateT.run, bind, Except.bind, ran]
  · have eq : c.compile e = .ok ⟨some (o.fragment.toClause.render c.options.sigil),
        b.table.mapKeys (parameterName c.options.sigil)⟩ := by
      simp [compile, StateT.run, bind, Except.bind, pure, Except.pure, ran]
    constructor
    · intro h
      rw [eq] at h
      cases h
      exact ⟨o, b, rfl, rfl⟩
    · rintro ⟨o', b', h, rfl⟩
      cases h
      exact eq

theorem compile_eq_error {c : Compiler} {e : Expr} {err : CompileError}
    (h : c.operand false e .empty = .error err) : c.compile e = .error err := by
  simp [compile, StateT.run, bind, Except.bind, h]

/-- Products with a name, a price and a place, to try compilations on. -/
def shop : Compiler where
  columns := ⟨[⟨"Name", "name", "Edm.String", none⟩, ⟨"Price", "price", "Edm.Double", none⟩,
    ⟨"Place", "place", "Edm.GeographyPoint", none⟩]⟩
  catalog := ⟨[⟨"startswith", "\x7b0\x7d LIKE \x7b1\x7d", ["Edm.String", "Edm.String"],
      "Edm.Boolean", some .right, none⟩,
    ⟨"distance", "ST_Distance(\x7b0\x7d, origin)", ["Edm.Geography", "Edm.String"], "Edm.Double",
      none, none⟩]⟩
  options := {}

end Compiler

end FilterSql.Sql
