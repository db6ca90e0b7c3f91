import FilterSql.Proofs.Compile

/-!
# Compilation is compositional

An expression that is compiled after others is compiled as if it stood alone: the parameters bound
before it stay as they are, and its own come after them, with their numbers moved up by the count.

## Main definitions

* `Clause.renumber`, `Fragment.renumber`, `Operand.renumber`: numbers moved up.
* `base ++ b`: the bindings `b`, numbered from one, put after `base`.
* `Compile.Follows`: a step does after `base` what it does alone.
-/

namespace FilterSql.Sql

open FilterSql.Filter Catalog

/-! ## Renumbering -/

def Symbol.renumber (base : Nat) : Symbol → Symbol
  | .char c => .char c
  | .param n => .param (base + n)

def Clause.renumber (base : Nat) (c : Clause) : Clause := c.map (·.renumber base)

def Fragment.renumber (base : Nat) : Fragment → Fragment
  | .null => .null
  | .param n => .param (base + n)
  | .clause c => .clause (c.renumber base)

def Operand.renumber (base : Nat) (o : Operand) : Operand :=
  ⟨o.fragment.renumber base, o.unit.map (base + ·)⟩

section Renumbering

variable (base : Nat)

@[simp] theorem Clause.renumber_append (c d : Clause) :
    Clause.renumber base (c ++ d) = c.renumber base ++ d.renumber base :=
  List.map_append

@[simp] theorem Clause.renumber_ofString (s : String) :
    (Clause.ofString s).renumber base = .ofString s := by
  simp [renumber, ofString, Symbol.renumber]

@[simp] theorem Clause.renumber_parenthesized (c : Clause) :
    c.parenthesized.renumber base = (c.renumber base).parenthesized := by
  simp [parenthesized]

theorem Clause.renumber_intercalate (s : String) (cs : List Clause) :
    Clause.renumber base (List.intercalate (Clause.ofString s) cs) =
      List.intercalate (Clause.ofString s) (cs.map (Clause.renumber base)) := by
  induction cs with
  | nil => rfl
  | cons c cs ih =>
    cases cs with
    | nil => simp [List.intercalate]
    | cons d ds => simpa [List.intercalate_cons_cons] using ih

@[simp] theorem Fragment.renumber_clause (c : Clause) :
    (Fragment.clause c).renumber base = .clause (c.renumber base) := rfl

@[simp] theorem Operand.fragment_renumber (o : Operand) :
    (o.renumber base).fragment = o.fragment.renumber base := rfl

@[simp] theorem Operand.renumber_clause (c : Clause) :
    Operand.renumber base ⟨.clause c, none⟩ = ⟨.clause (c.renumber base), none⟩ := rfl

@[simp] theorem Fragment.toClause_renumber (f : Fragment) :
    (f.renumber base).toClause = f.toClause.renumber base := by
  cases f with
  | null => simp [renumber, toClause]
  | param n => rfl
  | clause c => rfl

theorem Template.fillFrom_renumber (args : List Clause) (skip : Nat) (cs : List Char) :
    Template.fillFrom (args.map (Clause.renumber base)) skip cs =
      (Template.fillFrom args skip cs).renumber base := by
  fun_induction Template.fillFrom args skip cs with
  | case1 => simp [Template.fillFrom, Clause.renumber]
  | case2 skip _ cs ih => simpa [Template.fillFrom] using ih
  | case3 cs none ih =>
    simp [Template.fillFrom, none, ih, Clause.renumber, Symbol.renumber]
  | case4 cs index width slot arg found ih => simp [Template.fillFrom, slot, found, ih]
  | case5 cs index width slot missing ih =>
    simp [Template.fillFrom, slot, missing, ih, Clause.renumber, Symbol.renumber]
  | case6 c cs brace ih =>
    simp [Template.fillFrom, brace, ih, Clause.renumber, Symbol.renumber]

theorem Compiler.callClause_renumber (f : SqlFunction) (args : List Fragment) :
    callClause f (args.map (Fragment.renumber base)) = (callClause f args).renumber base := by
  have clauses : (args.map (Fragment.renumber base)).map (·.toClause) =
      (args.map (·.toClause)).map (Clause.renumber base) := by
    simp [Function.comp_def]
  unfold callClause Template.fill
  dsimp only
  rw [clauses, Template.fillFrom_renumber]
  split
  · simp only [Clause.renumber_parenthesized, Clause.renumber_append, Clause.renumber_ofString]
  · rfl

theorem Compiler.unitOf_renumber (f : SqlFunction) (args : List Fragment) :
    unitOf f (args.map (Fragment.renumber base)) = (unitOf f args).map (base + ·) := by
  match args with
  | [] | [_] => rfl
  | _ :: .null :: _ | _ :: .clause _ :: _ => rfl
  | _ :: .param n :: _ =>
    simp only [List.map_cons, Fragment.renumber, unitOf]
    split <;> rfl

theorem Compiler.connected_renumber (e : Expr) (f : Fragment) :
    connected e (f.renumber base) = (connected e f).renumber base := by
  unfold connected
  split <;> simp

theorem concatenated_renumber (f : SqlFunction) (pattern : Fragment) :
    wildcard.concatenated f (pattern.renumber base) =
      (wildcard.concatenated f pattern).renumber base := by
  unfold wildcard.concatenated
  rcases f.wildcardSide with _ | (_ | _ | _) <;> simp

theorem nullTest_renumber (op : ComparisonOperator) (token : String) (f : Fragment) :
    nullTest op token (f.renumber base) = (nullTest op token f).map (Clause.renumber base) := by
  cases op <;> simp [nullTest, Except.map]

theorem compareFragments_renumber (token : String) (left right : Fragment) :
    compareFragments token (left.renumber base) (right.renumber base) =
      (compareFragments token left right).map (Clause.renumber base) := by
  unfold compareFragments
  cases ComparisonOperator.ofToken? token with
  | none => rfl
  | some op =>
    match left, right with
    | .null, .null | .param _, .null | .clause _, .null => exact nullTest_renumber base op token _
    | .null, .param _ | .null, .clause _ => exact nullTest_renumber base op token _
    | .param _, .param _ | .param _, .clause _ | .clause _, .param _ | .clause _, .clause _ =>
      simp [Fragment.renumber, Fragment.toClause, Except.map, Clause.renumber, Clause.ofString,
        Symbol.renumber]

end Renumbering

/-! ## Bindings after others -/

namespace Bindings

/-- The bindings `b`, numbered from one, after those of `base`. -/
instance : Append Bindings :=
  ⟨fun base b => ⟨base.count + b.count, base.table ++ b.table.mapKeys (base.count + ·)⟩⟩

@[simp] theorem count_append (base b : Bindings) : (base ++ b).count = base.count + b.count := rfl

@[simp] theorem table_append (base b : Bindings) :
    (base ++ b).table = base.table ++ b.table.mapKeys (base.count + ·) := rfl

theorem append_empty (base : Bindings) : base ++ empty = base := by
  obtain ⟨count, ⟨entries⟩⟩ := base
  change Bindings.mk (count + 0) ⟨entries ++ []⟩ = _
  rw [List.append_nil, Nat.add_zero]

/-- No parameter in the table has a number above the count. -/
def Bounded (b : Bindings) : Prop := ∀ n ∈ b.table.keys, n ≤ b.count

theorem InRange.bounded {b : Bindings} (h : b.InRange) : b.Bounded := fun n member => (h n member).2

theorem add_injective (base : Nat) : Function.Injective (base + ·) := fun _ _ => Nat.add_left_cancel

variable {base : Bindings} {n : Nat}

theorem Bounded.notMem (bounded : base.Bounded) (pos : 0 < n) :
    base.count + n ∉ base.table.keys :=
  fun member => absurd (bounded _ member) (by omega)

theorem get?_append (bounded : base.Bounded) (pos : 0 < n) (b : Bindings) :
    (base ++ b).table.get? (base.count + n) = b.table.get? n := by
  rw [table_append, Table.get?_append_of_notMem (bounded.notMem pos),
    Table.get?_mapKeys (add_injective base.count)]

theorem insert_append (bounded : base.Bounded) (pos : 0 < n) (b : Bindings) (value : Value) :
    (base ++ b).table.insert (base.count + n) value =
      base.table ++ (b.table.insert n value).mapKeys (base.count + ·) := by
  rw [table_append, Table.insert_append_of_notMem (bounded.notMem pos),
    Table.insert_mapKeys (add_injective base.count)]

theorem get?_append_of_le {b : Bindings} (inRange : b.InRange) (le : n ≤ base.count) :
    (base ++ b).table.get? n = base.table.get? n := by
  by_cases old : n ∈ base.table.keys
  · exact Table.get?_append_of_mem old _
  · rw [table_append, Table.get?_append_of_notMem old, Table.get?_eq_none old]
    refine Table.get?_eq_none fun member => ?_
    rw [Table.keys_mapKeys, List.mem_map] at member
    obtain ⟨i, fresh, rfl⟩ := member
    exact absurd (inRange i fresh).1 (by omega)

theorem erase_append (bounded : base.Bounded) (pos : 0 < n) (b : Bindings) :
    (base ++ b).table.erase (base.count + n) =
      base.table ++ (b.table.erase n).mapKeys (base.count + ·) := by
  rw [table_append, Table.erase_append_of_notMem (bounded.notMem pos),
    Table.erase_mapKeys (add_injective base.count)]

end Bindings

/-! ## Steps after others -/

/-- After `base`, the step `x'` does what `x` does alone, with its result changed by `r`. Both fail
with the same error, or both succeed. -/
def Compile.Follows {α : Type} (base b : Bindings) (r : α → α) (x x' : Compile α) : Prop :=
  x' (base ++ b) = (x b).map (Prod.map r (base ++ ·))

namespace Compile.Follows

variable {α β : Type} {base b : Bindings} {r : α → α} {s : β → β}

theorem pure {a a' : α} (h : a' = r a) : Follows base b r (pure a) (pure a') :=
  h ▸ rfl

theorem throw (err : CompileError) : Follows base b r (throw err) (throw err) := rfl

theorem bind {x x' : Compile α} {f f' : α → Compile β} (hx : Follows base b r x x')
    (hf : ∀ a b', x b = .ok (a, b') → Follows base b' s (f a) (f' (r a))) :
    Follows base b s (x >>= f) (x' >>= f') := by
  change (x' (base ++ b) >>= fun p => f' p.1 p.2) = (x b >>= fun p => f p.1 p.2).map _
  rw [hx]
  rcases ran : x b with err | ⟨a, b'⟩
  · rfl
  · exact hf a b' ran

theorem lift {y y' : Except CompileError α} (h : y' = y.map r) :
    Follows base b r (liftM y) (liftM y') := by
  unfold Follows
  rw [liftM_apply, liftM_apply, h]
  cases y <;> rfl

theorem map {g : α → β} {x x' : Compile α} (hx : Follows base b r x x')
    (hg : ∀ a, g (r a) = s (g a)) : Follows base b s (g <$> x) (g <$> x') := by
  unfold Follows at hx ⊢
  rw [map_apply, map_apply, hx]
  rcases x b with err | ⟨a, b'⟩
  · rfl
  · simp [Except.map, hg]

theorem eq_error {x x' : Compile α} (h : Follows base .empty r x x') {err : CompileError} :
    x' base = .error err ↔ x .empty = .error err := by
  rw [Follows, Bindings.append_empty] at h
  rw [h]
  rcases x .empty with err₀ | ⟨a₀, b₀⟩ <;> simp [Except.map]

theorem eq_ok {x x' : Compile α} (h : Follows base .empty r x x') {a : α} {b : Bindings}
    (ran : x' base = .ok (a, b)) :
    ∃ a₀ b₀, x .empty = .ok (a₀, b₀) ∧ a = r a₀ ∧ b = base ++ b₀ := by
  rw [Follows, Bindings.append_empty] at h
  rw [h] at ran
  rcases alone : x .empty with err₀ | ⟨a₀, b₀⟩
  all_goals rw [alone] at ran; cases ran
  exact ⟨a₀, b₀, rfl, rfl, rfl⟩

end Compile.Follows

section Steps

open Compile

variable {base b : Bindings}

theorem bindValue_follows (bounded : base.Bounded) (value : Value) :
    Follows base b (Fragment.renumber base.count) (bindValue value) (bindValue value) := by
  have inserted := Bindings.insert_append bounded (Nat.succ_pos b.count) b value
  unfold Follows
  simp only [bindValue_apply, Bindings.count_append, Nat.add_assoc, inserted]
  rfl

theorem wildcard_follows (bounded : base.Bounded) (f : SqlFunction) {pattern : Fragment} {m : Nat}
    (inRange : pattern.InRange m) :
    Follows base b (Fragment.renumber base.count) (wildcard f pattern)
      (wildcard f (pattern.renumber base.count)) := by
  unfold Follows
  by_cases bound : ∃ n value, pattern = .param n ∧ b.table.get? n = some value
  · obtain ⟨n, value, rfl, found⟩ := bound
    have found' := (Bindings.get?_append bounded inRange.1 b).trans found
    have inserted := Bindings.insert_append bounded inRange.1 b
    rw [wildcard_param found, Fragment.renumber, wildcard_param found', inserted]
    rfl
  · have unbound : ∀ n, pattern = .param n → b.table.get? n = none := fun n hn =>
      Option.eq_none_iff_forall_ne_some.2 fun value found => bound ⟨n, value, hn, found⟩
    rw [wildcard_unbound unbound, wildcard_unbound, concatenated_renumber]
    · rfl
    · intro n' hn'
      cases pattern with
      | param n =>
        cases hn'
        exact (Bindings.get?_append bounded inRange.1 b).trans (unbound n rfl)
      | null | clause => cases hn'

theorem wildcardArguments_follows (bounded : base.Bounded) (f : SqlFunction)
    {args : List Fragment} {m : Nat} (inRange : ∀ a ∈ args, a.InRange m) :
    Follows base b (List.map (Fragment.renumber base.count)) (wildcardArguments f args)
      (wildcardArguments f (args.map (Fragment.renumber base.count))) := by
  match args with
  | [] | [_] => exact .pure rfl
  | first :: second :: others =>
    simp only [List.map_cons, wildcardArguments]
    split
    · refine .bind (wildcard_follows bounded f (inRange second (by simp))) fun q b' _ => ?_
      exact .pure rfl
    · exact .pure rfl

theorem convertThreshold_follows (bounded : base.Bounded) {unit m : Nat} (pos : 0 < unit)
    {threshold : Fragment} (inRange : threshold.InRange m) :
    Follows base b (Fragment.renumber base.count) (convertThreshold unit threshold)
      (convertThreshold (base.count + unit) (threshold.renumber base.count)) := by
  let erased : Bindings := { b with table := b.table.erase unit }
  unfold Follows convertThreshold
  dsimp only
  rw [Bindings.get?_append bounded pos, Bindings.erase_append bounded pos]
  split
  · rfl
  · cases threshold with
    | null => rfl
    | param n =>
      have lookup : (base.table ++ (b.table.erase unit).mapKeys (base.count + ·)).get?
          (base.count + n) = (b.table.erase unit).get? n :=
        Bindings.get?_append bounded inRange.1 erased
      have insert (value : Value) :
          (base.table ++ (b.table.erase unit).mapKeys (base.count + ·)).insert (base.count + n)
            value = base.table ++ ((b.table.erase unit).insert n value).mapKeys (base.count + ·) :=
        Bindings.insert_append bounded inRange.1 erased value
      simp only [Fragment.renumber, lookup, insert]
      cases ((b.table.erase unit).get? n).bind (·.toFloat?) <;> rfl
    | clause c =>
      simp only [Fragment.renumber_clause, Except.map, Prod.map, Clause.renumber_parenthesized,
        Clause.renumber_append, Clause.renumber_ofString]
      rfl

namespace Compiler

theorem primary_follows (bounded : base.Bounded) (c : Compiler) (text : String) :
    Follows base b (Fragment.renumber base.count) (c.primary text) (c.primary text) := by
  rcases c.primary_cases text with ⟨-, eq⟩ | ⟨-, -, value, eq⟩ | ⟨-, column, -, eq⟩ | ⟨-, -, eq⟩
  all_goals rw [eq]
  · exact .pure rfl
  · exact bindValue_follows bounded value
  · exact .pure (by simp)
  · exact .throw _

theorem argument_follows (bounded : base.Bounded) {c : Compiler} (f : SqlFunction) (index : Nat)
    {e : Expr}
    (ih : Follows base b (Operand.renumber base.count) (c.operand false e) (c.operand false e)) :
    Follows base b (Fragment.renumber base.count) (c.argument f index e)
      (c.argument f index e) := by
  cases quoted : quoted? e with
  | some text =>
    obtain ⟨value, eq⟩ := c.argumentLiteral_eq_bindValue f index text
    simpa only [argument, quoted, eq] using bindValue_follows bounded value
  | none =>
    simp only [argument, quoted]
    exact ih.map fun _ => rfl

theorem arguments_follows (bounded : base.Bounded) {c : Compiler} (f : SqlFunction) {es : List Expr}
    (ih : ∀ e ∈ es, ∀ b, Follows base b (Operand.renumber base.count) (c.operand false e)
      (c.operand false e)) (index : Nat) :
    Follows base b (List.map (Fragment.renumber base.count)) (c.arguments f index es)
      (c.arguments f index es) := by
  induction es generalizing index b with
  | nil =>
    simp only [arguments]
    exact .pure rfl
  | cons e es more =>
    rw [arguments_cons]
    refine .bind (argument_follows bounded f index (ih e (by simp) b)) fun q b₁ _ => ?_
    refine .bind (more (fun e' he' => ih e' (by simp [he'])) (index + 1)) fun qs b₂ _ => ?_
    exact .pure rfl

theorem recoverArguments_follows (bounded : base.Bounded) (c : Compiler) (f : SqlFunction)
    (raw : String) (args : List Fragment) :
    Follows base b (List.map (Fragment.renumber base.count)) (c.recoverArguments f raw args)
      (c.recoverArguments f raw (args.map (Fragment.renumber base.count))) := by
  by_cases nil : args = []
  · subst nil
    rcases c.recoverArguments_nil f raw with eq | ⟨value, eq⟩
    · rw [List.map_nil, eq]
      exact .pure rfl
    · rw [List.map_nil, eq]
      refine .bind (bindValue_follows bounded value) fun q b₁ _ => ?_
      exact .pure rfl
  · rw [recoverArguments_of_ne_nil c f raw nil,
      recoverArguments_of_ne_nil c f raw (by simpa using nil)]
    exact .pure rfl

theorem finishCall_follows (bounded : base.Bounded) (c : Compiler) (f : SqlFunction)
    (name raw : String) {args : List Fragment} (inRange : ∀ a ∈ args, a.InRange b.count) :
    Follows base b (Operand.renumber base.count) (c.finishCall f name raw args)
      (c.finishCall f name raw (args.map (Fragment.renumber base.count))) := by
  unfold finishCall
  refine .bind (recoverArguments_follows bounded c f raw args) fun args₁ b₁ recovered => ?_
  have inRange₁ := (recoverArguments_grows recovered inRange).2
  dsimp only
  rw [List.length_map]
  split
  · exact .bind (r := id) (.throw _) fun _ _ thrown => by cases thrown
  · refine .bind (wildcardArguments_follows bounded f inRange₁) fun args₂ b₂ _ => ?_
    exact .pure (by rw [callClause_renumber, unitOf_renumber]; rfl)

theorem listValues_follows (bounded : base.Bounded) (declared : Option Edm.Kind) (path : String)
    (values : List String) :
    Follows base b (List.map (Clause.renumber base.count)) (listValues declared path values)
      (listValues declared path values) := by
  induction values generalizing b with
  | nil => exact .pure rfl
  | cons value rest ih =>
    simp only [listValues]
    split
    · exact .bind (r := id) (.throw _) fun _ _ thrown => by cases thrown
    · split
      · exact .bind (r := id) (.throw _) fun _ _ thrown => by cases thrown
      · refine .bind (bindValue_follows bounded _) fun q b₁ _ => ?_
        refine .bind ih fun cs b₂ _ => ?_
        exact .pure (by simp)

theorem compareOperands_follows (bounded : base.Bounded) (op : String) {left right : Operand}
    {m : Nat} (inRangeₗ : left.InRange m) (inRangeᵣ : right.InRange m) :
    Follows base b (Operand.renumber base.count) (compareOperands op left right)
      (compareOperands op (left.renumber base.count) (right.renumber base.count)) := by
  have converted : Follows base b (Fragment.renumber base.count)
      (threshold left.unit right.fragment)
      (threshold (left.renumber base.count).unit (right.renumber base.count).fragment) := by
    cases unit : left.unit with
    | none =>
      simp only [threshold, Operand.renumber, unit, Option.map_none]
      exact .pure rfl
    | some u =>
      simp only [threshold, Operand.renumber, unit, Option.map_some]
      exact convertThreshold_follows bounded (inRangeₗ.2 u unit).1 inRangeᵣ.1
  refine .bind converted fun q b₁ _ => ?_
  refine .bind (.lift (compareFragments_renumber base.count op left.fragment q)) fun c b₂ _ => ?_
  exact .pure rfl

/-- An expression is compiled after `base` as it is compiled alone. -/
theorem operand_follows (bounded : base.Bounded) (c : Compiler) (leading : Bool) (e : Expr) :
    Follows base b (Operand.renumber base.count) (c.operand leading e) (c.operand leading e) := by
  induction e generalizing leading b with
  | primary text =>
    simp only [operand]
    refine .bind (primary_follows bounded c text) fun q b₁ _ => ?_
    exact .pure rfl
  | call name args raw ih =>
    cases found : c.catalog.get? name with
    | none =>
      simp only [operand, found]
      exact .throw _
    | some f =>
      simp only [operand, found]
      refine .bind (arguments_follows bounded f (fun e he b => ih e he false) 0)
        fun qs b₁ compiled => ?_
      have inRange := (arguments_grows (fun e _ _ _ _ => operand_grows) compiled).2
      exact finishCall_follows bounded c f name raw inRange
  | not e ih =>
    simp only [operand]
    refine .bind (ih false) fun inner b₁ _ => ?_
    exact .pure (by simp)
  | group e ih =>
    simp only [operand]
    split
    · exact ih true
    · refine .bind (ih false) fun inner b₁ _ => ?_
      exact .pure (by simp)
  | comparison op l r ihl ihr =>
    rw [operand_comparison]
    refine .bind (ihl true) fun left b₁ ranl => ?_
    refine .bind (ihr false) fun right b₂ ranr => ?_
    obtain ⟨grows, inRangeᵣ⟩ := operand_grows ranr
    exact compareOperands_follows bounded op ((operand_grows ranl).2.mono grows.count_le) inRangeᵣ
  | logical op l r ihl ihr =>
    simp only [operand]
    refine .bind (ihl false) fun left b₁ _ => ?_
    refine .bind (ihr false) fun right b₂ _ => ?_
    exact .pure (by simp [connected_renumber])
  | inList l values ih =>
    simp only [operand]
    refine .bind (ih false) fun left b₁ _ => ?_
    refine .bind (listValues_follows bounded _ _ _) fun cs b₂ _ => ?_
    exact .pure (by simp [Clause.renumber_intercalate])

end Compiler

end Steps

/-! ## Compositionality -/

theorem Bindings.Bounded.append {base b : Bindings} (bounded : base.Bounded) (h : b.InRange) :
    (base ++ b).Bounded := by
  intro n member
  simp only [table_append, Table.keys_append, Table.keys_mapKeys, List.mem_append,
    List.mem_map] at member
  rcases member with old | ⟨i, fresh, rfl⟩
  · exact Nat.le_trans (bounded n old) (Nat.le_add_right _ _)
  · exact Nat.add_le_add_left (h i fresh).2 base.count

namespace Compiler

/-- What a compilation after `base` ends with, if it succeeds. -/
theorem operand_eq_ok_after {c : Compiler} {leading : Bool} {e : Expr} {base b : Bindings}
    {o : Operand} (bounded : base.Bounded) (h : c.operand leading e base = .ok (o, b)) :
    ∃ o₀ b₀, c.operand leading e .empty = .ok (o₀, b₀) ∧ b₀.InRange ∧
      o = o₀.renumber base.count ∧ b = base ++ b₀ := by
  obtain ⟨o₀, b₀, alone, result, bindings⟩ := (operand_follows bounded c leading e).eq_ok h
  have inRange := (operand_grows alone).1.inRange Bindings.inRange_empty
  exact ⟨o₀, b₀, alone, inRange, result, bindings⟩

/-- Parameters that are bound before an operand is compiled keep their values. -/
theorem operand_keeps {c : Compiler} {leading : Bool} {e : Expr} {b b' : Bindings} {o : Operand}
    {n : Nat} (bounded : b.Bounded) (h : c.operand leading e b = .ok (o, b')) (le : n ≤ b.count) :
    b'.table.get? n = b.table.get? n := by
  obtain ⟨o₀, b₀, -, inRange, -, rfl⟩ := operand_eq_ok_after bounded h
  exact Bindings.get?_append_of_le inRange le

theorem arguments_keeps {c : Compiler} {f : SqlFunction} {index : Nat} {es : List Expr}
    {b b' : Bindings} {qs : List Fragment} {n : Nat} (bounded : b.Bounded)
    (h : c.arguments f index es b = .ok (qs, b')) (le : n ≤ b.count) :
    b'.table.get? n = b.table.get? n := by
  have follows : Compile.Follows b .empty (List.map (Fragment.renumber b.count))
      (c.arguments f index es) (c.arguments f index es) :=
    arguments_follows bounded f (fun e _ _ => operand_follows bounded c false e) index
  obtain ⟨qs₀, b₀, alone, -, rfl⟩ := follows.eq_ok h
  have grows := (arguments_grows (fun e _ _ _ _ => operand_grows) alone).1
  exact Bindings.get?_append_of_le (grows.inRange Bindings.inRange_empty) le

/-- A literal argument holds its number, and keeps its value, until the call is completed. -/
theorem arguments_getElem? {c : Compiler} {f : SqlFunction} {index : Nat} {es : List Expr}
    {qs : List Fragment} {b b' : Bindings} {i : Nat} {e : Expr} {value : Value}
    (inRange : b.InRange) (h : c.arguments f index es b = .ok (qs, b'))
    (at_i : es[i]? = some e) (bound : c.argument f (index + i) e = bindValue value) :
    ∃ n, qs[i]? = some (.param n) ∧ b'.table.get? n = some value := by
  induction es generalizing index i b qs with
  | nil => cases at_i
  | cons first others ih =>
    simp only [arguments_cons, Compile.bind_eq_ok] at h
    obtain ⟨q, b₁, ran, qs', b₂, more, h⟩ := h
    cases h
    have inRange₁ := (argument_grows (fun _ => operand_grows) ran).1.inRange inRange
    cases i with
    | zero =>
      cases at_i
      rw [Nat.add_zero] at bound
      rw [bound, bindValue_apply] at ran
      cases ran
      refine ⟨_, rfl, ?_⟩
      rw [arguments_keeps inRange₁.bounded more (Nat.le_refl _), Table.get?_insert_self]
    | succ i =>
      have bound' : c.argument f (index + 1 + i) e = bindValue value := by
        rwa [Nat.add_assoc, Nat.add_comm 1]
      simpa using ih inRange₁ more at_i bound'

/-- Compiling an expression after `k` parameters have been numbered fails as compiling it alone does.
If it succeeds, the table `P` stays as it is and the parameters of the expression come after it, with
their numbers moved up by `k` in the table and in the fragment. So an expression that is compiled
after another one leaves the parameters of the first alone, and uses none of their numbers. -/
theorem operand_compositional (c : Compiler) (e : Expr) (k : Nat) (P : Table Nat Value)
    (bounded : ∀ n ∈ P.keys, n ≤ k) :
    (∀ err, (c.operand false e).run ⟨k, P⟩ = .error err ↔
      (c.operand false e).run .empty = .error err) ∧
    (∀ o b, (c.operand false e).run ⟨k, P⟩ = .ok (o, b) →
      ∃ o₀ b₀, (c.operand false e).run .empty = .ok (o₀, b₀) ∧
        b.table.entries = P.entries ++ b₀.table.entries.map (fun (i, value) => (k + i, value)) ∧
        b.count = k + b₀.count ∧ o.fragment = o₀.fragment.renumber k) ∧
    (∀ leading r o b o' b', (c.operand leading e).run ⟨k, P⟩ = .ok (o, b) →
      (c.operand false r).run b = .ok (o', b') →
      ∃ fresh, b'.table.entries = b.table.entries ++ fresh ∧
        (∀ n ∈ b.table.keys, n ≤ b.count) ∧ ∀ entry ∈ fresh, b.count < entry.1) := by
  have bounded' : (Bindings.mk k P).Bounded := bounded
  refine ⟨fun err => ?_, fun o b h => ?_, fun leading r o b o' b' h h' => ?_⟩
  · exact (operand_follows bounded' c false e).eq_error
  · obtain ⟨o₀, b₀, alone, -, rfl, rfl⟩ := operand_eq_ok_after bounded' h
    exact ⟨o₀, b₀, alone, rfl, rfl, rfl⟩
  · obtain ⟨o₀, b₀, -, inRange, -, rfl⟩ := operand_eq_ok_after bounded' h
    have bounded₁ := bounded'.append inRange
    obtain ⟨o₁, b₁, -, inRange₁, -, rfl⟩ := operand_eq_ok_after bounded₁ h'
    refine ⟨_, rfl, bounded₁, fun entry member => ?_⟩
    obtain ⟨⟨i, value⟩, bound, rfl⟩ := List.mem_map.1 member
    exact Nat.lt_add_of_pos_right (inRange₁ i (List.mem_map.2 ⟨_, bound, rfl⟩)).1

/-- A distance below a threshold, compiled after two other parameters: its unit takes the number
three and is dropped again, and its threshold keeps the number four. -/
theorem operand_compositional_distance :
    let e : Expr := .comparison "lt" (.callOf "distance" [.primary "Place", .primary "'m'"])
      (.primary "'5'")
    let P : Table Nat Value := ⟨[(2, .bool true), (1, .string "x")]⟩
    (∀ n ∈ P.keys, n ≤ 2) ∧
      ∃ o b, (shop.operand false e).run ⟨2, P⟩ = .ok (o, b) ∧ b.table.keys = [2, 1, 4] ∧
        b.count = 4 := by
  intro e P
  have bounded : ∀ n ∈ P.keys, n ≤ 2 := by decide
  have alone : ((shop.operand false e).run .empty).map (fun p => (p.2.table.keys, p.2.count)) =
      .ok ([2], 2) := rfl
  obtain ⟨fails, succeeds, -⟩ := operand_compositional shop e 2 P bounded
  rcases ran : (shop.operand false e).run ⟨2, P⟩ with err | ⟨o, b⟩
  · rw [(fails err).1 ran] at alone
    cases alone
  · obtain ⟨o₀, b₀, ran₀, entries, count, -⟩ := succeeds o b ran
    simp only [ran₀, Except.map, Except.ok.injEq, Prod.mk.injEq] at alone
    have keys : b.table.keys = P.keys ++ b₀.table.keys.map (2 + ·) := by
      simp [Table.keys, entries, Function.comp_def]
    refine ⟨bounded, o, b, rfl, ?_, ?_⟩
    · rw [keys, alone.1]
      rfl
    · rw [count, alone.2]

end Compiler

end FilterSql.Sql
