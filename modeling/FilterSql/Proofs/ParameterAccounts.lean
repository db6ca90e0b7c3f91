import FilterSql.Proofs.CallText
import FilterSql.Proofs.LiteralIndependence
import FilterSql.Proofs.Literals

/-!
# Accounts of parameters

Each parameter that is bound for an expression is written in its clause, or it is spare. A call makes
the parameters of arguments that it does not write spare. A comparison drops the unit of a distance on
its left, which is spare; this is the only place where a parameter is dropped.

How many parameters are written and how many are spare can be told from the expression, if functions
write all of their arguments and distances all but the unit.

## Main statements

* `Compiler.operand_accounted`: the account of an expression.
-/

namespace FilterSql.Filter.Literal

open Text

theorem isBound_of_isQuoted {text : String} (h : isQuoted text = true) : IsBound text := by
  obtain ⟨-, quote, isQuote, last⟩ := ends_of_isQuoted h
  constructor
  · exact isLiteral_of_isQuoted h
  · rw [isNull, trim_of_isQuoted h, Bool.eq_false_iff]
    intro null
    simp only [sameName, beq_iff_eq] at null
    have ends := congrArg List.getLast? null
    rw [List.getLast?_map, last] at ends
    rcases isQuote with rfl | rfl
    · exact absurd ends (by decide)
    · exact absurd ends (by decide)

end FilterSql.Filter.Literal

namespace FilterSql.Sql

open FilterSql.Filter Catalog

/-! ## Written and spare parameters -/

/-- The parameters bound between two steps: a clause mentions those that are `written`, and not those
that are `spare`. -/
structure Bindings.Splits (b b' : Bindings) (clause : Clause) (written spare : List Nat) : Prop where
  keys : b'.table.keys.Perm (b.table.keys ++ (written ++ spare))
  nodup : (written ++ spare).Nodup
  fresh : ∀ n ∈ written ++ spare, b.count < n ∧ n ≤ b'.count
  count_le : b.count ≤ b'.count
  mem_written : ∀ n, n ∈ written ↔ n ∈ clause.params

namespace Bindings.Splits

variable {b b₁ b₂ : Bindings} {clause clause' : Clause} {written written' spare spare' : List Nat}

theorem refl (b : Bindings) (h : clause.params = []) : b.Splits b clause [] [] where
  keys := by simp
  nodup := by simp
  fresh := by simp
  count_le := Nat.le_refl _
  mem_written := by simp [h]

theorem congr (h : b.Splits b₁ clause written spare)
    (same : ∀ n, n ∈ clause.params ↔ n ∈ clause'.params) : b.Splits b₁ clause' written spare :=
  { h with mem_written := fun n => (h.mem_written n).trans (same n) }

theorem of_keys_eq (h : b.Splits b₁ clause written spare) (count : b₂.count = b₁.count)
    (keys : b₂.table.keys = b₁.table.keys) : b.Splits b₂ clause written spare where
  keys := keys ▸ h.keys
  nodup := h.nodup
  fresh := count ▸ h.fresh
  count_le := count ▸ h.count_le
  mem_written := h.mem_written

theorem append (h : b.Splits b₁ clause written spare)
    (h' : b₁.Splits b₂ clause' written' spare') :
    b.Splits b₂ (clause ++ clause') (written ++ written') (spare ++ spare') where
  keys := by
    rw [List.perm_iff_count]
    intro n
    have first := h.keys.count_eq n
    have second := h'.keys.count_eq n
    simp only [List.count_append] at first second ⊢
    omega
  nodup := by
    rw [List.nodup_iff_count]
    intro n
    have first := List.nodup_iff_count.1 h.nodup n
    have second := List.nodup_iff_count.1 h'.nodup n
    -- a number of the second part is larger than the numbers of the first
    have apart : n ∉ written ++ spare ∨ n ∉ written' ++ spare' := by
      by_contra both
      simp only [not_or, not_not] at both
      have low := (h.fresh n both.1).2
      have high := (h'.fresh n both.2).1
      omega
    simp only [List.count_append] at first second ⊢
    rcases apart with absent | absent
    · have none := List.count_eq_zero.2 absent
      simp only [List.count_append] at none
      omega
    · have none := List.count_eq_zero.2 absent
      simp only [List.count_append] at none
      omega
  fresh := by
    intro n member
    have le := h.count_le
    have le' := h'.count_le
    have parts : n ∈ written ++ spare ∨ n ∈ written' ++ spare' := by
      simp only [List.mem_append] at member ⊢
      tauto
    rcases parts with member | member
    · have := h.fresh n member
      omega
    · have := h'.fresh n member
      omega
  count_le := Nat.le_trans h.count_le h'.count_le
  mem_written := by simp [h.mem_written, h'.mem_written]

/-- What is not written is spare. -/
theorem hide (h : b.Splits b₁ clause written spare) : b.Splits b₁ [] [] (written ++ spare) where
  keys := h.keys
  nodup := h.nodup
  fresh := h.fresh
  count_le := h.count_le
  mem_written := by simp

theorem erase (h : b.Splits b₁ clause written spare) (inRange : b.InRange) {n : Nat}
    (member : n ∈ spare) (count : b₂.count = b₁.count)
    (keys : b₂.table.keys = b₁.table.keys.erase n) :
    b.Splits b₂ clause written (spare.erase n) := by
  have notOld : n ∉ b.table.keys := by
    intro old
    have high := (inRange n old).2
    have low := (h.fresh n (by simp [member])).1
    omega
  have notWritten : n ∉ written := fun both => (List.nodup_append.1 h.nodup).2.2 n both n member rfl
  have sub : written ++ spare.erase n ⊆ written ++ spare := by
    intro m
    simp only [List.mem_append]
    exact Or.imp_right List.mem_of_mem_erase
  refine ⟨?_, ?_, ?_, count ▸ h.count_le, h.mem_written⟩
  · rw [keys]
    refine (h.keys.erase n).trans ?_
    rw [List.erase_append_right _ notOld, List.erase_append_right _ notWritten]
  · rw [← List.erase_append_right _ notWritten]
    exact h.nodup.erase n
  · intro m left
    rw [count]
    exact h.fresh m (sub left)

end Bindings.Splits

theorem bindValue_splits {b : Bindings} (inRange : b.InRange) (value : Value) :
    b.Splits ⟨b.count + 1, b.table.insert (b.count + 1) value⟩ [.param (b.count + 1)]
      [b.count + 1] [] where
  keys := by
    have fresh : b.count + 1 ∉ b.table.keys := by
      intro old
      have high := (inRange _ old).2
      omega
    rw [Table.keys_insert_of_notMem fresh]
    simp
  nodup := by simp
  fresh := by simp
  count_le := Nat.le_succ _
  mem_written := by simp

/-! ## Counting parameters -/

/-- How many of the bound parameters are written, and how many are not. -/
structure Tally where
  written : Nat
  spare : Nat
deriving Repr, DecidableEq

namespace Tally

def none : Tally := ⟨0, 0⟩

def add (s t : Tally) : Tally := ⟨s.written + t.written, s.spare + t.spare⟩

/-- The parameters of an argument that is not written. -/
def hidden (t : Tally) : Tally := ⟨0, t.written + t.spare⟩

/-- The parameter of a unit, which is not written, is dropped. -/
def withoutUnit (t : Tally) : Tally := ⟨t.written, t.spare - 1⟩

end Tally

/-- A literal that is bound to a parameter. -/
def isBoundLiteral : Expr → Bool
  | .primary text => decide (Literal.IsBound text)
  | _ => false

theorem isBoundLiteral_primary_iff {text : String} :
    isBoundLiteral (.primary text) = true ↔ Literal.IsBound text := by
  simp only [isBoundLiteral, decide_eq_true_eq]

namespace Compiler

/-- The arguments of a call, with the one that only its text shows. -/
def givenArguments (f : SqlFunction) (args : List Expr) (raw : String) : List Expr :=
  if args.isEmpty && f.arity == 1 then
    match (Expr.recoveredArgument? raw).filter Literal.isQuoted with
    | some text => [.primary text]
    | none => args
  else args

/-- A distance whose unit is a literal, in any number of groups. -/
def hasUnit (c : Compiler) (e : Expr) : Bool :=
  match e.ungrouped with
  | .call name args _ =>
    (c.catalog.get? name).any (·.isDistance) && (args[1]?).any isBoundLiteral
  | _ => false

mutual

/-- The parameters of a condition, if functions write all of their arguments and distances all but
the unit. The unit is dropped where a comparison has the distance on its left. -/
def tally (c : Compiler) : Expr → Tally
  | .primary text => if Literal.IsBound text then ⟨1, 0⟩ else .none
  | .call name args raw =>
    match c.catalog.get? name with
    | none => .none
    | some f => if args.isEmpty then ⟨(givenArguments f [] raw).length, 0⟩ else c.tallyArguments f 0 args
  | .not e => c.tally e
  | .group e => c.tally e
  | .comparison _ l r =>
    (if c.hasUnit l then (c.tally l).withoutUnit else c.tally l).add (c.tally r)
  | .logical _ l r => (c.tally l).add (c.tally r)
  | .inList l values => (c.tally l).add ⟨values.length, 0⟩

def tallyArguments (c : Compiler) (f : SqlFunction) (index : Nat) : List Expr → Tally
  | [] => .none
  | e :: es =>
    (if f.isDistance && index == 1 then (c.tally e).hidden else c.tally e).add
      (c.tallyArguments f (index + 1) es)

end

/-! ## Arguments -/

variable {c : Compiler} {b b' : Bindings}

theorem quoted?_eq_some {e : Expr} {text : String} (h : quoted? e = some text) :
    e = .primary text ∧ Literal.isQuoted text = true := by
  cases e with
  | primary text' =>
    simp only [quoted?] at h
    split at h
    · next isQuoted =>
      cases h
      exact ⟨rfl, isQuoted⟩
    · cases h
  | _ => cases h

theorem isBound_of_primary {text : String} {value : Value} (h : c.primary text = bindValue value) :
    Literal.IsBound text := by
  have ran := congrFun h Bindings.empty
  rcases c.primary_cases text with ⟨-, eq⟩ | ⟨notNull, literal, -⟩ | ⟨-, column, -, eq⟩ | ⟨-, -, eq⟩
  · rw [eq] at ran
    cases ran
  · exact ⟨literal, notNull⟩
  all_goals
    rw [eq] at ran
    cases ran

/-- An argument compiles to a parameter that stands alone exactly if it is a bound literal. -/
theorem argument_isParam_iff {f : SqlFunction} {index : Nat} {e : Expr} {q : Fragment}
    (h : c.argument f index e b = .ok (q, b')) :
    (∃ n, q = .param n) ↔ isBoundLiteral e = true := by
  constructor
  · rintro ⟨n, rfl⟩
    cases quoted : quoted? e with
    | some text =>
      obtain ⟨rfl, isQuoted⟩ := quoted?_eq_some quoted
      exact isBoundLiteral_primary_iff.2 (Literal.isBound_of_isQuoted isQuoted)
    | none =>
      simp only [argument, quoted, Compile.map_eq_ok] at h
      obtain ⟨o, ran, fragment⟩ := h
      obtain ⟨text, value, rfl, eq⟩ := operand_eq_param ran fragment
      exact isBoundLiteral_primary_iff.2 (isBound_of_primary eq)
  · intro bound
    cases e with
    | primary text =>
      obtain ⟨value, eq⟩ := c.argument_of_isBound f index (isBoundLiteral_primary_iff.1 bound)
      rw [eq] at h
      cases h
      exact ⟨_, rfl⟩
    | _ => cases bound

/-- The parameters bound for an expression that compiles to a clause. -/
def Accounts (c : Compiler) (e : Expr) (b b' : Bindings) (clause : Clause) : Prop :=
  ∃ written spare, b.Splits b' clause written spare ∧
    (c.catalog.WritesArguments → c.tally e = ⟨written.length, spare.length⟩)

theorem primary_accounts {text : String} {q : Fragment} (inRange : b.InRange)
    (h : c.primary text b = .ok (q, b')) : c.Accounts (.primary text) b b' q.toClause := by
  rcases c.primary_cases text with
    ⟨null, eq⟩ | ⟨notNull, literal, value, eq⟩ | ⟨path, column, -, eq⟩ | ⟨-, -, eq⟩
  all_goals rw [eq] at h; cases h
  · have free : ¬Literal.IsBound text := fun bound => by simp [bound.2] at null
    exact ⟨[], [], .refl _ (by simp [Fragment.toClause]), fun _ => by simp [tally, free, Tally.none]⟩
  · have bound : Literal.IsBound text := ⟨literal, notNull⟩
    exact ⟨_, _, bindValue_splits inRange value, fun _ => by simp [tally, bound]⟩
  · have free : ¬Literal.IsBound text := fun bound => by simp [bound.1] at path
    exact ⟨[], [], .refl _ (by simp [Fragment.toClause]), fun _ => by simp [tally, free, Tally.none]⟩

theorem argument_accounts {f : SqlFunction} {index : Nat} {e : Expr} {q : Fragment}
    (inRange : b.InRange)
    (ih : ∀ o, c.operand false e b = .ok (o, b') → c.Accounts e b b' o.fragment.toClause)
    (h : c.argument f index e b = .ok (q, b')) : c.Accounts e b b' q.toClause := by
  cases quoted : quoted? e with
  | some text =>
    obtain ⟨rfl, isQuoted⟩ := quoted?_eq_some quoted
    have bound : Literal.IsBound text := Literal.isBound_of_isQuoted isQuoted
    obtain ⟨value, eq⟩ := c.argumentLiteral_eq_bindValue f index text
    simp only [argument, quoted, eq] at h
    cases h
    exact ⟨_, _, bindValue_splits inRange value, fun _ => by simp [tally, bound]⟩
  | none =>
    simp only [argument, quoted, Compile.map_eq_ok] at h
    obtain ⟨o, ran, rfl⟩ := h
    exact ih o ran

/-- The parameters bound for the arguments of a call, the first of which has the given index: those of
arguments that the call writes are written, those of the others are spare. -/
structure ArgumentsAccounted (c : Compiler) (f : SqlFunction) (index : Nat) (es : List Expr)
    (qs : List Fragment) (b b' : Bindings) (written spare : List Nat) : Prop where
  splits : b.Splits b' (shown f index qs) written spare
  mem_spare : ∀ i q, qs[i]? = some q → writesArgument f (index + i) = false →
    ∀ n ∈ q.toClause.params, n ∈ spare
  tally : c.catalog.WritesArguments →
    (∀ i, index ≤ i → i < index + es.length → writesArgument f i = !(f.isDistance && i == 1)) →
    c.tallyArguments f index es = ⟨written.length, spare.length⟩

section Arguments

variable {f : SqlFunction} {index : Nat} {e : Expr} {es : List Expr} {q : Fragment}
  {qs : List Fragment} {b₁ : Bindings} {written spare written' spare' : List Nat}

theorem ArgumentsAccounted.mem_spare_cons
    (others : c.ArgumentsAccounted f (index + 1) es qs b₁ b' written' spare') {i : Nat}
    {q' : Fragment} (at' : (q :: qs)[i + 1]? = some q')
    (unwritten : writesArgument f (index + (i + 1)) = false) {n : Nat}
    (member : n ∈ q'.toClause.params) : n ∈ spare' := by
  rw [← Nat.add_assoc, Nat.add_right_comm] at unwritten
  exact others.mem_spare i q' (by simpa using at') unwritten n member

theorem ArgumentsAccounted.tally_cons
    (others : c.ArgumentsAccounted f (index + 1) es qs b₁ b' written' spare')
    (complete : c.catalog.WritesArguments)
    (all : ∀ i, index ≤ i → i < index + (e :: es).length →
      writesArgument f i = !(f.isDistance && i == 1)) :
    c.tallyArguments f (index + 1) es = ⟨written'.length, spare'.length⟩ := by
  refine others.tally complete fun i low high => all i (by omega) ?_
  rw [List.length_cons]
  omega

theorem ArgumentsAccounted.cons_written
    (splits : b.Splits b₁ q.toClause written spare)
    (counted : c.catalog.WritesArguments → c.tally e = ⟨written.length, spare.length⟩)
    (writes : writesArgument f index = true)
    (others : c.ArgumentsAccounted f (index + 1) es qs b₁ b' written' spare') :
    c.ArgumentsAccounted f index (e :: es) (q :: qs) b b' (written ++ written')
      (spare ++ spare') where
  splits := by
    simp only [shown, writes, if_true]
    exact splits.append others.splits
  mem_spare i q' at' unwritten n member := by
    cases i with
    | zero =>
      rw [Nat.add_zero, writes] at unwritten
      cases unwritten
    | succ i => exact List.mem_append_right _ (others.mem_spare_cons at' unwritten member)
  tally complete all := by
    have kept := all index (Nat.le_refl _) (by simp)
    rw [writes, eq_comm, Bool.not_eq_true'] at kept
    simp [tallyArguments, kept, counted complete, others.tally_cons complete all, Tally.add]

theorem ArgumentsAccounted.cons_spare
    (splits : b.Splits b₁ q.toClause written spare)
    (counted : c.catalog.WritesArguments → c.tally e = ⟨written.length, spare.length⟩)
    (writes : writesArgument f index = false)
    (others : c.ArgumentsAccounted f (index + 1) es qs b₁ b' written' spare') :
    c.ArgumentsAccounted f index (e :: es) (q :: qs) b b' ([] ++ written')
      ((written ++ spare) ++ spare') where
  splits := by
    simp only [shown, writes, Bool.false_eq_true, if_false]
    exact splits.hide.append others.splits
  mem_spare i q' at' unwritten n member := by
    cases i with
    | zero =>
      cases at'
      have isWritten := (splits.mem_written n).2 member
      simp [isWritten]
    | succ i => exact List.mem_append_right _ (others.mem_spare_cons at' unwritten member)
  tally complete all := by
    have dropped := all index (Nat.le_refl _) (by simp)
    rw [writes, eq_comm, Bool.not_eq_false'] at dropped
    simp [tallyArguments, dropped, counted complete, others.tally_cons complete all, Tally.add,
      Tally.hidden, Nat.add_assoc]

theorem arguments_accounted (inRange : b.InRange)
    (ih : ∀ e ∈ es, ∀ b b' o, b.InRange → c.operand false e b = .ok (o, b') →
      c.Accounts e b b' o.fragment.toClause)
    (h : c.arguments f index es b = .ok (qs, b')) :
    ∃ written spare, c.ArgumentsAccounted f index es qs b b' written spare := by
  induction es generalizing index b qs with
  | nil =>
    simp only [arguments, Compile.pure_apply] at h
    cases h
    exact ⟨[], [], .refl _ rfl, by simp, fun _ _ => rfl⟩
  | cons e es more =>
    simp only [arguments_cons, Compile.bind_eq_ok] at h
    obtain ⟨q, b₁, first, rs, b₂, others, h⟩ := h
    cases h
    have inRange₁ : b₁.InRange := (argument_grows (fun _ => operand_grows) first).1.inRange inRange
    obtain ⟨written, spare, splits, counted⟩ :=
      argument_accounts inRange (fun o => ih e (by simp) b b₁ o inRange) first
    obtain ⟨written', spare', accounted⟩ :=
      more inRange₁ (fun e' member => ih e' (by simp [member])) others
    cases writes : writesArgument f index with
    | true => exact ⟨_, _, .cons_written splits counted writes accounted⟩
    | false => exact ⟨_, _, .cons_spare splits counted writes accounted⟩

/-- An argument that is a single parameter is bound, whether the call writes it or not. -/
theorem ArgumentsAccounted.mem_keys
    (accounted : c.ArgumentsAccounted f index es qs b b' written spare) {n : Nat}
    (member : .param n ∈ qs) : n ∈ b'.table.keys := by
  obtain ⟨i, at'⟩ := List.mem_iff_getElem?.1 member
  have single : n ∈ (Fragment.param n).toClause.params := by simp [Fragment.toClause]
  have new : n ∈ written ++ spare := by
    cases writes : writesArgument f (index + i) with
    | true =>
      have mentioned : n ∈ (shown f index qs).params :=
        mem_params_shown.2 ⟨i, _, at', writes, single⟩
      exact List.mem_append_left _ ((accounted.splits.mem_written n).2 mentioned)
    | false => exact List.mem_append_right _ (accounted.mem_spare i _ at' writes n single)
  exact accounted.splits.keys.mem_iff.2 (List.mem_append_right _ new)

end Arguments

/-- A distance has a unit if its second argument is a bound literal. -/
theorem arguments_unit_isSome {f : SqlFunction} {es : List Expr} {qs : List Fragment}
    (h : c.arguments f 0 es b = .ok (qs, b')) :
    (unitOf f qs).isSome = (f.isDistance && (es[1]?).any isBoundLiteral) := by
  match es, qs, arguments_length h with
  | [], [], _ => simp [unitOf]
  | [e], [q], _ => simp [unitOf]
  | e₀ :: e₁ :: es, q₀ :: q₁ :: qs, _ =>
    simp only [arguments_cons, Compile.bind_eq_ok, Compile.pure_apply] at h
    obtain ⟨_, b₁, -, _, _, ⟨_, b₂, ran, _, b₃, -, eq⟩, h⟩ := h
    cases eq
    cases h
    rw [Bool.eq_iff_iff, Option.isSome_iff_exists]
    simp only [unitOf_cons_eq_some, exists_and_left, argument_isParam_iff ran, Bool.and_eq_true]
    simp

/-- An argument that only the text of a call shows is compiled like a written one. -/
theorem arguments_givenArguments {f : SqlFunction} {args : List Expr} {raw : String}
    {qs qs' : List Fragment} {b₁ : Bindings} (h : c.arguments f 0 args b = .ok (qs, b₁))
    (recovered : c.recoverArguments f raw qs b₁ = .ok (qs', b')) :
    c.arguments f 0 (givenArguments f args raw) b = .ok (qs', b') := by
  cases args with
  | nil =>
    simp only [arguments, Compile.pure_apply] at h
    cases h
    cases one : f.arity == 1 with
    | false =>
      simp only [recoverArguments, givenArguments, one, Bool.and_false, Bool.false_eq_true,
        if_false] at recovered ⊢
      exact recovered
    | true =>
      cases found : (Expr.recoveredArgument? raw).filter Literal.isQuoted with
      | none =>
        simp only [recoverArguments, givenArguments, one, found, List.isEmpty_nil, Bool.and_true,
          if_true] at recovered ⊢
        exact recovered
      | some text =>
        simp only [recoverArguments, givenArguments, one, found, List.isEmpty_nil, Bool.and_true,
          if_true] at recovered ⊢
        have isQuoted : Literal.isQuoted text = true := (Option.filter_eq_some_iff.1 found).2
        have quoted : quoted? (.primary text) = some text := if_pos isQuoted
        simp only [arguments, quoted, pure_bind]
        exact recovered
  | cons e es =>
    have some : qs ≠ [] := by
      rw [← List.length_pos_iff, arguments_length h]
      simp
    rw [recoverArguments_of_ne_nil c f raw some] at recovered
    cases recovered
    exact h

/-- The parameters bound for an expression: its unit is spare, and on the left of a comparison a
distance has one exactly if it is a literal. -/
structure Accounted (c : Compiler) (leading : Bool) (e : Expr) (b b' : Bindings) (o : Operand)
    (written spare : List Nat) : Prop where
  splits : b.Splits b' o.fragment.toClause written spare
  unit_mem : ∀ n ∈ o.unit, n ∈ spare
  unit_isSome : leading = true → o.unit.isSome = c.hasUnit e
  tally : c.catalog.WritesArguments → c.tally e = ⟨written.length, spare.length⟩

theorem Accounted.unitless {c : Compiler} {leading : Bool} {e : Expr} {b b' : Bindings}
    {q : Fragment} {written spare : List Nat} (splits : b.Splits b' q.toClause written spare)
    (noUnit : leading = true → c.hasUnit e = false)
    (tally : c.catalog.WritesArguments → c.tally e = ⟨written.length, spare.length⟩) :
    c.Accounted leading e b b' ⟨q, none⟩ written spare where
  splits := splits
  unit_mem n member := by cases member
  unit_isSome leads := (noUnit leads).symm
  tally := tally

theorem givenArguments_cases (f : SqlFunction) (args : List Expr) (raw : String) :
    givenArguments f args raw = args ∨
      args = [] ∧ ∃ text, Literal.isQuoted text = true ∧ givenArguments f args raw = [.primary text] := by
  unfold givenArguments
  split
  · next empty =>
    split
    · next text found =>
      have isQuoted : Literal.isQuoted text = true := (Option.filter_eq_some_iff.1 found).2
      simp only [Bool.and_eq_true, List.isEmpty_iff] at empty
      exact .inr ⟨empty.1, text, isQuoted, rfl⟩
    · exact .inl rfl
  · exact .inl rfl

theorem tally_call {name raw : String} {args : List Expr} {f : SqlFunction}
    (found : c.catalog.get? name = some f) :
    c.tally (.call name args raw) = c.tallyArguments f 0 (givenArguments f args raw) := by
  rcases givenArguments_cases f args raw with eq | ⟨rfl, text, isQuoted, eq⟩
  · cases args with
    | nil => simp [tally, found, eq, tallyArguments, Tally.none]
    | cons e es => simp [tally, found, eq]
  · have bound : Literal.IsBound text := Literal.isBound_of_isQuoted isQuoted
    simp [tally, found, eq, tallyArguments, bound, Tally.none, Tally.add]

theorem params_shown_congr {f : SqlFunction} {qs qs' : List Fragment}
    (h : qs'.map (·.toClause.params) = qs.map (·.toClause.params)) (index : Nat) :
    (shown f index qs').params = (shown f index qs).params := by
  induction qs generalizing qs' index with
  | nil =>
    obtain rfl : qs' = [] := by simpa using h
    rfl
  | cons q qs ih =>
    cases qs' with
    | nil => cases h
    | cons q' qs' =>
      simp only [List.map_cons, List.cons.injEq] at h
      simp only [shown, Clause.params_append, ih h.2]
      split <;> simp [h.1]

theorem writesArgument_of_writesArguments (complete : c.catalog.WritesArguments) {f : SqlFunction}
    (member : f ∈ c.catalog.functions) {index : Nat} (lt : index < f.arity) :
    writesArgument f index = !(f.isDistance && index == 1) := by
  have mentions := complete f member index lt
  cases unit : f.isDistance && index == 1 with
  | false =>
    rw [unit] at mentions
    exact writesArgument_of_mentions mentions
  | true =>
    rw [unit] at mentions
    simp only [Bool.and_eq_true, beq_iff_eq] at unit
    rw [unit.2] at mentions ⊢
    exact writesArgument_one mentions

/-- The text of a distance does not mention the unit. -/
def UnitsUnwritten (c : Compiler) : Prop :=
  ∀ f ∈ c.catalog.functions, f.isDistance = true → 1 < f.arity → writesArgument f 1 = false

theorem unitsUnwritten_of_hidesUnits (h : c.catalog.HidesUnits) : c.UnitsUnwritten :=
  fun f member distance _ => writesArgument_one (h f member distance)

theorem unitsUnwritten_of_writesArguments (h : c.catalog.WritesArguments) : c.UnitsUnwritten := by
  intro f member distance lt
  rw [writesArgument_of_writesArguments h member lt, distance]
  rfl

theorem accounts_givenArguments (f : SqlFunction) (raw : String) {args : List Expr}
    (ih : ∀ e ∈ args, ∀ b b' o, b.InRange → c.operand false e b = .ok (o, b') →
      c.Accounts e b b' o.fragment.toClause) :
    ∀ e ∈ givenArguments f args raw, ∀ b b' o, b.InRange → c.operand false e b = .ok (o, b') →
      c.Accounts e b b' o.fragment.toClause := by
  rcases givenArguments_cases f args raw with eq | ⟨-, text, -, eq⟩
  · rw [eq]
    exact ih
  · simp only [eq, List.forall_mem_singleton, operand, Compile.bind_eq_ok, Compile.pure_apply]
    rintro b b' o inRange ⟨q, b₁, ran, h⟩
    cases h
    exact primary_accounts inRange ran

theorem call_accounted (hidden : c.UnitsUnwritten) {leading : Bool} {name raw : String}
    {args : List Expr} {o : Operand} (inRange : b.InRange)
    (ih : ∀ e ∈ args, ∀ b b' o, b.InRange → c.operand false e b = .ok (o, b') →
      c.Accounts e b b' o.fragment.toClause)
    (h : c.operand leading (.call name args raw) b = .ok (o, b')) :
    ∃ written spare, c.Accounted leading (.call name args raw) b b' o written spare := by
  cases found : c.catalog.get? name with
  | none =>
    simp only [operand, found] at h
    cases h
  | some f =>
    simp only [operand, found, Compile.bind_eq_ok, finishCall_eq_ok] at h
    obtain ⟨qs, b₁, compiled, qs₁, b₂, qs₂, recovered, arity, ran, rfl⟩ := h
    have isFunction : f ∈ c.catalog.functions := List.mem_of_find?_eq_some found
    have given := arguments_givenArguments compiled recovered
    have length := (arguments_length given).symm.trans arity
    have ih' := accounts_givenArguments f raw ih
    obtain ⟨written, spare, accounted⟩ := arguments_accounted inRange ih' given
    obtain ⟨count, keys, -, -⟩ := wildcardArguments_eq_ok ran
    obtain ⟨params, unit⟩ := wildcardArguments_params ran
    have bound : ∀ q ∈ qs₁, ∀ n, q = .param n → n ∈ b₂.table.keys := by
      rintro _ member n rfl
      exact accounted.mem_keys member
    refine ⟨written, spare, ?_, ?_, fun _ => ?_, fun complete => ?_⟩
    · refine (accounted.splits.of_keys_eq count keys).congr fun n => ?_
      rw [← params_shown_congr params, ← mem_params_callClause]
      rfl
    · intro n isUnit
      rw [unit bound] at isUnit
      obtain ⟨distance, first, others, rfl⟩ := unitOf_eq_some.1 isUnit
      have second : 1 < f.arity := by
        rw [← arity]
        simp
      exact accounted.mem_spare 1 (.param n) rfl (hidden f isFunction distance second) n
        (by simp [Fragment.toClause])
    · dsimp only
      rw [unit bound, arguments_unit_isSome given]
      have same : (givenArguments f args raw)[1]? = args[1]? := by
        rcases givenArguments_cases f args raw with eq | ⟨rfl, text, -, eq⟩ <;> simp [eq]
      simp [hasUnit, Expr.ungrouped, found, same]
    · rw [tally_call found]
      refine accounted.tally complete fun i _ lt => ?_
      exact writesArgument_of_writesArguments complete isFunction (by omega)

/-! ## Comparisons and lists -/

theorem params_compareFragments {op : String} {left right : Fragment} {clause : Clause}
    (h : compareFragments op left right = .ok clause) :
    clause.params = left.toClause.params ++ right.toClause.params := by
  have null : ∀ {operator : ComparisonOperator} {q : Fragment} {clause : Clause},
      nullTest operator op q = .ok clause → clause.params = q.toClause.params := by
    intro operator q clause h
    cases operator <;> cases h <;> simp
  have nothing : Fragment.null.toClause.params = [] := by simp [Fragment.toClause]
  unfold compareFragments at h
  split at h
  · cases h
  · split at h
    · rw [null h, nothing, List.append_nil]
    · rw [null h, nothing, List.nil_append]
    · cases h
      simp

theorem params_convertedFragment (unit : Option Value) (q : Fragment) :
    (convertedFragment unit q).toClause.params = q.toClause.params := by
  unfold convertedFragment
  split
  · split <;> simp [Fragment.toClause]
  · rfl

theorem comparison_accounted {leading : Bool} {op : String} {l r : Expr} {left right o : Operand}
    {b₁ b₂ : Bindings} {written spare : List Nat} (inRange : b.InRange)
    (accounted : c.Accounted true l b b₁ left written spare)
    (accounts : c.Accounts r b₁ b₂ right.fragment.toClause)
    (h : compareOperands op left right b₂ = .ok (o, b')) :
    ∃ written spare, c.Accounted leading (.comparison op l r) b b' o written spare := by
  obtain ⟨written', spare', splits', counted'⟩ := accounts
  have both := accounted.splits.append splits'
  simp only [compareOperands, Compile.bind_eq_ok, Compile.liftM_eq_ok] at h
  obtain ⟨q, b₃, converted, clause, b₄, ⟨compared, rfl⟩, h⟩ := h
  cases h
  have params := params_compareFragments compared
  have isSome := accounted.unit_isSome rfl
  cases unit : left.unit with
  | none =>
    rw [unit] at converted isSome
    cases converted
    refine ⟨_, _, .unitless (both.congr fun n => ?_) (fun _ => rfl) fun complete => ?_⟩
    · simp [Fragment.toClause, params]
    · simp [tally, ← isSome, accounted.tally complete, counted' complete, Tally.add]
  | some u =>
    rw [unit] at converted isSome
    obtain ⟨count, keys, rfl⟩ := convertThreshold_eq_ok converted
    rw [params_convertedFragment] at params
    have member : u ∈ spare := accounted.unit_mem u unit
    have dropped := both.erase inRange (List.mem_append_left _ member) count keys
    rw [List.erase_append_left _ member] at dropped
    refine ⟨_, _, .unitless (dropped.congr fun n => ?_) (fun _ => rfl) fun complete => ?_⟩
    · simp [Fragment.toClause, params]
    · simp [tally, ← isSome, accounted.tally complete, counted' complete, Tally.add,
        Tally.withoutUnit, List.length_erase_of_mem member]

theorem listValues_splits {declared : Option Edm.Kind} {path : String} {values : List String}
    {cs : List Clause} (inRange : b.InRange)
    (h : listValues declared path values b = .ok (cs, b')) :
    ∃ written, b.Splits b' cs.flatten written [] ∧ written.length = values.length := by
  induction values generalizing b cs with
  | nil =>
    cases h
    exact ⟨[], .refl _ rfl, rfl⟩
  | cons value rest ih =>
    obtain ⟨-, -, ds, ran, rfl⟩ := listValues_cons_eq_ok.1 h
    have inRange₁ := (bindValue_grows (Literal.value value) b).inRange inRange
    obtain ⟨written, splits, length⟩ := ih inRange₁ ran
    refine ⟨_, (bindValue_splits inRange (Literal.value value)).append splits, ?_⟩
    simp [length]

theorem params_intercalate (cs : List Clause) :
    Clause.params (List.intercalate (Clause.ofString ",") cs) = Clause.params cs.flatten := by
  induction cs with
  | nil => rfl
  | cons c cs ih =>
    cases cs with
    | nil => simp
    | cons d ds =>
      rw [List.intercalate_cons_cons, List.flatten_cons, Clause.params_append, Clause.params_append,
        Clause.params_append, ih, Clause.params_ofString, List.append_nil]

theorem params_connected (e : Expr) (q : Fragment) :
    (connected e q).params = q.toClause.params := by
  unfold connected
  split <;> simp

theorem hasUnit_eq_false {e : Expr} (h : (Expr.group e).ungrouped.isCall = false) :
    c.hasUnit (.group e) = false := by
  unfold hasUnit
  split
  · next eq =>
    rw [eq] at h
    cases h
  · rfl

/-! ## The whole condition -/

/-- Every parameter that is bound for an expression is written in its clause or spare. -/
theorem operand_accounted (hidden : c.UnitsUnwritten) {e : Expr} {leading : Bool} {o : Operand}
    (inRange : b.InRange) (h : c.operand leading e b = .ok (o, b')) :
    ∃ written spare, c.Accounted leading e b b' o written spare := by
  induction e generalizing leading b b' o with
  | primary text =>
    simp only [operand, Compile.bind_eq_ok] at h
    obtain ⟨q, b₁, ran, h⟩ := h
    cases h
    obtain ⟨written, spare, splits, counted⟩ := primary_accounts inRange ran
    exact ⟨written, spare, .unitless splits (fun _ => rfl) counted⟩
  | call name args raw ih =>
    refine call_accounted hidden inRange (fun e member b b' o inRange ran => ?_) h
    obtain ⟨written, spare, accounted⟩ := ih e member inRange ran
    exact ⟨written, spare, accounted.splits, accounted.tally⟩
  | not e ih =>
    simp only [operand, Compile.bind_eq_ok] at h
    obtain ⟨inner, b₁, ran, h⟩ := h
    cases h
    obtain ⟨written, spare, accounted⟩ := ih inRange ran
    refine ⟨written, spare, .unitless (accounted.splits.congr fun n => ?_) (fun _ => rfl) ?_⟩
    · simp [Fragment.toClause]
    · exact accounted.tally
  | group e ih =>
    simp only [operand] at h
    split at h
    · next through =>
      obtain ⟨written, spare, accounted⟩ := ih inRange h
      exact ⟨written, spare, accounted.splits, accounted.unit_mem,
        fun _ => accounted.unit_isSome rfl, accounted.tally⟩
    · next other =>
      obtain ⟨inner, b₁, ran, h⟩ := Compile.bind_eq_ok.1 h
      cases h
      obtain ⟨written, spare, accounted⟩ := ih inRange ran
      refine ⟨written, spare, .unitless (accounted.splits.congr fun n => ?_) (fun leads => ?_) ?_⟩
      · simp [Fragment.toClause]
      · have notCall : e.ungrouped.isCall = false := by simpa [leads] using other
        exact hasUnit_eq_false notCall
      · exact accounted.tally
  | comparison op l r ihl ihr =>
    simp only [operand_comparison, Compile.bind_eq_ok] at h
    obtain ⟨left, b₁, ranl, right, b₂, ranr, compared⟩ := h
    have inRange₁ : b₁.InRange := (operand_grows ranl).1.inRange inRange
    obtain ⟨written, spare, accounted⟩ := ihl inRange ranl
    obtain ⟨written', spare', accounted'⟩ := ihr inRange₁ ranr
    exact comparison_accounted inRange accounted ⟨_, _, accounted'.splits, accounted'.tally⟩ compared
  | logical op l r ihl ihr =>
    simp only [operand, Compile.bind_eq_ok] at h
    obtain ⟨left, b₁, ranl, right, b₂, ranr, h⟩ := h
    cases h
    have inRange₁ : b₁.InRange := (operand_grows ranl).1.inRange inRange
    obtain ⟨written, spare, accounted⟩ := ihl inRange ranl
    obtain ⟨written', spare', accounted'⟩ := ihr inRange₁ ranr
    have both := accounted.splits.append accounted'.splits
    refine ⟨_, _, .unitless (both.congr fun n => ?_) (fun _ => rfl) fun complete => ?_⟩
    · simp [Fragment.toClause, params_connected]
    · simp [tally, accounted.tally complete, accounted'.tally complete, Tally.add]
  | inList l values ih =>
    simp only [operand, Compile.bind_eq_ok] at h
    obtain ⟨left, b₁, ran, cs, b₂, listed, h⟩ := h
    cases h
    have inRange₁ : b₁.InRange := (operand_grows ran).1.inRange inRange
    obtain ⟨written, spare, accounted⟩ := ih inRange ran
    obtain ⟨written', splits', length⟩ := listValues_splits inRange₁ listed
    have both := accounted.splits.append splits'
    refine ⟨_, _, .unitless (both.congr fun n => ?_) (fun _ => rfl) fun complete => ?_⟩
    · simp [Fragment.toClause, params_intercalate]
    · simp [tally, accounted.tally complete, length, Tally.add]

end Compiler

end FilterSql.Sql
