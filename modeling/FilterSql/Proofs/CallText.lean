import FilterSql.Proofs.Compile
import FilterSql.Proofs.Template

/-!
# The text of a call

A call writes those arguments that its template has a placeholder for. Which parameters it mentions
can be told from the arguments alone: adding a wildcard to one of them changes none.

## Main statements

* `Compiler.mem_params_callClause`: a call mentions the parameters of the arguments it writes.
* `wildcardArguments_params`: a wildcard changes no parameters, and not the unit of a distance.
-/

namespace FilterSql.Catalog

/-- The template of the function has a placeholder for the argument. -/
def SqlFunction.mentions (f : SqlFunction) (index : Nat) : Bool :=
  Sql.Template.slots f.template.toList |>.contains index

/-- No distance writes its unit. -/
def FunctionCatalog.HidesUnits (c : FunctionCatalog) : Prop :=
  ∀ f ∈ c.functions, f.isDistance = true → f.mentions 1 = false

instance (c : FunctionCatalog) : Decidable c.HidesUnits :=
  inferInstanceAs (Decidable (∀ f ∈ c.functions, f.isDistance = true → f.mentions 1 = false))

/-- Every function writes all of its arguments, except that a distance does not write its unit. -/
def FunctionCatalog.WritesArguments (c : FunctionCatalog) : Prop :=
  ∀ f ∈ c.functions, ∀ index < f.arity, f.mentions index = !(f.isDistance && index == 1)

instance (c : FunctionCatalog) : Decidable c.WritesArguments :=
  inferInstanceAs (Decidable (∀ f ∈ c.functions, ∀ index < f.arity,
    f.mentions index = !(f.isDistance && index == 1)))

end FilterSql.Catalog

namespace FilterSql.Sql

open FilterSql.Filter Catalog

/-! ## Arguments that are written -/

namespace Compiler

/-- The text of a call mentions the parameters of the argument. -/
def writesArgument (f : SqlFunction) (index : Nat) : Bool :=
  Template.slots (Text.replace "@srid" (toString Geodesy.storageSrid) f.template).toList
    |>.contains index

theorem writesArgument_of_mentions {f : SqlFunction} {index : Nat} (h : f.mentions index = true) :
    writesArgument f index = true := by
  simp only [SqlFunction.mentions, writesArgument, List.contains_iff_mem] at h ⊢
  exact Template.mem_slots_replace_of_mem h

theorem writesArgument_one {f : SqlFunction} (h : f.mentions 1 = false) :
    writesArgument f 1 = false := by
  rw [Bool.eq_false_iff] at h ⊢
  intro writes
  have slot := Template.mem_slots_of_mem_replace (by decide) (List.contains_iff_mem.1 writes)
  exact h (List.contains_iff_mem.2 slot)

/-- The arguments that the text of a call mentions, from the given index on. -/
def shown (f : SqlFunction) : Nat → List Fragment → Clause
  | _, [] => []
  | index, q :: qs => (if writesArgument f index then q.toClause else []) ++ shown f (index + 1) qs

theorem mem_params_shown {f : SqlFunction} {index n : Nat} {qs : List Fragment} :
    n ∈ (shown f index qs).params ↔
      ∃ i q, qs[i]? = some q ∧ writesArgument f (index + i) = true ∧ n ∈ q.toClause.params := by
  induction qs generalizing index with
  | nil => simp [shown]
  | cons q qs ih =>
    simp only [shown, Clause.params_append, List.mem_append, ih]
    constructor
    · rintro (member | ⟨i, q', at', writes, member⟩)
      · split at member
        · next writes => exact ⟨0, q, rfl, writes, member⟩
        · cases member
      · exact ⟨i + 1, q', by simpa using at', by rwa [Nat.add_right_comm] at writes, member⟩
    · rintro ⟨i, q', at', writes, member⟩
      cases i with
      | zero =>
        cases at'
        rw [Nat.add_zero] at writes
        exact .inl (by rwa [if_pos writes])
      | succ i =>
        refine .inr ⟨i, q', by simpa using at', ?_, member⟩
        rwa [Nat.add_right_comm]

theorem mem_params_callClause {f : SqlFunction} {qs : List Fragment} {n : Nat} :
    n ∈ (callClause f qs).params ↔ n ∈ (shown f 0 qs).params := by
  have filled : n ∈ (callClause f qs).params ↔ n ∈ (Template.fill
      (Text.replace "@srid" (toString Geodesy.storageSrid) f.template)
      (qs.map (·.toClause))).params := by
    simp only [callClause]
    split <;> simp
  rw [filled, Template.mem_params_fill, mem_params_shown]
  simp only [writesArgument, List.contains_iff_mem, List.getElem?_map, Option.map_eq_some_iff,
    Nat.zero_add]
  constructor
  · rintro ⟨i, slot, _, ⟨q, at', rfl⟩, member⟩
    exact ⟨i, q, at', slot, member⟩
  · rintro ⟨i, q, at', slot, member⟩
    exact ⟨i, slot, _, ⟨q, at', rfl⟩, member⟩

theorem unitOf_cons_eq_some {f : SqlFunction} {first second : Fragment} {others : List Fragment}
    {n : Nat} :
    unitOf f (first :: second :: others) = some n ↔ f.isDistance = true ∧ second = .param n := by
  rw [unitOf_eq_some]
  simp

end Compiler

/-! ## Wildcards -/

theorem params_concatenated (f : SqlFunction) (pattern : Fragment) :
    (wildcard.concatenated f pattern).toClause.params = pattern.toClause.params := by
  unfold wildcard.concatenated
  rcases f.wildcardSide with _ | (_ | _ | _) <;> simp [Fragment.toClause]

/-- A wildcard changes no parameters, and keeps a parameter that is bound. -/
theorem wildcard_params {f : SqlFunction} {pattern q : Fragment} {b b' : Bindings}
    (h : wildcard f pattern b = .ok (q, b')) :
    q.toClause.params = pattern.toClause.params ∧
      ((∀ n, pattern = .param n → n ∈ b.table.keys) →
        ∀ n, q = .param n ↔ pattern = .param n) := by
  by_cases bound : ∃ n value, pattern = .param n ∧ b.table.get? n = some value
  · obtain ⟨n, value, rfl, found⟩ := bound
    rw [wildcard_param found] at h
    cases h
    exact ⟨rfl, fun _ _ => Iff.rfl⟩
  · have unbound : ∀ n, pattern = .param n → b.table.get? n = none := fun n eq =>
      Option.eq_none_iff_forall_ne_some.2 fun value found => bound ⟨n, value, eq, found⟩
    rw [wildcard_unbound unbound] at h
    cases h
    refine ⟨params_concatenated f pattern, fun keys n => ?_⟩
    obtain ⟨c, clause⟩ := concatenated_eq_clause f pattern
    rw [clause]
    constructor
    · intro eq
      cases eq
    · intro eq
      obtain ⟨value, found⟩ := Table.exists_get?_of_mem (keys n eq)
      rw [unbound n eq] at found
      cases found

theorem wildcardArguments_params {f : SqlFunction} {qs qs' : List Fragment} {b b' : Bindings}
    (h : wildcardArguments f qs b = .ok (qs', b')) :
    qs'.map (·.toClause.params) = qs.map (·.toClause.params) ∧
      ((∀ q ∈ qs, ∀ n, q = .param n → n ∈ b.table.keys) →
        Compiler.unitOf f qs' = Compiler.unitOf f qs) := by
  unfold wildcardArguments at h
  split at h
  · next first second others =>
    split at h
    · obtain ⟨q, b₁, ran, h⟩ := Compile.bind_eq_ok.1 h
      cases h
      obtain ⟨params, same⟩ := wildcard_params ran
      refine ⟨by simp [params], fun keys => Option.ext fun n => ?_⟩
      rw [Compiler.unitOf_cons_eq_some, Compiler.unitOf_cons_eq_some]
      exact and_congr_right fun _ => same (keys second (by simp)) n
    · cases h
      exact ⟨rfl, fun _ => rfl⟩
  · cases h
    exact ⟨rfl, fun _ => rfl⟩

end FilterSql.Sql
