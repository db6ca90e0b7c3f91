import Mathlib.Data.List.Forall2

/-!
# Results and first errors

A computation that may fail is described by the results that are meant and by all errors that it could
report, in order: it succeeds with just those results, and it fails with the first of the errors. Steps
that follow each other report the errors of the first one before those of the next one, and a step for
each member of a list reports in the order of the list.

## Main statements

* `Yields.bind`, `Yields.mapM`: steps that report in order.
* `head?_flatMap_failures`: the first error is that of the first member that fails.
-/

namespace FilterSql

variable {ε α β : Type}

/-- The computation succeeds with just the results that are meant, and fails with the first of the
errors. -/
structure Yields (x : Except ε α) (meant : α → Prop) (errors : List ε) : Prop where
  ok_iff : ∀ a, x = .ok a ↔ meant a
  error_iff : ∀ e, x = .error e ↔ errors.head? = some e

namespace Yields

variable {x : Except ε α} {meant meant' : α → Prop} {errors later : List ε}

theorem congr (h : Yields x meant errors) (same : ∀ a, meant a ↔ meant' a) :
    Yields x meant' errors where
  ok_iff a := (h.ok_iff a).trans (same a)
  error_iff := h.error_iff

theorem exists_ok_iff (h : Yields x meant errors) : (∃ a, x = .ok a) ↔ errors = [] := by
  rw [← List.head?_eq_none_iff]
  cases x with
  | ok a =>
    have none : errors.head? = none := Option.eq_none_iff_forall_ne_some.2 fun e first => by
      simpa using (h.error_iff e).2 first
    simp [none]
  | error e => simp [(h.error_iff e).1 rfl]

theorem ok (a : α) : Yields (.ok a : Except ε α) (a = ·) [] where
  ok_iff b := by simp
  error_iff e := by simp

theorem error (e : ε) : Yields (.error e : Except ε α) (fun _ => False) [e] where
  ok_iff b := by simp
  error_iff e' := by simp

/-- The errors of the first step come before those of the next one. -/
theorem bind {f : α → Except ε β} {result : α → β → Prop} (first : Yields x meant errors)
    (next : ∀ a, meant a → Yields (f a) (result a) later) :
    Yields (x >>= f) (fun b => ∃ a, meant a ∧ result a b) (errors ++ later) := by
  cases x with
  | ok a =>
    have here : ∀ a', meant a' ↔ a = a' := fun a' => by simp [← first.ok_iff]
    have none : errors = [] := first.exists_ok_iff.1 ⟨a, rfl⟩
    change Yields (f a) _ _
    simpa [here, none] using next a ((here a).2 rfl)
  | error e =>
    have head : errors.head? = some e := (first.error_iff e).1 rfl
    have never : ∀ a, ¬meant a := fun a result => by simpa using (first.ok_iff a).2 result
    change Yields (.error e) _ _
    exact ⟨by simp [never], by simp [List.head?_append, head]⟩

theorem map {f : α → β} (first : Yields x meant errors) :
    Yields (x >>= fun a => .ok (f a)) (fun b => ∃ a, meant a ∧ f a = b) errors := by
  simpa using first.bind fun a _ => ok (f a)

/-- The errors at the members of a list come in its order. -/
theorem mapM {f : α → Except ε β} {results : α → β → Prop} {errors : α → List ε} {as : List α}
    (h : ∀ a ∈ as, Yields (f a) (results a) (errors a)) :
    Yields (as.mapM f) (List.Forall₂ results as) (as.flatMap errors) := by
  induction as with
  | nil => exact (ok []).congr (by simp [eq_comm])
  | cons a as ih =>
    obtain ⟨here, others⟩ := List.forall_mem_cons.1 h
    rw [List.mapM_cons, List.flatMap_cons]
    refine (here.bind fun b _ => (ih others).map).congr fun bs => ?_
    rw [List.forall₂_cons_left_iff]
    constructor
    · rintro ⟨b, first, bs, rest, rfl⟩
      exact ⟨b, bs, first, rest, rfl⟩
    · rintro ⟨b, bs, first, rest, rfl⟩
      exact ⟨b, first, bs, rest, rfl⟩

end Yields

/-! ## A function on each member of a list -/

/-- The error of a computation that fails. -/
def failures : Except ε α → List ε
  | .ok _ => []
  | .error e => [e]

theorem yields_self (x : Except ε α) : Yields x (x = .ok ·) (failures x) := by
  cases x with
  | ok a => exact (Yields.ok a).congr (by simp)
  | error e => exact (Yields.error e).congr (by simp)

theorem failures_eq_nil_iff {x : Except ε α} : failures x = [] ↔ ∃ a, x = .ok a :=
  (yields_self x).exists_ok_iff.symm

/-- The first error is that of the first member that fails. -/
theorem head?_flatMap_failures {f : α → Except ε β} {as : List α} {e : ε} :
    (as.flatMap fun a => failures (f a)).head? = some e ↔
      ∃ before a after, as = before ++ a :: after ∧ (∀ b ∈ before, ∃ r, f b = .ok r) ∧
        f a = .error e := by
  have first : ∀ a, (failures (f a)).head? = some e ↔ f a = .error e := fun a =>
    ((yields_self (f a)).error_iff e).symm
  simp only [List.head?_flatMap, List.findSome?_eq_some_iff, first, List.head?_eq_none_iff,
    failures_eq_nil_iff, and_comm]

end FilterSql
