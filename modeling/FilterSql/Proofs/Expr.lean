import FilterSql.Filter.Expr
import Mathlib.Data.List.Forall2

/-!
# Induction over expressions

The arguments of a call are a list of expressions. The principle below gives the induction hypothesis
for the members of that list. After it come the parts of an expression, and trees of one shape.
-/

namespace FilterSql.Filter.Expr

@[induction_eliminator]
theorem induction {P : Expr → Prop} (primary : ∀ text, P (.primary text))
    (call : ∀ name args raw, (∀ arg ∈ args, P arg) → P (.call name args raw))
    (not : ∀ e, P e → P (.not e)) (group : ∀ e, P e → P (.group e))
    (comparison : ∀ op l r, P l → P r → P (.comparison op l r))
    (logical : ∀ op l r, P l → P r → P (.logical op l r))
    (inList : ∀ l values, P l → P (.inList l values)) (e : Expr) : P e := by
  refine @Expr.rec P (fun args => ∀ arg ∈ args, P arg) primary call not group comparison logical
    inList ?_ ?_ e
  · simp
  · intro arg args first others
    simpa using ⟨first, others⟩

/-- The expression `u` stands somewhere in an expression. -/
inductive Subterm (u : Expr) : Expr → Prop
  | self : Subterm u u
  | argument {name raw : String} {args : List Expr} {arg : Expr} : arg ∈ args → Subterm u arg →
    Subterm u (.call name args raw)
  | negated {e : Expr} : Subterm u e → Subterm u (.not e)
  | grouped {e : Expr} : Subterm u e → Subterm u (.group e)
  | compareLeft {op : String} {l r : Expr} : Subterm u l → Subterm u (.comparison op l r)
  | compareRight {op : String} {l r : Expr} : Subterm u r → Subterm u (.comparison op l r)
  | connectLeft {op : Connective} {l r : Expr} : Subterm u l → Subterm u (.logical op l r)
  | connectRight {op : Connective} {l r : Expr} : Subterm u r → Subterm u (.logical op l r)
  | listed {l : Expr} {values : List String} : Subterm u l → Subterm u (.inList l values)

theorem Subterm.trans {u v e : Expr} (h : Subterm u v) (g : Subterm v e) : Subterm u e := by
  induction g with
  | self => exact h
  | argument member _ ih => exact .argument member ih
  | negated _ ih => exact .negated ih
  | grouped _ ih => exact .grouped ih
  | compareLeft _ ih => exact .compareLeft ih
  | compareRight _ ih => exact .compareRight ih
  | connectLeft _ ih => exact .connectLeft ih
  | connectRight _ ih => exact .connectRight ih
  | listed _ ih => exact .listed ih

theorem subterm_ungrouped (e : Expr) : Subterm e.ungrouped e := by
  induction e with
  | group e ih => exact .grouped ih
  | primary | call | not | comparison | logical | inList => exact .self

/-- Trees of one shape with the same operators, whose leaves, function names and call texts are
related. -/
inductive Alike (leaf name text : String → String → Prop) : Expr → Expr → Prop
  | primary {s s' : String} : leaf s s' → Alike leaf name text (.primary s) (.primary s')
  | call {f f' raw raw' : String} {args args' : List Expr} : name f f' →
    List.Forall₂ (Alike leaf name text) args args' → text raw raw' →
    Alike leaf name text (.call f args raw) (.call f' args' raw')
  | not {e e' : Expr} : Alike leaf name text e e' → Alike leaf name text (.not e) (.not e')
  | group {e e' : Expr} : Alike leaf name text e e' → Alike leaf name text (.group e) (.group e')
  | comparison {op : String} {l l' r r' : Expr} : Alike leaf name text l l' →
    Alike leaf name text r r' → Alike leaf name text (.comparison op l r) (.comparison op l' r')
  | logical {op : Connective} {l l' r r' : Expr} : Alike leaf name text l l' →
    Alike leaf name text r r' → Alike leaf name text (.logical op l r) (.logical op l' r')
  | inList {l l' : Expr} {values values' : List String} : Alike leaf name text l l' →
    List.Forall₂ leaf values values' →
    Alike leaf name text (.inList l values) (.inList l' values')

theorem Alike.eq {e e' : Expr} (h : Alike (· = ·) (· = ·) (· = ·) e e') : e = e' := by
  induction e generalizing e' with
  | primary s =>
    cases h with
    | primary same => rw [same]
  | call f args raw ih =>
    cases h with
    | @call _ _ _ _ _ args' name arguments text =>
      have same : args = args' := by
        induction arguments with
        | nil => rfl
        | cons first _ more =>
          obtain ⟨ihFirst, ih⟩ := List.forall_mem_cons.1 ih
          rw [ihFirst first, more ih]
      rw [name, same, text]
  | not e ih =>
    cases h with
    | not inner => rw [ih inner]
  | group e ih =>
    cases h with
    | group inner => rw [ih inner]
  | comparison op l r ihl ihr =>
    cases h with
    | comparison left right => rw [ihl left, ihr right]
  | logical op l r ihl ihr =>
    cases h with
    | logical left right => rw [ihl left, ihr right]
  | inList l values ih =>
    cases h with
    | inList left same =>
      rw [List.forall₂_eq_eq_eq] at same
      rw [ih left, same]

end FilterSql.Filter.Expr
