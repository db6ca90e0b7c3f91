/-!
# Parsers that consume

A parser takes items off the front of a list, or fails. Every parser takes at least one item, which
is why a repetition of it ends.
-/

namespace FilterSql

/-- A parser of items `τ` with results `α` and failures `ε`. -/
structure Parser (τ ε α : Type) where
  run : List τ → Except ε (α × List τ)
  consumes : ∀ {items a rest}, run items = .ok (a, rest) → rest.length < items.length

namespace Parser

variable {τ ε α β : Type}

/-- The same parser with its result changed. -/
def map (f : α → β) (p : Parser τ ε α) : Parser τ ε β where
  run items := match p.run items with
    | .ok (a, rest) => .ok (f a, rest)
    | .error e => .error e
  consumes {items b rest} h := by
    split at h
    · next a rest' ran =>
      have := p.consumes ran
      simp only [Except.ok.injEq, Prod.mk.injEq] at h
      exact h.2 ▸ this
    · simp at h

/-- Further items, each after a separator, as long as separators follow. -/
def more (separator : τ → Bool) (item : Parser τ ε α) (items : List τ) :
    Except ε (List α × List τ) :=
  match items with
  | [] => .ok ([], [])
  | t :: rest =>
    if separator t then
      match _ran : item.run rest with
      | .error e => .error e
      | .ok (a, rest') =>
        match more separator item rest' with
        | .error e => .error e
        | .ok (as, rest'') => .ok (a :: as, rest'')
    else .ok ([], t :: rest)
termination_by items.length
decreasing_by
  have := item.consumes _ran
  simp only [List.length_cons]
  omega

theorem length_of_more {separator : τ → Bool} {item : Parser τ ε α} {items rest : List τ}
    {as : List α} (h : more separator item items = .ok (as, rest)) :
    rest.length ≤ items.length := by
  fun_induction more separator item items generalizing as rest with
  | case1 => simp_all
  | case2 => simp at h
  | case3 => simp_all
  | case4 t tail _ a rest' ran bs rest'' more_ran ih =>
    have := item.consumes ran
    have := ih more_ran
    simp only [Except.ok.injEq, Prod.mk.injEq] at h
    simp only [List.length_cons]
    grind
  | case5 => simp_all

/-- One or more items with separators between them. -/
def separated (separator : τ → Bool) (item : Parser τ ε α) : Parser τ ε (α × List α) where
  run items := match item.run items with
    | .error e => .error e
    | .ok (a, rest) =>
      match more separator item rest with
      | .error e => .error e
      | .ok (as, rest) => .ok ((a, as), rest)
  consumes {items b rest} h := by
    split at h
    · simp at h
    · next a rest' ran =>
      have := item.consumes ran
      split at h
      · simp at h
      · next as rest'' more_ran =>
        have := length_of_more more_ran
        simp only [Except.ok.injEq, Prod.mk.injEq] at h
        grind

end Parser

end FilterSql
