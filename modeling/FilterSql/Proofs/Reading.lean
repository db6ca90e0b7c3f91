import FilterSql.Parser

/-!
# What a parser reads

A language is a relation between runs of items and the values they stand for. A parser reads a
language if it takes a phrase of the language whenever it succeeds, and if it takes a given phrase
whenever the item after the phrase may follow one.

The second half needs the item that follows, since a parser that repeats goes on as long as it can.
It is also what makes a phrase the only one at the front of a run, in `Determined`.
-/

namespace FilterSql.Parser

variable {τ ε α β : Type}

/-- The phrases of `(separator item)*`. -/
inductive Repeated (separator : τ → Bool) (item : List τ → α → Prop) : List τ → List α → Prop
  | nil : Repeated separator item [] []
  | cons {t : τ} {ts us : List τ} {a : α} {as : List α} : separator t = true → item ts a →
    Repeated separator item us as → Repeated separator item (t :: (ts ++ us)) (a :: as)

/-- The phrases of `item (separator item)*`. -/
inductive Separated (separator : τ → Bool) (item : List τ → α → Prop) : List τ → α × List α → Prop
  | mk {ts us : List τ} {a : α} {as : List α} : item ts a → Repeated separator item us as →
    Separated separator item (ts ++ us) (a, as)

/-- The rest is empty or starts with an item that may follow. -/
def Before (follow : τ → Prop) (rest : List τ) : Prop := ∀ t ∈ rest.head?, follow t

theorem before_nil (follow : τ → Prop) : Before follow [] := nofun

theorem before_true (rest : List τ) : Before (fun _ => True) rest := fun _ _ => trivial

theorem before_cons {follow : τ → Prop} {t : τ} {rest : List τ} (h : follow t) :
    Before follow (t :: rest) := by
  intro u eq
  cases eq
  exact h

theorem Before.mono {follow follow' : τ → Prop} {rest : List τ} (h : Before follow rest)
    (le : ∀ t, follow t → follow' t) : Before follow' rest :=
  fun t head => le t (h t head)

/-- The parser takes the phrases of a language, where an item that may follow comes next. -/
structure Reads (p : Parser τ ε α) (language : List τ → α → Prop) (follow : τ → Prop) : Prop where
  sound : ∀ {items a rest}, p.run items = .ok (a, rest) →
    ∃ taken, items = taken ++ rest ∧ language taken a
  complete : ∀ {taken a rest}, language taken a → Before follow rest →
    p.run (taken ++ rest) = .ok (a, rest)

variable {separator : τ → Bool} {item : List τ → α → Prop} {p : Parser τ ε α} {follow : τ → Prop}

theorem Reads.congr {item' : List τ → α → Prop} (h : p.Reads item follow)
    (eq : ∀ ts a, item ts a ↔ item' ts a) : p.Reads item' follow where
  sound ran := by
    obtain ⟨taken, rfl, phrase⟩ := h.sound ran
    exact ⟨taken, rfl, (eq _ _).1 phrase⟩
  complete phrase next := h.complete ((eq _ _).2 phrase) next

theorem Reads.map (f : α → β) (h : p.Reads item follow) :
    (p.map f).Reads (fun ts b => ∃ a, item ts a ∧ b = f a) follow where
  sound {items b rest} ran := by
    simp only [Parser.map] at ran
    split at ran
    · next a rest' first =>
      cases ran
      obtain ⟨taken, rfl, phrase⟩ := h.sound first
      exact ⟨taken, rfl, a, phrase, rfl⟩
    · cases ran
  complete := by
    rintro taken _ rest ⟨a, phrase, rfl⟩ next
    simp only [Parser.map, h.complete phrase next]

/-! ## Repetitions -/

/-- A repetition starts with a separator, if it is not empty. -/
theorem Repeated.before {ts : List τ} {as : List α} {rest : List τ}
    (h : Repeated separator item ts as) (sep : ∀ t, separator t = true → follow t)
    (next : Before follow rest) : Before follow (ts ++ rest) := by
  cases h with
  | nil => exact next
  | cons isSep _ _ => exact before_cons (sep _ isSep)

/-- A property of the items may be moved out of a repetition. -/
theorem repeated_and_iff {P : α → Prop} {ts : List τ} {as : List α} :
    Repeated separator (fun ts a => item ts a ∧ P a) ts as ↔
      Repeated separator item ts as ∧ ∀ a ∈ as, P a := by
  constructor
  · intro h
    induction h with
    | nil => exact ⟨.nil, nofun⟩
    | cons isSep phrase _ ih =>
      exact ⟨.cons isSep phrase.1 ih.1, List.forall_mem_cons.2 ⟨phrase.2, ih.2⟩⟩
  · rintro ⟨h, all⟩
    induction h with
    | nil => exact .nil
    | cons isSep phrase _ ih =>
      obtain ⟨first, others⟩ := List.forall_mem_cons.1 all
      exact .cons isSep ⟨phrase, first⟩ (ih others)

theorem separated_and_iff {P : α → Prop} {ts : List τ} {a : α} {as : List α} :
    Separated separator (fun ts a => item ts a ∧ P a) ts (a, as) ↔
      Separated separator item ts (a, as) ∧ P a ∧ ∀ a ∈ as, P a := by
  constructor
  · rintro ⟨⟨phrase, first⟩, others⟩
    obtain ⟨others, all⟩ := repeated_and_iff.1 others
    exact ⟨.mk phrase others, first, all⟩
  · rintro ⟨⟨phrase, others⟩, first, all⟩
    exact .mk ⟨phrase, first⟩ (repeated_and_iff.2 ⟨others, all⟩)

theorem Repeated.forall {P : α → Prop} {ts : List τ} {as : List α}
    (h : Repeated separator item ts as) (imp : ∀ ts a, item ts a → P a) : ∀ a ∈ as, P a := by
  induction h with
  | nil => nofun
  | cons _ phrase _ ih => exact List.forall_mem_cons.2 ⟨imp _ _ phrase, ih⟩

theorem Separated.forall {P : α → Prop} {ts : List τ} {a : α} {as : List α}
    (h : Separated separator item ts (a, as)) (imp : ∀ ts a, item ts a → P a) :
    ∀ a' ∈ a :: as, P a' := by
  obtain ⟨phrase, others⟩ := h
  exact List.forall_mem_cons.2 ⟨imp _ _ phrase, others.forall imp⟩

theorem Reads.more_sound (h : p.Reads item follow) {items rest : List τ} {as : List α}
    (ran : more separator p items = .ok (as, rest)) :
    ∃ taken, items = taken ++ rest ∧ Repeated separator item taken as := by
  fun_induction more separator p items generalizing as rest with
  | case1 =>
    cases ran
    exact ⟨[], rfl, .nil⟩
  | case2 => cases ran
  | case3 => cases ran
  | case4 t items isSep a items' first as' rest' others ih =>
    cases ran
    obtain ⟨ts, rfl, phrase⟩ := h.sound first
    obtain ⟨us, rfl, repeated⟩ := ih others
    exact ⟨t :: (ts ++ us), by simp, .cons isSep phrase repeated⟩
  | case5 t items notSep =>
    cases ran
    exact ⟨[], rfl, .nil⟩

theorem more_cons_eq {t : τ} {items : List τ} (isSep : separator t = true) :
    more separator p (t :: items) = (p.run items).bind fun (a, items') =>
      (more separator p items').map fun (as, rest) => (a :: as, rest) := by
  rw [more, if_pos isSep]
  split
  · next ran =>
    rw [ran]
    rfl
  · next a items' ran =>
    rw [ran]
    simp only [Except.bind]
    cases more separator p items' <;> rfl

theorem more_cons {t : τ} {items items' : List τ} {a : α} (isSep : separator t = true)
    (first : p.run items = .ok (a, items')) :
    more separator p (t :: items) =
      (more separator p items').map fun (as, rest) => (a :: as, rest) := by
  rw [more_cons_eq isSep, first]
  rfl

theorem Reads.more_complete (h : p.Reads item follow) (sep : ∀ t, separator t = true → follow t)
    {taken rest : List τ} {as : List α} (phrases : Repeated separator item taken as)
    (next : Before (fun t => follow t ∧ separator t = false) rest) :
    more separator p (taken ++ rest) = .ok (as, rest) := by
  induction phrases with
  | nil =>
    cases rest with
    | nil => simp [more]
    | cons t rest =>
      have notSep := (next t rfl).2
      simp [more, notSep]
  | @cons t ts us a as isSep phrase repeated ih =>
    have first : p.run (ts ++ (us ++ rest)) = .ok (a, us ++ rest) :=
      h.complete phrase (repeated.before sep (next.mono fun _ h => h.1))
    rw [List.cons_append, List.append_assoc, more_cons isSep first, ih]
    rfl

theorem Reads.separated (h : p.Reads item follow) (sep : ∀ t, separator t = true → follow t) :
    (separated separator p).Reads (Separated separator item)
      (fun t => follow t ∧ separator t = false) where
  sound {items as rest} ran := by
    simp only [Parser.separated] at ran
    split at ran
    · cases ran
    · next a items' first =>
      split at ran
      · cases ran
      · next as others =>
        cases ran
        obtain ⟨ts, rfl, phrase⟩ := h.sound first
        obtain ⟨us, rfl, repeated⟩ := h.more_sound others
        exact ⟨ts ++ us, by simp, .mk phrase repeated⟩
  complete := by
    rintro _ _ rest ⟨phrase, repeated⟩ next
    have first := h.complete phrase (repeated.before sep (next.mono fun _ h => h.1))
    simp only [Parser.separated, List.append_assoc, first, h.more_complete sep repeated next]

/-! ## Languages read in one way -/

/-- A phrase of at most `n` items at the front of a run is the only one there, if what comes after it
may follow. -/
structure Determined (n : Nat) (language : List τ → α → Prop) (follow : τ → Prop) : Prop where
  unique : ∀ {ts us rest rest' a b}, ts.length ≤ n → language ts a → language us b →
    ts ++ rest = us ++ rest' → Before follow rest → Before follow rest' → ts = us ∧ a = b

theorem Determined.repeated {n : Nat} (h : Determined n item follow)
    (sep : ∀ t, separator t = true → follow t) :
    Determined n (Repeated separator item) (fun t => follow t ∧ separator t = false) := by
  constructor
  intro ts us rest rest' as bs short left right eq next next'
  induction left generalizing us bs with
  | nil =>
    cases right with
    | nil => exact ⟨rfl, rfl⟩
    | cons isSep _ _ =>
      subst eq
      have notSep := (next _ rfl).2
      rw [isSep] at notSep
      cases notSep
  | @cons t vs ws a as isSep phrase others ih =>
    simp only [List.length_cons, List.length_append] at short
    cases right with
    | nil =>
      subst eq
      have notSep := (next' _ rfl).2
      rw [isSep] at notSep
      cases notSep
    | @cons t' vs' ws' b bs isSep' phrase' others' =>
      simp only [List.cons_append, List.append_assoc, List.cons.injEq] at eq
      obtain ⟨rfl, eq⟩ := eq
      obtain ⟨rfl, rfl⟩ := h.unique (by omega) phrase phrase' eq
        (others.before sep (next.mono fun _ h => h.1))
        (others'.before sep (next'.mono fun _ h => h.1))
      obtain ⟨rfl, rfl⟩ := ih (by omega) others' (List.append_cancel_left eq)
      exact ⟨rfl, rfl⟩

theorem Determined.separated {n : Nat} (h : Determined n item follow)
    (sep : ∀ t, separator t = true → follow t) :
    Determined n (Separated separator item) (fun t => follow t ∧ separator t = false) := by
  constructor
  rintro _ _ rest rest' _ _ short ⟨phrase, others⟩ ⟨phrase', others'⟩ eq next next'
  rw [List.length_append] at short
  rw [List.append_assoc, List.append_assoc] at eq
  obtain ⟨rfl, rfl⟩ := h.unique (by omega) phrase phrase' eq
    (others.before sep (next.mono fun _ h => h.1))
    (others'.before sep (next'.mono fun _ h => h.1))
  obtain ⟨rfl, rfl⟩ := (h.repeated sep).unique (by omega) others others'
    (List.append_cancel_left eq) next next'
  exact ⟨rfl, rfl⟩

end FilterSql.Parser
