import FilterSql.Proofs.Printing

/-!
# The first token that does not fit

A reader that fails has read some tokens first. They can always be completed to a phrase; what it
fails on is the end of the run, or a token with which no phrase goes on. The second is seen from the
reader itself: it fails with the same error whatever comes after the token.

Phrases are counted by the levels that they nest, and a reader is given the levels that are left. So
everything is said of readers at all depths at once: a token that does not fit does not fit with
more levels either, unless the levels are what is missing.

## Main statements

* `Fault.lift`: a part of a run that fails makes the whole run fail, in the same way.
* `Locates.andThen`: readers that locate their errors may be put one after the other.
* `Locates.separated`, `Locates.closedList`: an item that locates its errors may be repeated.
-/

namespace FilterSql.Parser

variable {τ α : Type} {separator : τ → Bool} {item item' : List τ → α → Prop}

theorem Repeated.imp {ts : List τ} {as : List α} (h : Repeated separator item ts as)
    (imp : ∀ {us a}, item us a → item' us a) : Repeated separator item' ts as := by
  induction h with
  | nil => exact .nil
  | cons isSep phrase _ ih => exact .cons isSep (imp phrase) ih

theorem Separated.imp {ts : List τ} {as : α × List α} (h : Separated separator item ts as)
    (imp : ∀ {us a}, item us a → item' us a) : Separated separator item' ts as := by
  obtain ⟨phrase, others⟩ := h
  exact .mk (imp phrase) (others.imp imp)

end FilterSql.Parser

namespace FilterSql.Filter

open Text
open FilterSql.Parser (Separated Repeated)

/-! ## Lists that are opened -/

/-- The run ends with an operand and with what opens a list of values for it, the keyword and a
parenthesis. -/
def OpensList {π : Type} [Place π] (ts : List (Token π)) : Prop :=
  ∃ us operand e t p, ts = us ++ (operand ++ [t, p]) ∧ IsPrimary operand e ∧
    t.isKeyword "in" = true ∧ p.kind = .openParen

theorem OpensList.append {ts : List (Token Gap)} (h : OpensList ts) (us : List (Token Gap)) :
    OpensList (us ++ ts) := by
  obtain ⟨vs, operand, e, t, p, rfl, phrase, isIn, opens⟩ := h
  exact ⟨us ++ vs, operand, e, t, p, by simp, phrase, isIn, opens⟩

/-- The last tokens are the keyword and a parenthesis, whatever comes before them. -/
def EndsOpen (ts : List (Token Gap)) : Prop :=
  ∃ us t p, ts = us ++ [t, p] ∧ t.isKeyword "in" = true ∧ p.kind = .openParen

theorem OpensList.endsOpen {ts : List (Token Gap)} (h : OpensList ts) : EndsOpen ts := by
  obtain ⟨us, operand, e, t, p, rfl, -, isIn, opens⟩ := h
  exact ⟨us ++ operand, t, p, by simp, isIn, opens⟩

theorem endsOpen_concat_iff {ts : List (Token Gap)} {p : Token Gap} :
    EndsOpen (ts ++ [p]) ↔ (∃ t ∈ ts.getLast?, t.isKeyword "in" = true) ∧ p.kind = .openParen := by
  constructor
  · rintro ⟨us, t, q, eq, isIn, opens⟩
    rw [List.append_cons us t [q]] at eq
    obtain ⟨rfl, last⟩ := List.append_inj' eq rfl
    cases last
    exact ⟨⟨t, by simp, isIn⟩, opens⟩
  · rintro ⟨⟨t, last, isIn⟩, opens⟩
    obtain ⟨us, rfl⟩ := List.getLast?_eq_some_iff.1 last
    exact ⟨us, t, p, by simp, isIn, opens⟩

/-- An expression may come next: neither a list nor its parenthesis is awaited. -/
structure AwaitsExpr (before : List (Token Gap)) : Prop where
  notIn : ∀ t ∈ before.getLast?, t.isKeyword "in" = false
  notOpened : ¬EndsOpen before

theorem awaitsExpr_nil : AwaitsExpr [] where
  notIn := by simp
  notOpened := by
    rintro ⟨us, t, p, eq, -⟩
    simp at eq

theorem awaitsExpr_concat {t : Token Gap} (notIn : t.isKeyword "in" = false)
    (notOpen : t.kind ≠ .openParen) (before : List (Token Gap)) : AwaitsExpr (before ++ [t]) where
  notIn := by simpa using notIn
  notOpened h := notOpen (endsOpen_concat_iff.1 h).2

theorem AwaitsExpr.concat_openParen {before : List (Token Gap)} (h : AwaitsExpr before)
    {p : Token Gap} (opens : p.kind = .openParen) : AwaitsExpr (before ++ [p]) where
  notIn := by simpa using p.isKeyword_of_kind_ne (by simp [opens]) "in"
  notOpened opened := by
    obtain ⟨⟨t, last, isIn⟩, -⟩ := endsOpen_concat_iff.1 opened
    rw [h.notIn t last] at isIn
    cases isIn

/-- No list is opened at the end of the run, whatever comes before it. -/
def Sealed (ts : List (Token Gap)) : Prop := ∀ before, ¬EndsOpen (before ++ ts)

/-- No list is opened at the end of the run, where an expression starts with it. -/
def Closable (ts : List (Token Gap)) : Prop := ∀ before, AwaitsExpr before → ¬EndsOpen
    (before ++ ts)

theorem Sealed.append {ts : List (Token Gap)} (h : Sealed ts) (us : List (Token Gap)) : Sealed
    (us ++ ts) := by
  intro before
  rw [← List.append_assoc]
  exact h _

theorem Sealed.closable {ts : List (Token Gap)}
    (h : Sealed ts) : Closable ts := fun before _ => h before

theorem Closable.append {ts us : List (Token Gap)} (h : Closable ts)
    (awaits : ∀ before, AwaitsExpr before → AwaitsExpr (before ++ us)) : Closable (us ++ ts) := by
  intro before first
  rw [← List.append_assoc]
  exact h _ (awaits before first)

theorem Closable.sealed_cons {ts : List (Token Gap)} (h : Closable ts) {t : Token Gap}
    (awaits : ∀ before, AwaitsExpr (before ++ [t])) : Sealed (t :: ts) := by
  intro before
  rw [List.append_cons]
  exact h _ (awaits before)

theorem closable_nil : Closable [] := by
  intro before awaits
  rw [List.append_nil]
  exact awaits.notOpened

theorem sealed_concat {t : Token Gap} (notOpen : t.kind ≠ .openParen) (ts : List (Token Gap)) :
    Sealed (ts ++ [t]) := by
  intro before opened
  rw [← List.append_assoc] at opened
  exact notOpen (endsOpen_concat_iff.1 opened).2

/-! ## Faults -/

section Faults

variable {α β : Type}

/-- What a reader makes of a run of tokens, for each number of levels that may be left. -/
abbrev Descent (α : Type) := Nat → List (Token Gap) → Except SyntaxError (α × List (Token Gap))

/-- The tokens may be written after any others. -/
def Spaced (ts : List (Token Gap)) : Prop := ∀ t ∈ ts, t.IsRead ∧ t.place = " "

theorem spaced_nil : Spaced [] := by simp [Spaced]

/-- The run is the start of a phrase with at most `n` levels. -/
def Completes (language : Nat → List (Token Gap) → α → Prop) (n : Nat)
    (ts : List (Token Gap)) : Prop :=
  ∃ more a, Spaced more ∧ language n (ts ++ more) a

/-- More levels allow for more phrases. -/
def Grows (language : Nat → List (Token Gap) → α → Prop) : Prop :=
  ∀ {n m}, n ≤ m → ∀ {ts a}, language n ts a → language m ts a

variable {language : Nat → List (Token Gap) → α → Prop}
  {language' : Nat → List (Token Gap) → β → Prop}
  {closable closable' : List (Token Gap) → Prop} {read : Descent α} {read' : Descent β} {n k : Nat}

theorem completes_of_phrase {ts : List (Token Gap)} {a : α} (h : language n ts a) :
    Completes language n ts :=
  ⟨[], a, spaced_nil, by simpa using h⟩

theorem Completes.of_append {ts us : List (Token Gap)} (spaced : Spaced us)
    (h : Completes language n (ts ++ us)) : Completes language n ts := by
  obtain ⟨more, a, spaced', phrase⟩ := h
  exact ⟨us ++ more, a, List.forall_mem_append.2 ⟨spaced, spaced'⟩, by simpa using phrase⟩

theorem Completes.imp {ts us : List (Token Gap)} {f : α → β} (h : Completes language n ts)
    (phrase : ∀ {vs a}, language n vs a → language' k (us ++ vs) (f a)) :
    Completes language' k (us ++ ts) := by
  obtain ⟨more, a, spaced, first⟩ := h
  exact ⟨more, f a, spaced, by simpa using phrase first⟩

/-- How a token is refused that does not fit after those taken. The parenthesis that closes a list
where it opens is not quoted. Any other token is, and before a parenthesis that is quoted no list
opens, as far as `closable` tells. -/
inductive Misfit (closable : List (Token Gap) → Prop) (taken : List (Token Gap)) (t : Token Gap) :
    SyntaxError → Prop
  | stray : (t.kind = .closeParen → closable taken) →
    Misfit closable taken t (.unexpectedToken t.text)
  | emptyList : t.kind = .closeParen → OpensList taken → Misfit closable taken t .failedToParse

/-- Where and why the reading of a run fails with `n` levels left. The tokens taken are the start of
a phrase in each case. -/
inductive Fault (language : Nat → List (Token Gap) → α → Prop) (closable : List (Token Gap) → Prop)
    (read : Descent α) (n : Nat) : List (Token Gap) → SyntaxError → Prop
  /-- The run ends too early. -/
  | ended {taken : List (Token Gap)} : Completes language n taken →
    Fault language closable read n taken .failedToParse
  /-- The next token does not fit, with any number of levels. -/
  | misfit {taken rest : List (Token Gap)} {t : Token Gap} {err : SyntaxError} :
    Completes language n taken → Misfit closable taken t err →
    (∀ m, n ≤ m → ∀ rest, read m (taken ++ t :: rest) = .error err) →
    Fault language closable read n (taken ++ t :: rest) err
  /-- The next token fits with more levels only. -/
  | tooDeep {taken rest : List (Token Gap)} {t : Token Gap} {m : Nat} :
    Completes language n taken → t.kind ≠ .closeParen →
    (∀ rest, read n (taken ++ t :: rest) = .error (.tooDeep maxDepth)) →
    n ≤ m → Completes language m (taken ++ [t]) →
    Fault language closable read n (taken ++ t :: rest) (.tooDeep maxDepth)

theorem head?_append_cons (taken rest rest' : List (Token Gap)) (t : Token Gap) :
    (taken ++ t :: rest).head? = (taken ++ t :: rest').head? := by
  cases taken <;> rfl

theorem head?_append_congr (taken : List (Token Gap)) {rest rest' : List (Token Gap)}
    (h : rest.head? = rest'.head?) : (taken ++ rest).head? = (taken ++ rest').head? := by
  cases taken with
  | nil => exact h
  | cons => rfl

/-- A part of a run that fails makes the whole run fail. The part comes after `xs` and has `d`
levels less. -/
theorem Fault.lift {items : List (Token Gap)} {err : SyntaxError}
    (h : Fault language closable read n items err) (xs : List (Token Gap)) (d : Nat)
    (run : ∀ m, n ≤ m → ∀ items' e, items'.head? = items.head? → read m items' = .error e →
      read' (m + d) (xs ++ items') = .error e)
    (fill : ∀ m, n ≤ m → ∀ ts, Completes language m ts → Completes language' (m + d) (xs ++ ts))
    (close : ∀ taken t, (taken ++ [t]).head? = items.head? → t.kind = .closeParen →
      closable taken → closable' (xs ++ taken)) :
    Fault language' closable' read' (n + d) (xs ++ items) err := by
  cases h with
  | ended start => exact .ended (fill n (Nat.le_refl n) _ start)
  | @misfit taken rest t err start misfit fails =>
    rw [← List.append_assoc]
    refine .misfit (fill n (Nat.le_refl n) _ start) ?_ fun m le rest' => ?_
    · cases misfit with
      | stray ends =>
        exact .stray fun closes =>
          close taken t (head?_append_cons taken [] rest t) closes (ends closes)
      | emptyList closes opened => exact .emptyList closes (opened.append xs)
    · -- the part has been given `d` levels less than the whole
      obtain ⟨k, rfl⟩ : ∃ k, m = k + d := ⟨m - d, by omega⟩
      rw [List.append_assoc]
      exact run k (by omega) _ _ (head?_append_cons taken rest' rest t) (fails k (by omega) rest')
  | @tooDeep taken rest t m start notClose fails le deeper =>
    rw [← List.append_assoc]
    refine .tooDeep (fill n (Nat.le_refl n) _ start) notClose (fun rest' => ?_)
      (Nat.add_le_add_right le d) ?_
    · rw [List.append_assoc]
      exact run n (Nat.le_refl n) _ _ (head?_append_cons taken rest' rest t) (fails rest')
    · rw [List.append_assoc]
      exact fill m le _ deeper

/-! ## Located errors -/

/-- What a reading with `n` levels left does with a run: it takes a phrase, and takes it wherever
the same token comes next, or it fails at a token that does not fit. -/
inductive Located (language : Nat → List (Token Gap) → α → Prop)
    (closable : List (Token Gap) → Prop)
    (read : Descent α) (n : Nat) : List (Token Gap) → Except SyntaxError
    (α × List (Token Gap)) → Prop
  | ok {taken rest : List (Token Gap)} {a : α} : language n taken a →
    (∀ m, n ≤ m → ∀ rest', rest'.head? = rest.head? → read m (taken ++ rest') = .ok (a, rest')) →
    Located language closable read n (taken ++ rest) (.ok (a, rest))
  | error {items : List (Token Gap)} {err : SyntaxError} : Fault language closable read n items err →
    Located language closable read n items (.error err)

/-- The reading with `n` levels left locates its errors. -/
def Locates (language : Nat → List (Token Gap) → α → Prop) (closable : List (Token Gap) → Prop)
    (read : Descent α) (n : Nat) : Prop :=
  ∀ items, Located language closable read n items (read n items)

/-- The reading takes a phrase where this token comes next. -/
theorem Located.taking {taken rest : List (Token Gap)} {a : α} (phrase : language n taken a)
    (takes : ∀ m, n ≤ m → ∀ rest', rest'.head? = rest.head? →
      read m (taken ++ rest') = .ok (a, rest')) :
    Located language closable read n (taken ++ rest) (read n (taken ++ rest)) := by
  rw [takes n (Nat.le_refl n) rest rfl]
  exact .ok phrase takes

theorem Located.stops {items : List (Token Gap)} {a : α} (phrase : language n [] a)
    (takes : ∀ m, n ≤ m → ∀ rest, rest.head? = items.head? → read m rest = .ok (a, rest)) :
    Located language closable read n items (read n items) :=
  taking phrase takes

theorem Located.single {t : Token Gap} {items : List (Token Gap)} {a : α}
    (phrase : language n [t] a)
    (takes : ∀ m, n ≤ m → ∀ rest, rest.head? = items.head? → read m (t :: rest) = .ok (a, rest)) :
    Located language closable read n (t :: items) (read n (t :: items)) :=
  taking phrase takes

/-- The reading fails at the first token. -/
theorem Located.refused {t : Token Gap} {items : List (Token Gap)} {err : SyntaxError}
    (start : Completes language n []) (misfit : Misfit closable [] t err)
    (fails : ∀ m, n ≤ m → ∀ rest, read m (t :: rest) = .error err) :
    Located language closable read n (t :: items) (read n (t :: items)) := by
  rw [fails n (Nat.le_refl n) items]
  exact .error (.misfit start misfit fails)

theorem Located.failed {items : List (Token Gap)} {err : SyntaxError}
    (ran : read n items = .error err) (fault : Fault language closable read n items err) :
    Located language closable read n items (read n items) := by
  rw [ran]
  exact .error fault

/-- A run that is read like a part of it, which comes after `xs` and has `d` levels less. -/
theorem Located.lift {items : List (Token Gap)} {f : α → β}
    (h : Located language closable read n items (read n items)) (xs : List (Token Gap)) (d : Nat)
    (run : ∀ m, n ≤ m → ∀ items', items'.head? = items.head? →
      read' (m + d) (xs ++ items') = (read m items').map fun r => (f r.1, r.2))
    (phrase : ∀ m, n ≤ m → ∀ {ts a}, language m ts a → language' (m + d) (xs ++ ts) (f a))
    (close : ∀ taken t, (taken ++ [t]).head? = items.head? → t.kind = .closeParen →
      closable taken → closable' (xs ++ taken)) :
    Located language' closable' read' (n + d) (xs ++ items) (read' (n + d) (xs ++ items)) := by
  rw [run n (Nat.le_refl n) items rfl]
  generalize read n items = result at h
  cases h with
  | @ok taken rest a first takes =>
    rw [← List.append_assoc]
    refine .ok (phrase n (Nat.le_refl n) first) fun m le rest' next => ?_
    obtain ⟨k, rfl⟩ : ∃ k, m = k + d := ⟨m - d, by omega⟩
    rw [List.append_assoc, run k (by omega) _ (head?_append_congr taken next),
      takes k (by omega) rest' next]
    rfl
  | error fault =>
    refine .error (fault.lift xs d (fun m le items' e head failed => ?_)
      (fun m le ts start => start.imp (phrase m le)) close)
    rw [run m le items' head, failed]
    rfl

theorem Locates.imp {f : α → β} (h : Locates language closable read n)
    (run : ∀ m items, read' m items = (read m items).map fun r => (f r.1, r.2))
    (phrase : ∀ m, n ≤ m → ∀ {ts a}, language m ts a → language' m ts (f a))
    (close : ∀ {ts}, closable ts → closable' ts) : Locates language' closable' read' n :=
  fun items => (h items).lift [] 0 (fun m _ items' _ => run m items') phrase
    fun _ _ _ _ => close

/-- One reading after another. -/
def Descent.andThen (first : Descent α) (second : α → Descent β) : Descent β := fun n items =>
  match first n items with
  | .error e => .error e
  | .ok (a, rest) => second a n rest

theorem Locates.andThen {γ : Type} {language₂ : α → Nat → List (Token Gap) → γ → Prop}
    {language₃ : Nat → List (Token Gap) → γ → Prop} {closable₂ closable₃ : List (Token Gap) → Prop}
    {second : α → Descent γ} (first : Locates language closable read n)
    (others : ∀ a, Locates (language₂ a) closable₂ (second a) n)
    (join : ∀ m, n ≤ m → ∀ {ts us a c}, language n ts a → language₂ a m us c →
      language₃ m (ts ++ us) c)
    (fill : ∀ m, n ≤ m → ∀ {ts a}, language m ts a → Completes language₃ m ts)
    (close : ∀ {ts}, closable ts → closable₃ ts)
    (close₂ : ∀ {ts us a}, language n ts a → closable₂ us → closable₃ (ts ++ us)) :
    Locates language₃ closable₃ (Descent.andThen read second) n := by
  intro items
  have outcome := first items
  have ran : Descent.andThen read second n items = match read n items with
    | .error e => .error e
    | .ok (a, rest) => second a n rest := rfl
  rw [ran]
  generalize read n items = result at outcome
  cases outcome with
  | error fault =>
    refine .error (fault.lift [] 0 (fun m _ items' e _ failed => ?_)
      (fun m le ts start => ?_) fun _ _ _ _ => close)
    · simp only [List.nil_append, Nat.add_zero, Descent.andThen, failed]
    · obtain ⟨more, a, spaced, phrase⟩ := start
      exact (fill m le phrase).of_append spaced
  | @ok taken rest a phrase takes =>
    have further := others a rest
    dsimp only
    generalize second a n rest = result at further
    cases further with
    | error fault =>
      refine .error (fault.lift taken 0 (fun m le items' e head failed => ?_)
        (fun m le ts start => ?_) fun us _ _ _ => close₂ phrase)
      · simp only [Nat.add_zero, Descent.andThen, takes m le items' head, failed]
      · obtain ⟨more, c, spaced, phrase₂⟩ := start
        exact ⟨more, c, spaced, by simpa using join m le phrase phrase₂⟩
    | @ok taken₂ rest c phrase₂ takes₂ =>
      rw [← List.append_assoc]
      refine .ok (join n (Nat.le_refl n) phrase phrase₂) fun m le rest' next => ?_
      rw [List.append_assoc, Descent.andThen,
        takes m le _ (head?_append_congr taken₂ next)]
      exact takes₂ m le rest' next

end Faults

/-! ## Single tokens -/

def nameToken : Token Gap := ⟨" ", .word, "x"⟩

def openToken : Token Gap := ⟨" ", .openParen, "("⟩

def closeToken : Token Gap := ⟨" ", .closeParen, ")"⟩

theorem spaced_cons {t : Token Gap} {ts : List (Token Gap)} (lexeme : ∃ continues,
    Lexeme t.kind t.text.toList continues) (gap : t.place = " ") (h : Spaced ts) :
    Spaced (t :: ts) :=
  List.forall_mem_cons.2 ⟨⟨⟨by simpa [gap] using isBlank_of_mem_space, lexeme⟩, gap⟩, h⟩

theorem Spaced.name {ts : List (Token Gap)} (h : Spaced ts) : Spaced (nameToken :: ts) :=
  spaced_cons (isRead_of_isPlainWord (w := "x") (by decide) isBlank_of_mem_space).lexeme rfl h

theorem Spaced.opening {ts : List (Token Gap)} (h : Spaced ts) : Spaced (openToken :: ts) :=
  spaced_cons ⟨_, .openParen⟩ rfl h

theorem Spaced.closing {ts : List (Token Gap)} (h : Spaced ts) : Spaced (closeToken :: ts) :=
  spaced_cons ⟨_, .closeParen⟩ rfl h

/-- The parenthesis that closes a phrase. -/
def closing {α : Type} (a : α) : Descent α := fun _ ts =>
  match expect .closeParen ts with
  | .error e => .error e
  | .ok rest => .ok (a, rest)

/-- A parenthesis, which stands for the given value. -/
def IsClosing {α : Type} (a : α) (ts : List (Token Gap)) (b : α) : Prop :=
  ∃ q : Token Gap, ts = [q] ∧ q.kind = .closeParen ∧ b = a

theorem closing_locates {α : Type} (a : α) (n : Nat) :
    Locates (fun _ => IsClosing a) (fun _ => False) (closing a) n := by
  have start : Completes (fun _ => IsClosing a) n [] :=
    ⟨[closeToken], a, spaced_nil.closing, _, rfl, rfl, rfl⟩
  rintro (_ | ⟨t, ts⟩)
  · exact .error (.ended start)
  · by_cases closes : t.kind = .closeParen
    · exact .single ⟨t, rfl, closes, rfl⟩ fun m _ rest _ => by simp [closing, expect, closes]
    · exact .refused start (.stray closes) fun m _ rest => by simp [closing, expect, closes]

/-! ## Lists -/

section Lists

variable {α : Type} {language : Nat → List (Token Gap) → α → Prop}
  {closable : List (Token Gap) → Prop}
  {item : Nat → Reader Gap α} {separator : Token Gap → Bool} {n : Nat}

/-- Items after separators. An item that fails there comes after a separator, so that no list is
opened before it. -/
theorem Locates.more (h : Locates language closable (fun m => (item m).run) n)
    (grows : Grows language) (close : ∀ {ts}, closable ts → Closable ts)
    (separates : ∀ t, separator t = true → ∀ before, AwaitsExpr (before ++ [t])) :
    Locates (fun m => Repeated separator (language m)) Sealed
      (fun m => Parser.more separator (item m)) n := by
  intro items
  -- each item takes a token at least, so what is left to repeat on is shorter
  induction length : items.length using Nat.strongRecOn generalizing items with
  | ind size ih =>
    cases items with
    | nil =>
      refine .stops .nil fun m _ rest next => ?_
      rw [List.head?_eq_none_iff.1 next, Parser.more]
    | cons t items =>
      cases isSep : separator t with
      | false =>
        refine .stops .nil fun m _ rest next => ?_
        obtain ⟨us, rfl⟩ := List.head?_eq_some_iff.1 next
        rw [Parser.more, if_neg (by simp [isSep])]
      | true =>
        have first : Located language closable _ n items ((item n).run items) := h items
        generalize ran : (item n).run items = result at first
        cases first with
        | @error items err fault =>
          have failed : ∀ m e items', (item m).run items' = .error e →
              Parser.more separator (item m) (t :: items') = .error e := by
            intro m e items' failed
            rw [Parser.more_cons_eq isSep, failed]
            rfl
          refine .failed (failed n err items ran) (fault.lift [t] 0
            (fun m _ items' e _ => failed m e items') (fun m _ ts start => ?_)
            fun taken _ _ _ closes => (close closes).sealed_cons (separates t isSep))
          obtain ⟨more, a, spaced, phrase⟩ := start
          exact ⟨more, [a], spaced, by simpa using Repeated.cons isSep phrase .nil⟩
        | @ok taken rest a phrase takes =>
          have shorter := (item n).consumes ran
          have further := ih rest.length (by simp at length; omega) rest rfl
          exact further.lift (t :: taken) 0
            (fun m le items' next => Parser.more_cons isSep (takes m le items' next))
            (fun m le us as others => .cons isSep (grows le phrase) others)
            fun us _ _ _ closes => closes.append (t :: taken)

/-- Items with separators between them. -/
theorem Locates.separated (h : Locates language closable (fun m => (item m).run) n)
    (grows : Grows language) (close : ∀ {ts}, closable ts → Closable ts)
    (ofSealed : ∀ {ts}, Sealed ts → closable ts)
    (separates : ∀ t, separator t = true → ∀ before, AwaitsExpr (before ++ [t])) :
    Locates (fun m => Separated separator (language m)) closable
      (fun m => (Parser.separated separator (item m)).run) n := by
  have others : ∀ a : α, Locates
      (fun m us as => ∃ as', Repeated separator (language m) us as' ∧ as = (a, as')) Sealed
      (fun m items => (Parser.more separator (item m) items).map fun r => ((a, r.1), r.2)) n :=
    fun a => (h.more grows close separates).imp (fun _ _ => rfl)
      (fun m _ ts as phrases => ⟨as, phrases, rfl⟩) id
  have eq : (fun m => (Parser.separated separator (item m)).run) =
      Descent.andThen (fun m => (item m).run) fun a m items =>
        (Parser.more separator (item m) items).map fun r => ((a, r.1), r.2) := by
    funext m items
    simp only [Parser.separated, Descent.andThen]
    rcases (item m).run items with _ | ⟨a, rest⟩
    · rfl
    · dsimp only
      rcases Parser.more separator (item m) rest with _ | ⟨as, rest'⟩ <;> rfl
  rw [eq]
  refine h.andThen others ?_ ?_ id fun _ closes => ofSealed (closes.append _)
  · rintro m le ts us a _ phrase ⟨as, phrases, rfl⟩
    exact .mk (grows le phrase) phrases
  · intro m le ts a phrase
    exact completes_of_phrase (by simpa using Separated.mk phrase .nil)

/-- The phrases of `item ("," item)* ")"`. -/
def IsClosedList (phrase : List (Token Gap) → α → Prop) (ts : List (Token Gap))
    (as : List α) : Prop :=
  ∃ us q a as', ts = us ++ [q] ∧ as = a :: as' ∧ Separated isComma phrase us (a, as') ∧
    q.kind = .closeParen

theorem awaitsExpr_concat_comma {t : Token Gap} (h : isComma t = true) (before : List (Token Gap)) :
    AwaitsExpr (before ++ [t]) := by
  have kind : t.kind = .comma := by simpa [isComma] using h
  exact awaitsExpr_concat (t.isKeyword_of_kind_ne (by simp [kind]) _) (by simp [kind]) before

theorem Locates.closedList (h : Locates language closable (fun m => (item m).run) n)
    (grows : Grows language) (close : ∀ {ts}, closable ts → Closable ts)
    (ofSealed : ∀ {ts}, Sealed ts → closable ts) :
    Locates (fun m => IsClosedList (language m)) closable
      (fun m => Filter.closedList (item m)) n := by
  have eq : (fun m => Filter.closedList (item m)) =
      Descent.andThen (fun m => (Parser.separated isComma (item m)).run)
        fun r => closing (r.1 :: r.2) := by
    funext m items
    simp only [Filter.closedList, Descent.andThen, closing]
    rcases (Parser.separated isComma (item m)).run items with _ | ⟨⟨a, as⟩, rest⟩
    · rfl
    · dsimp only
      cases expect .closeParen rest <;> rfl
  rw [eq]
  refine (h.separated grows close ofSealed fun _ => awaitsExpr_concat_comma).andThen
    (fun r => closing_locates (r.1 :: r.2) n) ?_ ?_ id
    fun _ closes => closes.elim
  · rintro m le ts _ ⟨a, as⟩ _ phrases ⟨q, rfl, closes, rfl⟩
    exact ⟨ts, q, a, as, rfl, rfl, phrases.imp (grows le), closes⟩
  · rintro m le ts ⟨a, as⟩ phrases
    exact ⟨[closeToken], a :: as, spaced_nil.closing, ts, _, a, as, rfl, rfl, phrases, rfl⟩

end Lists

theorem within_grows (phrase : List (Token Gap) → Expr → Prop) : Grows (fun n => Within n phrase) :=
  fun le _ _ h => ⟨h.1, Nat.le_trans h.2 le⟩

end FilterSql.Filter
