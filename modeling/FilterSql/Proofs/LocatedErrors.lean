import FilterSql.Proofs.Misfits

/-!
# Readers locate their errors

Every reader of the grammar takes a phrase, or fails at the first token with which no phrase goes
on. A reader looks at the tokens from left to right and at one token after a phrase, which is the
reason: what it has taken when it fails is the start of a phrase, and what comes later is not looked
at.

Only a word is looked at together with the next token, as it may be the name of a call. A call that
is nested too deeply fails at its parenthesis, since the word alone would be an operand.

## Main statements

* `primary_locates`, `comparison_locates`, `exprOver_locates`: the readers of each rule locate their
  errors if those one level further down do.
* `unary_locates`: the readers of every depth do.
* `Expr.ofTokens_fault`: tokens that are not a filter have a fault.
-/

namespace FilterSql.Filter

open Text
open FilterSql.Parser (Separated Repeated separated_single_iff)

/-- The readers of a rule locate their errors. -/
abbrev LocatesRule (phrase : List (Token Gap) → Expr → Prop) (reader : Nat → Reader Gap Expr)
    (n : Nat) :
    Prop :=
  Locates (fun m => Within m phrase) Closable (fun m => (reader m).run) n

/-! ## Operands -/

/-- The readers one level further down, of which there are none below the last level. -/
def levelBelow (read : Nat → Reader Gap Expr) : Nat → Except SyntaxError (Reader Gap Expr)
  | 0 => .error (.tooDeep maxDepth)
  | n + 1 => .ok (read n)

theorem isExpr_nameToken : IsExpr [nameToken] (.primary "x") :=
  isExpr_primary_iff.2 ⟨nameToken, rfl, rfl, .inl ⟨rfl, by decide⟩⟩

theorem isPrimary_nameToken (n : Nat) : Within n IsPrimary [nameToken] (.primary "x") :=
  ⟨.word ⟨rfl, by decide⟩, Nat.zero_le n⟩

section Operands

variable {expr : Nat → Reader Gap Expr} {n : Nat} {name p : Token Gap}

/-- The phrases of `(expr ("," expr)*)? ")"`. -/
def IsArguments (n : Nat) (ts : List (Token Gap)) (args : List Expr) : Prop :=
  IsClosing [] ts args ∨ IsClosedList (Within n IsExpr) ts args

theorem arguments_locates (h : LocatesRule IsExpr expr n) :
    Locates IsArguments Closable (fun m => arguments (expr m)) n := by
  intro items
  by_cases closes : items.head?.map (·.kind) = some .closeParen
  · obtain ⟨q, first, isClose⟩ := Option.map_eq_some_iff.1 closes
    obtain ⟨us, rfl⟩ := List.head?_eq_some_iff.1 first
    exact .single (.inl ⟨q, rfl, isClose, rfl⟩) fun m _ rest _ => arguments_nil (expr m) isClose
  · refine (h.closedList (within_grows IsExpr) id Sealed.closable items).lift [] 0
      (fun m _ items' head => ?_) (fun m _ ts args phrases => .inr phrases) fun _ _ _ _ => id
    rw [List.nil_append, Nat.add_zero, arguments_eq, head, if_neg closes]
    cases closedList (expr m) items' <;> rfl

theorem IsArguments.isPrimary {ts : List (Token Gap)} {args : List Expr} (h : IsArguments n ts args)
    (isName : name.IsName) (opens : p.kind = .openParen) :
    Within (n + 1) IsPrimary (name :: p :: ts)
      (.call name.text args (name.text ++ Token.sourceOf (p :: ts))) := by
  rcases h with ⟨q, rfl, closes, rfl⟩ | ⟨us, q, arg, others, rfl, rfl, phrases, closes⟩
  · exact ⟨.emptyCall isName opens closes, Nat.succ_le_succ (Nat.zero_le n)⟩
  · obtain ⟨phrases, nesting⟩ := separated_within_iff.1 phrases
    exact ⟨.call isName opens phrases closes,
      Nat.succ_le_succ (Expr.nestingOf_le_iff.2 (List.forall_mem_cons.2 nesting))⟩

/-- The text of a call depends on what is taken, so it is not a result that is changed only. -/
theorem callRest_locates (isName : name.IsName) (opens : p.kind = .openParen)
    (h : LocatesRule IsExpr expr n) :
    Locates (fun m ts => Within (m + 1) IsPrimary (name :: p :: ts)) Closable
      (fun m => callRest (expr m) name p) n := by
  intro items
  have first : Located _ _ _ n items (arguments (expr n) items) := arguments_locates h items
  generalize ran : arguments (expr n) items = result at first
  cases first with
  | @error items err fault =>
    have failed : ∀ m e items', arguments (expr m) items' = .error e →
        callRest (expr m) name p items' = .error e := fun m e items' failed => by
      simp only [callRest, failed]
    refine .failed (failed n err items ran) (fault.lift [] 0
      (fun m _ items' e _ => failed m e items') (fun m _ ts start => ?_) fun _ _ _ _ => id)
    obtain ⟨more, args, spaced, phrases⟩ := start
    exact ⟨more, _, spaced, phrases.isPrimary isName opens⟩
  | @ok taken rest args phrases takes =>
    change Located _ _ _ n _ (callRest (expr n) name p (taken ++ rest))
    rw [callRest_eq ran]
    exact .ok (phrases.isPrimary isName opens) fun m le rest' next =>
      callRest_eq (takes m le rest' next)

theorem group_locates (opens : p.kind = .openParen) (h : LocatesRule IsExpr expr n) :
    Locates (fun m ts => Within (m + 1) IsPrimary (p :: ts)) Closable
      (Descent.andThen (fun m => (expr m).run) fun e => closing (.group e)) n := by
  refine h.andThen (fun e => closing_locates (Expr.group e) n) ?_ ?_ id
    fun _ closes => closes.elim
  · rintro m le ts _ e _ phrase ⟨q, rfl, closes, rfl⟩
    exact ⟨.group opens phrase.1 closes, Nat.succ_le_succ (Nat.le_trans phrase.2 le)⟩
  · rintro m le ts e phrase
    exact ⟨[closeToken], .group e, spaced_nil.closing, .group opens phrase.1 rfl,
      Nat.succ_le_succ phrase.2⟩

section Cases

-- the readers one level further down, if there is one
variable (h : ∀ k, n = k + 1 → LocatesRule IsExpr expr k) {t : Token Gap}

include h

theorem group_located (opens : t.kind = .openParen) (items : List (Token Gap)) :
    Located (fun m => Within m IsPrimary) Closable (fun m => (primary (levelBelow expr m)).run) n
      (t :: items) ((primary (levelBelow expr n)).run (t :: items)) := by
  cases n with
  | zero =>
    have start : Completes (fun m => Within m IsPrimary) 0 [] :=
      ⟨[nameToken], _, spaced_nil.name, isPrimary_nameToken 0⟩
    have deeper : Completes (fun m => Within m IsPrimary) 1 ([] ++ [t]) :=
      ⟨[nameToken, closeToken], _, spaced_nil.closing.name, .group opens isExpr_nameToken rfl,
        Nat.le_refl 1⟩
    have fails : ∀ rest, (primary (levelBelow expr 0)).run ([] ++ t :: rest) =
        .error (.tooDeep maxDepth) := fun rest => by
      simp [primary, primaryRun, opens, levelBelow]
    exact .failed (fails items) (.tooDeep start (by simp [opens]) fails (Nat.zero_le 1) deeper)
  | succ k =>
    refine (group_locates opens (h k rfl) items).lift [t] 1 (fun m _ items' _ => ?_)
      (fun m _ ts e phrase => phrase) fun taken _ _ _ closes =>
        closes.append fun _ awaits => awaits.concat_openParen opens
    simp only [primary, primaryRun, List.singleton_append, opens, levelBelow, Descent.andThen,
      closing]
    rcases (expr m).run items' with _ | ⟨e, rest⟩
    · rfl
    · dsimp only
      cases expect .closeParen rest <;> rfl

/-- A name that a parenthesis follows is that of a call. With no level left the name is taken, and the
parenthesis does not fit. -/
theorem call_located (isName : t.IsName) {p : Token Gap} (opens : p.kind = .openParen)
    (items : List (Token Gap)) :
    Located (fun m => Within m IsPrimary) Closable (fun m => (primary (levelBelow expr m)).run) n
      (t :: p :: items) ((primary (levelBelow expr n)).run (t :: p :: items)) := by
  have run : ∀ m rest, (primary (levelBelow expr m)).run ([t, p] ++ rest) =
      (levelBelow expr m).bind fun expr => callRest expr t p rest := by
    intro m rest
    simp only [primary, primaryRun, List.cons_append, List.nil_append, isName.word,
      isName.notReserved, opens, if_true, Bool.false_eq_true, if_false]
    cases levelBelow expr m <;> rfl
  cases n with
  | zero =>
    have start : Completes (fun m => Within m IsPrimary) 0 [t] :=
      completes_of_phrase ⟨.word isName, Nat.zero_le 0⟩
    have deeper : Completes (fun m => Within m IsPrimary) 1 ([t] ++ [p]) :=
      ⟨[closeToken], _, spaced_nil.closing, .emptyCall isName opens rfl, Nat.le_refl 1⟩
    exact .failed (run 0 items) (.tooDeep start (by simp [opens]) (run 0) (Nat.zero_le 1) deeper)
  | succ k =>
    refine (callRest_locates isName opens (h k rfl) items).lift [t, p] 1
      (fun m _ items' _ => ?_) (fun m _ ts e phrase => phrase)
      fun taken _ _ _ closes => closes.append fun before awaits => ?_
    · rw [run, levelBelow, Except.bind]
      cases callRest (expr m) t p items' <;> rfl
    · have name := awaitsExpr_concat (isName.isKeyword_eq_false (by decide))
        (by simp [isName.word]) before
      simpa using name.concat_openParen opens

theorem primary_locates : LocatesRule IsPrimary (fun m => primary (levelBelow expr m)) n := by
  have start : Completes (fun m => Within m IsPrimary) n [] :=
    ⟨[nameToken], _, spaced_nil.name, isPrimary_nameToken n⟩
  rintro (_ | ⟨t, items⟩)
  · exact .error (.ended start)
  · cases kind : t.kind with
    | literal =>
      exact .single ⟨.literal kind, Nat.zero_le n⟩ fun m _ rest _ => by
        simp [primary, primaryRun, kind]
    | closeParen | comma =>
      exact .refused start (.stray fun _ => closable_nil) fun m _ rest => by
        simp [primary, primaryRun, kind]
    | openParen => exact group_located h kind items
    | word =>
      cases reserved : t.isReserved with
      | true =>
        exact .refused start (.stray (by simp [kind])) fun m _ rest => by
          simp [primary, primaryRun, kind, reserved]
      | false =>
        have alone : Within n IsPrimary [t] (.primary t.text) :=
          ⟨.word ⟨kind, reserved⟩, Nat.zero_le n⟩
        rcases items with _ | ⟨p, items⟩
        · refine .single alone fun m _ rest next => ?_
          rw [List.head?_eq_none_iff.1 next]
          simp [primary, primaryRun, kind, reserved]
        · by_cases opens : p.kind = .openParen
          · exact call_located h ⟨kind, reserved⟩ opens items
          · refine .single alone fun m _ rest next => ?_
            obtain ⟨us, rfl⟩ := List.head?_eq_some_iff.1 next
            simp [primary, primaryRun, kind, reserved, opens]

end Cases

end Operands

/-! ## Comparisons -/

/-- A list that is not closed where it opens ends with no list opened. -/
def ClosableList (ts : List (Token Gap)) : Prop := ts ≠ [] → Sealed ts

theorem ClosableList.closable {ts : List (Token Gap)} (h : ClosableList ts) : Closable ts := by
  by_cases empty : ts = []
  · exact empty ▸ closable_nil
  · exact (h empty).closable

theorem listValue_locates (n : Nat) :
    Locates (fun _ => IsListValue) ClosableList (fun _ => listValue.run) n := by
  have start : Completes (fun _ => IsListValue) n [] :=
    ⟨[nameToken], _, spaced_nil.name, .mk (.inl rfl)⟩
  rintro (_ | ⟨t, items⟩)
  · exact .error (.ended start)
  · by_cases kind : t.kind = .word ∨ t.kind = .literal
    · exact .single (.mk kind) fun m _ rest _ => by simp [listValue, kind]
    · exact .refused start (.stray fun _ empty => absurd rfl empty) fun m _ rest => by
        simp [listValue, kind]

theorem listValues_locates (n : Nat) :
    Locates (fun _ => IsClosedList IsListValue) ClosableList
      (fun _ => closedList listValue) n :=
  (listValue_locates n).closedList (fun _ _ _ h => h) ClosableList.closable fun h _ => h

theorem isClosedList_nameToken : IsClosedList IsListValue [nameToken, closeToken] ["x"] :=
  ⟨[nameToken], closeToken, "x", [], rfl, rfl, separated_single_iff.2 (.mk (.inl rfl)), rfl⟩

section Comparisons

variable {operand : Nat → Reader Gap Expr} {n : Nat} {left : Expr} {taken : List (Token Gap)}
  {t : Token Gap}

theorem IsClosedList.isComparison {p : Token Gap} {ts : List (Token Gap)} {values : List String}
    (h : IsClosedList IsListValue ts values) (phrase : Within n IsPrimary taken left)
    (isIn : t.isKeyword "in" = true) (opens : p.kind = .openParen) :
    Within n IsComparison (taken ++ [t, p] ++ ts) (.inList left values) := by
  obtain ⟨us, q, value, others, rfl, rfl, phrases, closes⟩ := h
  rw [List.append_assoc]
  exact ⟨.inList phrase.1 isIn opens phrases closes, phrase.2⟩

section Rest

-- the left operand is taken, and the operator or the keyword `t` comes next
variable (phrase : Within n IsPrimary taken left)
  (run : ∀ m, n ≤ m → ∀ rest, (comparison (operand m)).run (taken ++ t :: rest) =
    comparisonRest (operand m) left (t :: rest))

include phrase run

theorem operator_located (h : LocatesRule IsPrimary operand n) {op : String}
    (found : t.comparisonOperator? = some op) (items : List (Token Gap)) :
    Located (fun m => Within m IsComparison) Closable (fun m => (comparison (operand m)).run) n
      (taken ++ t :: items) ((comparison (operand n)).run (taken ++ t :: items)) := by
  obtain ⟨member, isOp⟩ := Token.comparisonOperator?_eq_some_iff.1 found
  have notIn : t.isKeyword "in" = false := by
    have other : ∀ op ∈ comparisonOperators, sameName op "in" = false := by decide
    exact Token.isKeyword_eq_false isOp (other op member)
  have awaits := awaitsExpr_concat notIn (by simp [Token.kind_of_isKeyword isOp])
  rw [List.append_cons]
  refine (h items).lift (f := .comparison op left) (taken ++ [t]) 0 (fun m le items' _ => ?_)
    (fun m le ts right phrase' => ?_) fun us _ _ _ closes => ?_
  · rw [← List.append_cons, Nat.add_zero, run m le, comparisonRest, found]
    cases (operand m).run items' <;> rfl
  · rw [← List.append_cons]
    exact ⟨.operator phrase.1 member isOp phrase'.1,
      Nat.max_le.2 ⟨Nat.le_trans phrase.2 le, phrase'.2⟩⟩
  · rw [← List.append_cons]
    exact ((closes.sealed_cons awaits).append taken).closable

variable (isIn : t.isKeyword "in" = true)

include isIn

omit phrase in
theorem comparison_in_eq {m : Nat} (le : n ≤ m) (rest : List (Token Gap)) :
    (comparison (operand m)).run (taken ++ [t] ++ rest) =
      (listValues.run rest).map fun r => (.inList left r.1, r.2) := by
  rw [← List.append_cons, run m le, comparisonRest,
    t.comparisonOperator?_of_isKeyword isIn (by decide)]
  simp only [isIn, if_true]
  cases listValues.run rest <;> rfl

/-- The list is open. If it is closed there, it is refused; otherwise an error is one of its
values. -/
theorem openList_located {p : Token Gap} (opens : p.kind = .openParen) (items : List (Token Gap)) :
    Located (fun m => Within m IsComparison) Closable (fun m => (comparison (operand m)).run) n
      (taken ++ [t, p] ++ items) ((comparison (operand n)).run (taken ++ [t, p] ++ items)) := by
  have opened : ∀ m, n ≤ m → ∀ rest, (comparison (operand m)).run (taken ++ [t, p] ++ rest) =
      (if rest.head?.map (·.kind) = some .closeParen then .error .failedToParse
        else closedList listValue rest).map fun r => (.inList left r.1, r.2) := by
    intro m le rest
    have ran := comparison_in_eq run isIn le (p :: rest)
    rw [listValues_run_eq, expect_eq_ok_iff.2 ⟨p, rfl, opens⟩] at ran
    simpa using ran
  by_cases closes : items.head?.map (·.kind) = some .closeParen
  · obtain ⟨q, first, isClose⟩ := Option.map_eq_some_iff.1 closes
    obtain ⟨us, rfl⟩ := List.head?_eq_some_iff.1 first
    have start : Completes (fun m => Within m IsComparison) n (taken ++ [t, p]) :=
      ⟨[nameToken, closeToken], _, spaced_nil.closing.name,
        isClosedList_nameToken.isComparison phrase isIn opens⟩
    have fails : ∀ m, n ≤ m → ∀ rest,
        (comparison (operand m)).run (taken ++ [t, p] ++ q :: rest) = .error .failedToParse := by
      intro m le rest
      rw [opened m le, if_pos (by simp [isClose])]
      rfl
    exact .failed (fails n (Nat.le_refl n) us) (.misfit start
      (.emptyList isClose ⟨[], taken, left, t, p, rfl, phrase.1, isIn, opens⟩) fails)
  · refine (listValues_locates n items).lift (taken ++ [t, p]) 0 (fun m le items' head => ?_)
      (fun m le ts values phrases => phrases.isComparison (within_grows IsPrimary le phrase) isIn
        opens) fun us q head isClose ends => ?_
    · rw [Nat.add_zero, opened m le, head, if_neg closes]
    · -- what is taken of the list is not empty, as the list is not closed where it opens
      refine ((ends fun empty => closes ?_).append _).closable
      rw [← head, empty]
      simp [isClose]

theorem inList_located (items : List (Token Gap)) :
    Located (fun m => Within m IsComparison) Closable (fun m => (comparison (operand m)).run) n
      (taken ++ t :: items) ((comparison (operand n)).run (taken ++ t :: items)) := by
  have start : Completes (fun m => Within m IsComparison) n (taken ++ [t]) :=
    ⟨[openToken, nameToken, closeToken], _, spaced_nil.closing.name.opening, by
      simpa using isClosedList_nameToken.isComparison phrase isIn (p := openToken) rfl⟩
  rw [List.append_cons]
  rcases items with _ | ⟨p, items⟩
  · rw [List.append_nil]
    refine .failed ?_ (.ended start)
    have ran := comparison_in_eq run isIn (Nat.le_refl n) []
    rwa [List.append_nil] at ran
  by_cases opens : p.kind = .openParen
  · have eq : taken ++ [t] ++ p :: items = taken ++ [t, p] ++ items := by simp
    rw [eq]
    exact openList_located phrase run isIn opens items
  · have fails : ∀ m, n ≤ m → ∀ rest, (comparison (operand m)).run (taken ++ [t] ++ p :: rest) =
        .error (.unexpectedToken p.text) := by
      intro m le rest
      rw [comparison_in_eq run isIn le, listValues_run_eq]
      simp only [expect, opens, if_false]
      rfl
    have notOpen : t.kind ≠ .openParen := by simp [Token.kind_of_isKeyword isIn]
    exact .failed (fails n (Nat.le_refl n) items)
      (.misfit start (.stray fun _ => (sealed_concat notOpen taken).closable) fails)

end Rest

theorem comparison_locates (h : LocatesRule IsPrimary operand n) :
    LocatesRule IsComparison (fun m => comparison (operand m)) n := by
  intro items
  have first : Located (fun m => Within m IsPrimary) Closable _ n items ((operand n).run items) :=
    h items
  generalize ran : (operand n).run items = result at first
  cases first with
  | @error items err fault =>
    have failed : ∀ m e items', (operand m).run items' = .error e →
        (comparison (operand m)).run items' = .error e := fun m e items' failed => by
      simp only [comparison, failed]
    exact .failed (failed n err items ran) (fault.lift [] 0
      (fun m _ items' e _ => failed m e items')
      (fun m _ ts start => start.imp fun phrase => ⟨.primary phrase.1, phrase.2⟩) fun _ _ _ _ => id)
  | @ok taken rest left phrase takes =>
    have run : ∀ m, n ≤ m → ∀ rest', rest'.head? = rest.head? →
        (comparison (operand m)).run (taken ++ rest') = comparisonRest (operand m) left rest' := by
      intro m le rest' next
      simp only [comparison, takes m le rest' next]
    have alone : Within n IsComparison taken left := ⟨.primary phrase.1, phrase.2⟩
    rcases rest with _ | ⟨t, items⟩
    · refine .taking alone fun m le rest' next => ?_
      rw [run m le rest' next, List.head?_eq_none_iff.1 next, comparisonRest]
    · cases found : t.comparisonOperator? with
      | some op => exact operator_located phrase (fun m le rest => run m le _ rfl) h found items
      | none =>
        cases isIn : t.isKeyword "in" with
        | true => exact inList_located phrase (fun m le rest => run m le _ rfl) isIn items
        | false =>
          refine .taking alone fun m le rest' next => ?_
          rw [run m le rest' next]
          obtain ⟨us, rfl⟩ := List.head?_eq_some_iff.1 next
          simp [comparisonRest, found, isIn]

end Comparisons

/-! ## Chains and negations -/

theorem chain_locates {operand : Nat → Reader Gap Expr}
    {phrase phrase' : List (Token Gap) → Expr → Prop}
    {n : Nat} (op : Connective) (h : LocatesRule phrase operand n)
    (join : ∀ {ts e es}, Separated (·.isKeyword op.text) phrase ts (e, es) →
      phrase' ts (es.foldl (.logical op) e)) :
    LocatesRule phrase' (fun m => chain op (operand m)) n := by
  have awaits : ∀ t : Token Gap, t.isKeyword op.text = true →
      ∀ before, AwaitsExpr (before ++ [t]) := by
    intro t isOp
    refine awaitsExpr_concat (t.isKeyword_eq_false isOp ?_) (by simp [Token.kind_of_isKeyword isOp])
    cases op <;> decide
  refine (h.separated (within_grows phrase) id Sealed.closable awaits).imp
    (f := fun r => r.2.foldl (.logical op) r.1) (fun m items => ?_)
    (fun m _ ts as phrases => ?_) id
  · simp only [chain, Parser.map]
    generalize (Parser.separated _ (operand m)).run items = result
    rcases result with _ | ⟨r, rest⟩ <;> rfl
  · obtain ⟨phrases, nesting⟩ := separated_within_iff.1 phrases
    exact ⟨join phrases, Expr.nesting_foldl_le_iff.2 nesting⟩

theorem exprOver_locates {operand : Nat → Reader Gap Expr} {n : Nat}
    (h : LocatesRule IsUnary operand n) :
    LocatesRule IsExpr (fun m => exprOver (operand m)) n :=
  chain_locates .or (chain_locates .and h IsConjunct.mk) IsExpr.mk

theorem isUnary_nameToken (n : Nat) : Within n IsUnary [nameToken] (.primary "x") :=
  ⟨.comparison (.primary (isPrimary_nameToken n).1), (isPrimary_nameToken n).2⟩

theorem unaryWith_locates {read : Nat → Reader Gap Expr} {n : Nat}
    (h : ∀ k, n = k + 1 → LocatesRule IsUnary read k) :
    LocatesRule IsUnary (fun m => unaryWith (levelBelow read m)) n := by
  have start : Completes (fun m => Within m IsUnary) n [] :=
    ⟨[nameToken], _, spaced_nil.name, isUnary_nameToken n⟩
  rintro (_ | ⟨t, items⟩)
  · exact .error (.ended start)
  · cases isNot : t.isKeyword "not" with
    | true =>
      have kind := Token.kind_of_isKeyword isNot
      cases n with
      | zero =>
        have deeper : Completes (fun m => Within m IsUnary) 1 ([] ++ [t]) :=
          ⟨[nameToken], _, spaced_nil.name, .not isNot (isUnary_nameToken 0).1, Nat.le_refl 1⟩
        have fails : ∀ rest, (unaryWith (levelBelow read 0)).run ([] ++ t :: rest) =
            .error (.tooDeep maxDepth) := fun rest => by simp [unaryWith, isNot, levelBelow]
        exact .failed (fails items)
          (.tooDeep start (by simp [kind]) fails (Nat.zero_le 1) deeper)
      | succ k =>
        have awaits := awaitsExpr_concat (t.isKeyword_eq_false isNot (by decide)) (by simp [kind])
        refine (h k rfl items).lift (f := .not) [t] 1 (fun m _ items' _ => ?_)
          (fun m _ ts e phrase => ?_)
          fun taken _ _ _ closes => closes.append fun before _ => awaits before
        · simp only [unaryWith, List.singleton_append, isNot, if_true, levelBelow]
          cases (read m).run items' <;> rfl
        · exact ⟨.not isNot phrase.1, Nat.succ_le_succ phrase.2⟩
    | false =>
      have inner := comparison_locates (primary_locates fun k eq => exprOver_locates (h k eq))
      refine (inner (t :: items)).lift [] 0 (fun m _ items' head => ?_)
        (fun m _ ts e phrase => ⟨.comparison phrase.1, phrase.2⟩) fun _ _ _ _ => id
      obtain ⟨us, rfl⟩ := List.head?_eq_some_iff.1 head
      have deeper : (levelBelow read m).map exprOver =
          levelBelow (fun m => exprOver (read m)) m := by
        cases m <;> rfl
      simp only [unaryWith, List.nil_append, Nat.add_zero, isNot, Bool.false_eq_true, if_false,
        deeper]
      cases (comparison (primary (levelBelow (fun m => exprOver (read m)) m))).run (t :: us) <;> rfl

/-- The readers of every depth locate their errors. -/
theorem unary_locates (n : Nat) : LocatesRule IsUnary unary n := by
  have eq : unary = fun m => unaryWith (levelBelow unary m) := by
    funext m
    cases m <;> rfl
  induction n with
  | zero =>
    rw [eq]
    exact unaryWith_locates fun k contra => nomatch contra
  | succ n ih =>
    rw [eq]
    refine unaryWith_locates fun k same => ?_
    cases same
    exact ih

/-! ## Whole filters -/

theorem IsPrimary.isSealed {ts : List (Token Gap)} {e : Expr} (h : IsPrimary ts e) : Sealed ts := by
  cases h with
  | @group p q ts e _ _ closes => exact sealed_concat (by simp [closes]) (p :: ts)
  | @emptyCall name p q _ _ closes => exact sealed_concat (by simp [closes]) [name, p]
  | @call name p q ts _ _ _ _ _ closes =>
    exact sealed_concat (by simp [closes]) (name :: p :: ts)
  | word isName => exact sealed_concat (by simp [isName.word]) []
  | literal isLiteral => exact sealed_concat (by simp [isLiteral]) []

theorem IsUnary.isSealed {ts : List (Token Gap)} {e : Expr} (h : IsUnary ts e) : Sealed ts := by
  -- a negation ends like what it negates, which is a shorter run
  induction ts generalizing e with
  | nil =>
    obtain ⟨t, us, eq, -⟩ := h.starts
    cases eq
  | cons t ts ih =>
    cases h with
    | not _ inner => exact (ih inner).append [t]
    | comparison h =>
      generalize t :: ts = run at h
      cases h with
      | primary h => exact h.isSealed
      | operator _ _ _ right => exact (right.isSealed.append [_]).append _
      | @inList t p q ts us _ _ _ _ _ _ _ closes =>
        have last := sealed_concat (t := q) (by simp [closes]) (ts ++ t :: p :: us)
        simpa using last

theorem isSealed_of_separated {α : Type} {separator : Token Gap → Bool}
    {item : List (Token Gap) → α → Prop} (last : ∀ {ts a}, item ts a → Sealed ts)
    {ts : List (Token Gap)} {as : α × List α} (h : Separated separator item ts as) : Sealed ts := by
  have further : ∀ {us as}, Repeated separator item us as → us = [] ∨ Sealed us := by
    intro us as h
    induction h with
    | nil => exact .inl rfl
    | @cons t ts us _ _ _ phrase _ ih =>
      rcases ih with rfl | ends
      · rw [List.append_nil]
        exact .inr ((last phrase).append [t])
      · exact .inr (ends.append (t :: ts))
  obtain @⟨ts, us, _, _, phrase, others⟩ := h
  rcases further others with rfl | ends
  · rw [List.append_nil]
    exact last phrase
  · exact ends.append ts

theorem IsExpr.isSealed {ts : List (Token Gap)} {e : Expr} (h : IsExpr ts e) : Sealed ts := by
  have conjunct : ∀ {ts e}, IsConjunct ts e → Sealed ts := by
    rintro ts _ ⟨phrases⟩
    exact isSealed_of_separated IsUnary.isSealed phrases
  obtain ⟨phrases⟩ := h
  exact isSealed_of_separated conjunct phrases

/-- The end of a run. -/
def endOfRun (e : Expr) : Descent Expr
  | _, [] => .ok (e, [])
  | _, t :: _ => .error (.unexpectedToken t.text)

theorem endOfRun_locates (e : Expr) (n : Nat) :
    Locates (fun _ ts e' => ts = [] ∧ e' = e) (fun ts => ts = []) (endOfRun e) n := by
  rintro (_ | ⟨t, items⟩)
  · refine .stops ⟨rfl, rfl⟩ fun m _ rest next => ?_
    rw [List.head?_eq_none_iff.1 next, endOfRun]
  · exact .refused (completes_of_phrase ⟨rfl, rfl⟩) (.stray fun _ => rfl) fun m _ rest => rfl

/-- Reads a run that is an expression as a whole. -/
def readFilter : Descent Expr := Descent.andThen (fun m => (exprOver (unary m)).run) endOfRun

theorem readFilter_locates (n : Nat) :
    Locates (fun m => Within m IsExpr) Closable readFilter n := by
  refine (exprOver_locates (unary_locates n)).andThen (fun e => endOfRun_locates e n) ?_
    (fun m _ ts e phrase => completes_of_phrase phrase) id ?_
  · rintro m le ts _ e _ phrase ⟨rfl, rfl⟩
    rw [List.append_nil]
    exact within_grows IsExpr le phrase
  · rintro ts _ e phrase rfl
    rw [List.append_nil]
    exact phrase.1.isSealed.closable

theorem readFilter_eq_ok_iff {n : Nat} {ts : List (Token Gap)} {e : Expr} :
    readFilter n ts = .ok (e, []) ↔ (exprOver (unary n)).run ts = .ok (e, []) := by
  simp only [readFilter, Descent.andThen]
  rcases (exprOver (unary n)).run ts with _ | ⟨e', _ | ⟨t, rest⟩⟩ <;> simp [endOfRun]

theorem Expr.ofTokens_fault {ts : List (Token Gap)} {err : SyntaxError}
    (h : ofTokens ts = .error err) :
    Fault (fun m => Within m IsExpr) Closable readFilter maxDepth ts err := by
  have failed : readFilter maxDepth ts = .error err := by
    simp only [ofTokens] at h
    simp only [readFilter, Descent.andThen]
    generalize (exprOver (unary maxDepth)).run ts = result at h ⊢
    rcases result with _ | ⟨e, _ | ⟨t, rest⟩⟩
    · cases h
      rfl
    · cases h
    · cases h
      rfl
  have outcome := readFilter_locates maxDepth ts
  rw [failed] at outcome
  cases outcome with
  | error fault => exact fault

end FilterSql.Filter
