import FilterSql.Proofs.Grammar

/-!
# The reader accepts the grammar

The reader of filters accepts exactly the phrases of the grammar that are not nested too deeply, and
returns their trees. Each reader is shown to read the phrases of its rule; the reader with `n`
levels left reads those with at most `n` levels, by induction on `n`.
-/

namespace FilterSql.Filter

open FilterSql.Parser (Separated Before)

variable {π : Type}

/-! ## Lists in parentheses -/

section Lists

variable {α : Type} {item : Reader π α} {phrase : List (Token π) → α → Prop}
  {follow : Token π → Prop}

theorem expect_eq_ok_iff {kind : TokenKind} {ts rest : List (Token π)} :
    expect kind ts = .ok rest ↔ ∃ t : Token π, ts = t :: rest ∧ t.kind = kind := by
  constructor
  · intro h
    unfold expect at h
    split at h
    · cases h
    · next t ts =>
      split at h
      · next isKind =>
        cases h
        exact ⟨t, rfl, isKind⟩
      · cases h
  · rintro ⟨t, rfl, isKind⟩
    simp only [expect, isKind, if_true]

/-- Items with commas between them, and the parenthesis that closes them. -/
def closedList (item : Reader π α) (ts : List (Token π)) :
    Except SyntaxError (List α × List (Token π)) :=
  match (Parser.separated isComma item).run ts with
  | .error e => .error e
  | .ok ((first, others), rest) =>
    match expect .closeParen rest with
    | .error e => .error e
    | .ok rest => .ok (first :: others, rest)

theorem closedList_sound (h : item.Reads phrase follow) {ts rest : List (Token π)} {as : List α}
    (comma : ∀ t : Token π, isComma t = true → follow t)
    (ran : closedList item ts = .ok (as, rest)) :
    ∃ taken a as' q, ts = taken ++ q :: rest ∧ as = a :: as' ∧
      Separated isComma phrase taken (a, as') ∧ q.kind = .closeParen := by
  unfold closedList at ran
  split at ran
  · cases ran
  · next a as' rest' listed =>
    split at ran
    · cases ran
    · next closed =>
      cases ran
      obtain ⟨taken, rfl, phrases⟩ := (h.separated comma).sound listed
      obtain ⟨q, rfl, closes⟩ := expect_eq_ok_iff.1 closed
      exact ⟨taken, a, as', q, rfl, rfl, phrases, closes⟩

theorem closedList_complete (h : item.Reads phrase follow)
    (comma : ∀ t : Token π, isComma t = true → follow t)
    (close : ∀ t : Token π, t.kind = .closeParen → follow t)
    {taken rest : List (Token π)} {a : α} {as : List α} {q : Token π}
    (phrases : Separated isComma phrase taken (a, as)) (closes : q.kind = .closeParen) :
    closedList item (taken ++ q :: rest) = .ok (a :: as, rest) := by
  have next : Before (fun t => follow t ∧ isComma t = false) (q :: rest) :=
    Parser.before_cons ⟨close q closes, by simp [isComma, closes]⟩
  simp only [closedList, (h.separated comma).complete phrases next,
    expect_eq_ok_iff.2 ⟨q, rfl, closes⟩]

end Lists

theorem arguments_eq (expr : Reader π Expr) (ts : List (Token π)) :
    arguments expr ts =
      if (ts.head?.map (·.kind)) = some .closeParen then .ok ([], ts.drop 1)
      else closedList expr ts := by
  unfold arguments closedList
  rcases (Parser.separated isComma expr).run ts with _ | ⟨_, rest⟩
  · rfl
  · cases expect .closeParen rest <;> rfl

theorem arguments_nil (expr : Reader π Expr) {q : Token π} {rest : List (Token π)}
    (closes : q.kind = .closeParen) :
    arguments expr (q :: rest) = .ok ([], rest) := by
  rw [arguments_eq]
  simp [closes]

theorem listValues_run_eq (ts : List (Token π)) :
    listValues.run ts =
      match expect .openParen ts with
      | .error e => .error e
      | .ok ts =>
        if (ts.head?.map (·.kind)) = some .closeParen then .error .failedToParse
        else closedList listValue ts := by
  unfold listValues closedList
  dsimp only
  rcases expect .openParen ts with _ | ts
  · rfl
  · dsimp only
    rcases (Parser.separated isComma listValue).run ts with _ | ⟨_, rest⟩
    · rfl
    · cases expect .closeParen rest <;> rfl

theorem listValue_reads : (listValue : Reader π String).Reads IsListValue (fun _ => True) where
  sound {items a rest} ran := by
    match items with
    | [] => cases ran
    | t :: ts =>
      simp only [listValue] at ran
      split at ran
      · next kind =>
        cases ran
        exact ⟨[t], rfl, .mk kind⟩
      · cases ran
  complete := by
    rintro _ _ rest ⟨kind⟩ _
    simp [listValue, kind]

theorem listValues_sound {ts rest : List (Token π)} {values : List String}
    (ran : listValues.run ts = .ok (values, rest)) :
    ∃ p us value values' q, ts = p :: (us ++ q :: rest) ∧ p.kind = .openParen ∧
      values = value :: values' ∧ Separated isComma IsListValue us (value, values') ∧
      q.kind = .closeParen := by
  rw [listValues_run_eq] at ran
  split at ran
  · cases ran
  · next opened =>
    split at ran
    · cases ran
    · obtain ⟨p, rfl, opens⟩ := expect_eq_ok_iff.1 opened
      obtain ⟨us, value, values', q, rfl, rfl, phrases, closes⟩ :=
        closedList_sound listValue_reads (fun _ _ => trivial) ran
      exact ⟨p, us, value, values', q, rfl, opens, rfl, phrases, closes⟩

theorem listValues_complete {p q : Token π} {us rest : List (Token π)} {value : String}
    {values : List String} (opens : p.kind = .openParen)
    (phrases : Separated isComma IsListValue us (value, values)) (closes : q.kind = .closeParen) :
    listValues.run (p :: (us ++ q :: rest)) = .ok (value :: values, rest) := by
  obtain ⟨t, us', rfl, notClose⟩ : Starts (·.kind ≠ .closeParen) us :=
    starts_of_separated (fun h => by cases h with | mk kind => exact ⟨_, _, rfl, by grind⟩) phrases
  rw [listValues_run_eq, expect_eq_ok_iff.2 ⟨p, rfl, opens⟩]
  dsimp only
  rw [if_neg (by simpa using notClose)]
  exact closedList_complete listValue_reads (fun _ _ => trivial) (fun _ _ => trivial) phrases closes

/-! ## Operands -/

/-- The reader one level further down reads the phrases that have a level less. There is no such
reader where no level is left. -/
inductive DeepReads (phrase : List (Token π) → Expr → Prop) (follow : Token π → Prop) :
    Except SyntaxError (Reader π Expr) → Nat → Prop
  | none {err : SyntaxError} : DeepReads phrase follow (.error err) 0
  | some {reader : Reader π Expr} {n : Nat} : reader.Reads (Within n phrase) follow →
    DeepReads phrase follow (.ok reader) (n + 1)

theorem afterExpr_of_isComma {t : Token π} (h : isComma t = true) : AfterExpr t := by
  have kind : t.kind = .comma := by simpa [isComma] using h
  exact afterExpr_of_kind (by simp [kind]) (by simp [kind])

theorem afterExpr_of_closeParen {t : Token π} (h : t.kind = .closeParen) : AfterExpr t :=
  afterExpr_of_kind (by simp [h]) (by simp [h])

section Calls

variable [Place π] {expr : Reader π Expr} {n : Nat} {name p q : Token π} {ts rest : List (Token π)}

theorem arguments_sound (h : expr.Reads (Within n IsExpr) AfterExpr) {args : List Expr}
    (ran : arguments expr ts = .ok (args, rest)) :
    ∃ us q, ts = us ++ q :: rest ∧ q.kind = .closeParen ∧
      (us = [] ∧ args = [] ∨ ∃ arg others, args = arg :: others ∧
        Separated isComma (Within n IsExpr) us (arg, others)) := by
  rw [arguments_eq] at ran
  split at ran
  · next closes =>
    match ts with
    | q :: ts =>
      cases ran
      exact ⟨[], q, rfl, by simpa using closes, .inl ⟨rfl, rfl⟩⟩
  · obtain ⟨us, arg, others, q, rfl, rfl, phrases, closes⟩ :=
      closedList_sound h (fun _ => afterExpr_of_isComma) ran
    exact ⟨us, q, rfl, closes, .inr ⟨arg, others, rfl, phrases⟩⟩

theorem arguments_complete (h : expr.Reads (Within n IsExpr) AfterExpr) {arg : Expr}
    {args : List Expr} (phrases : Separated isComma (Within n IsExpr) ts (arg, args))
    (closes : q.kind = .closeParen) :
    arguments expr (ts ++ q :: rest) = .ok (arg :: args, rest) := by
  obtain ⟨t, us, rfl, notClose⟩ : Starts (·.kind ≠ .closeParen) ts :=
    starts_of_separated (fun h => h.1.starts) phrases
  rw [arguments_eq, if_neg (by simpa using notClose)]
  exact closedList_complete h (fun _ => afterExpr_of_isComma) (fun _ => afterExpr_of_closeParen)
    phrases closes

/-- The text of a call is that of the tokens its arguments are read from. -/
theorem callRest_eq {args : List Expr} (ran : arguments expr (ts ++ rest) = .ok (args, rest)) :
    callRest expr name p (ts ++ rest) =
      .ok (.call name.text args (Place.textOf (name :: p :: ts)), rest) := by
  have taken : (ts ++ rest).take ((ts ++ rest).length - rest.length) = ts := by simp
  simp only [callRest, ran, taken]

theorem callRest_sound (h : expr.Reads (Within n IsExpr) AfterExpr) (isName : name.IsName)
    (opens : p.kind = .openParen) {e : Expr} (ran : callRest expr name p ts = .ok (e, rest)) :
    ∃ taken, name :: p :: ts = taken ++ rest ∧ IsPrimary taken e ∧ e.nesting ≤ n + 1 := by
  rcases listed : arguments expr ts with _ | ⟨args, rest'⟩
  · simp only [callRest, listed] at ran
    cases ran
  · obtain ⟨us, q, rfl, closes, phrases⟩ := arguments_sound h listed
    rw [List.append_cons] at ran listed ⊢
    obtain rfl : rest' = rest := by
      simp only [callRest, listed, Except.ok.injEq, Prod.mk.injEq] at ran
      exact ran.2
    rw [callRest_eq listed] at ran
    cases ran
    refine ⟨name :: p :: (us ++ [q]), rfl, ?_⟩
    rcases phrases with ⟨rfl, rfl⟩ | ⟨arg, others, rfl, phrases⟩
    · exact ⟨.emptyCall isName opens closes, Nat.succ_le_succ (Nat.zero_le n)⟩
    · obtain ⟨phrases, nesting⟩ := separated_within_iff.1 phrases
      exact ⟨.call isName opens phrases closes,
        Nat.succ_le_succ (Expr.nestingOf_le_iff.2 (List.forall_mem_cons.2 nesting))⟩

end Calls

variable [Place π]

theorem primary_sound {deeper : Except SyntaxError (Reader π Expr)} {n : Nat}
    (h : DeepReads IsExpr AfterExpr deeper n) {ts rest : List (Token π)} {e : Expr}
    (ran : (primary deeper).run ts = .ok (e, rest)) :
    ∃ taken, ts = taken ++ rest ∧ IsPrimary taken e ∧ e.nesting ≤ n := by
  simp only [primary, primaryRun] at ran
  split at ran
  · cases ran
  · next t ts =>
    split at ran
    · next isLiteral =>
      cases ran
      exact ⟨[t], rfl, .literal isLiteral, Nat.zero_le _⟩
    · cases ran
    · cases ran
    · next opens =>
      cases h with
      | none => cases ran
      | some h =>
        dsimp only at ran
        split at ran
        · cases ran
        · next inner rest' read =>
          split at ran
          · cases ran
          · next closed =>
            cases ran
            obtain ⟨taken, rfl, phrase, nesting⟩ := h.sound read
            obtain ⟨q, rfl, closes⟩ := expect_eq_ok_iff.1 closed
            exact ⟨t :: (taken ++ [q]), by simp, .group opens phrase closes,
              Nat.succ_le_succ nesting⟩
    · next isWord =>
      split at ran
      · cases ran
      · next notReserved =>
        have isName : t.IsName := ⟨isWord, by simpa using notReserved⟩
        split at ran
        · cases ran
          exact ⟨[t], rfl, .word isName, Nat.zero_le _⟩
        · next p after =>
          split at ran
          · next opens =>
            cases h with
            | none => cases ran
            | some h => exact callRest_sound h isName opens ran
          · cases ran
            exact ⟨[t], rfl, .word isName, Nat.zero_le _⟩

theorem primary_complete {deeper : Except SyntaxError (Reader π Expr)} {n : Nat}
    (h : DeepReads IsExpr AfterExpr deeper n) {taken rest : List (Token π)} {e : Expr}
    (phrase : IsPrimary taken e) (nesting : e.nesting ≤ n) (next : Before AfterPrimary rest) :
    (primary deeper).run (taken ++ rest) = .ok (e, rest) := by
  cases phrase with
  | literal isLiteral => simp [primary, primaryRun, isLiteral]
  | word isName =>
    cases rest with
    | nil => simp [primary, primaryRun, isName.word, isName.notReserved]
    | cons t rest =>
      have notOpen : t.kind ≠ .openParen := next t rfl
      simp [primary, primaryRun, isName.word, isName.notReserved, notOpen]
  | @group p q ts e opens inner closes =>
    cases h with
    | none => cases nesting
    | @some expr n h =>
      have read : expr.run (ts ++ q :: rest) = .ok (e, q :: rest) :=
        h.complete ⟨inner, Nat.le_of_succ_le_succ nesting⟩
          (Parser.before_cons (afterExpr_of_closeParen closes))
      simp [primary, primaryRun, opens, read, expect, closes]
  | @emptyCall name p q isName opens closes =>
    cases h with
    | none => cases nesting
    | @some expr n h =>
      have ran : callRest expr name p ([q] ++ rest) = .ok (_, rest) :=
        callRest_eq (arguments_nil expr closes)
      simpa [primary, primaryRun, isName.word, isName.notReserved, opens] using ran
  | @call name p q ts arg args isName opens phrases closes =>
    cases h with
    | none => cases nesting
    | @some expr n h =>
      have below := Expr.nestingOf_le_iff.1 (Nat.le_of_succ_le_succ nesting)
      have listed : arguments expr (ts ++ q :: rest) = .ok (arg :: args, rest) :=
        arguments_complete h
          (separated_within_iff.2 ⟨phrases, List.forall_mem_cons.1 below⟩) closes
      rw [List.append_cons] at listed
      have ran : callRest expr name p (ts ++ [q] ++ rest) = .ok (_, rest) := callRest_eq listed
      simpa [primary, primaryRun, isName.word, isName.notReserved, opens] using ran

theorem primary_reads {deeper : Except SyntaxError (Reader π Expr)} {n : Nat}
    (h : DeepReads IsExpr AfterExpr deeper n) :
    (primary deeper).Reads (Within n IsPrimary) AfterPrimary where
  sound := primary_sound h
  complete phrase next := primary_complete h phrase.1 phrase.2 next

/-! ## Comparisons and negations -/

theorem comparison_reads {operand : Reader π Expr} {n : Nat}
    (h : operand.Reads (Within n IsPrimary) AfterPrimary) :
    (comparison operand).Reads (Within n IsComparison) AfterUnary where
  sound {items e rest} ran := by
    simp only [comparison] at ran
    split at ran
    · cases ran
    · next left items' first =>
      obtain ⟨ts, rfl, phrase, nesting⟩ := h.sound first
      unfold comparisonRest at ran
      split at ran
      · cases ran
        exact ⟨ts, rfl, .primary phrase, nesting⟩
      · next t items =>
        split at ran
        · next op found =>
          split at ran
          · cases ran
          · next right rest' second =>
            cases ran
            obtain ⟨us, rfl, phrase', nesting'⟩ := h.sound second
            obtain ⟨member, isOp⟩ := Token.comparisonOperator?_eq_some_iff.1 found
            exact ⟨ts ++ t :: us, by simp, .operator phrase member isOp phrase',
              Nat.max_le.2 ⟨nesting, nesting'⟩⟩
        · split at ran
          · next isIn =>
            split at ran
            · cases ran
            · next values rest' listed =>
              cases ran
              obtain ⟨p, us, value, values', q, rfl, opens, rfl, phrases, closes⟩ :=
                listValues_sound listed
              exact ⟨ts ++ t :: p :: (us ++ [q]), by simp, .inList phrase isIn opens phrases closes,
                nesting⟩
          · cases ran
            exact ⟨ts, rfl, .primary phrase, nesting⟩
  complete {taken e rest} phrase next := by
    obtain ⟨phrase, nesting⟩ := phrase
    cases phrase with
    | primary phrase =>
      simp only [comparison, h.complete ⟨phrase, nesting⟩ (next.mono fun _ after => after.1)]
      cases rest with
      | nil => rfl
      | cons t rest =>
        obtain ⟨-, noOperator, notIn⟩ := next t rfl
        simp [comparisonRest, noOperator, notIn]
    | @operator t ts us op l r left member isOp right =>
      obtain ⟨nestingl, nestingr⟩ := Nat.max_le.1 nesting
      have after : Before AfterPrimary (t :: (us ++ rest)) :=
        Parser.before_cons (afterPrimary_of_isKeyword isOp)
      have first := h.complete ⟨left, nestingl⟩ after
      have second := h.complete ⟨right, nestingr⟩ (next.mono fun _ after => after.1)
      have found := Token.comparisonOperator?_eq_some_iff.2 ⟨member, isOp⟩
      simp [comparison, comparisonRest, first, found, second]
    | @inList t p q ts us l value values left isIn opens phrases closes =>
      have after : Before AfterPrimary (t :: p :: (us ++ q :: rest)) :=
        Parser.before_cons (afterPrimary_of_isKeyword isIn)
      have first := h.complete ⟨left, nesting⟩ after
      have noOperator := Token.comparisonOperator?_of_isKeyword isIn (by decide)
      simp [comparison, comparisonRest, first, noOperator, isIn,
        listValues_complete opens phrases closes]

theorem unaryWith_reads {deeper : Except SyntaxError (Reader π Expr)} {n : Nat}
    (h : DeepReads IsUnary AfterUnary deeper n)
    (inner : DeepReads IsExpr AfterExpr (deeper.map exprOver) n) :
    (unaryWith deeper).Reads (Within n IsUnary) AfterUnary where
  sound {items e rest} ran := by
    match items with
    | [] => cases ran
    | t :: ts =>
      simp only [unaryWith] at ran
      split at ran
      · next isNot =>
        cases h with
        | none => cases ran
        | some h =>
          dsimp only at ran
          split at ran
          · cases ran
          · next operand rest' read =>
            cases ran
            obtain ⟨taken, rfl, phrase, nesting⟩ := h.sound read
            exact ⟨t :: taken, rfl, .not isNot phrase, Nat.succ_le_succ nesting⟩
      · obtain ⟨taken, eq, phrase, nesting⟩ := (comparison_reads (primary_reads inner)).sound ran
        exact ⟨taken, eq, .comparison phrase, nesting⟩
  complete {taken e rest} phrase next := by
    obtain ⟨phrase, nesting⟩ := phrase
    cases phrase with
    | @not t ts e isNot phrase =>
      cases h with
      | none => cases nesting
      | some h =>
        have read := h.complete ⟨phrase, Nat.le_of_succ_le_succ nesting⟩ next
        simp [unaryWith, isNot, read]
    | comparison phrase =>
      have read := (comparison_reads (primary_reads inner)).complete ⟨phrase, nesting⟩ next
      obtain ⟨t, us, rfl, -, notNot⟩ := phrase.starts
      rw [List.cons_append] at read
      simp [unaryWith, notNot, read]

/-! ## Chains -/

omit [Place π] in
theorem chain_reads {operand : Reader π Expr} {phrase : List (Token π) → Expr → Prop} {n : Nat}
    {follow : Token π → Prop} (op : Connective) (h : operand.Reads (Within n phrase) follow)
    (keyword : ∀ t : Token π, t.isKeyword op.text = true → follow t) :
    (chain op operand).Reads
      (Within n fun ts e => ∃ e₀ es, Separated (·.isKeyword op.text) phrase ts (e₀, es) ∧
        e = es.foldl (.logical op) e₀)
      (fun t => follow t ∧ t.isKeyword op.text = false) := by
  refine ((h.separated keyword).map _).congr fun ts e => ?_
  constructor
  · rintro ⟨⟨e₀, es⟩, phrases, rfl⟩
    obtain ⟨phrases, nesting⟩ := separated_within_iff.1 phrases
    exact ⟨⟨e₀, es, phrases, rfl⟩, Expr.nesting_foldl_le_iff.2 nesting⟩
  · rintro ⟨⟨e₀, es, phrases, rfl⟩, nesting⟩
    exact ⟨(e₀, es), separated_within_iff.2 ⟨phrases, Expr.nesting_foldl_le_iff.1 nesting⟩, rfl⟩

theorem isConjunct_iff {ts : List (Token π)} {e : Expr} :
    IsConjunct ts e ↔ ∃ e₀ es, Separated (·.isKeyword "and") IsUnary ts (e₀, es) ∧
      e = es.foldl (.logical .and) e₀ := by
  constructor
  · rintro ⟨phrases⟩
    exact ⟨_, _, phrases, rfl⟩
  · rintro ⟨e₀, es, phrases, rfl⟩
    exact .mk phrases

theorem isExpr_iff {ts : List (Token π)} {e : Expr} :
    IsExpr ts e ↔ ∃ e₀ es, Separated (·.isKeyword "or") IsConjunct ts (e₀, es) ∧
      e = es.foldl (.logical .or) e₀ := by
  constructor
  · rintro ⟨phrases⟩
    exact ⟨_, _, phrases, rfl⟩
  · rintro ⟨e₀, es, phrases, rfl⟩
    exact .mk phrases

theorem exprOver_reads {operand : Reader π Expr} {n : Nat}
    (h : operand.Reads (Within n IsUnary) AfterUnary) :
    (exprOver operand).Reads (Within n IsExpr) AfterExpr := by
  have conjunct : (chain .and operand).Reads (Within n IsConjunct) AfterConjunct :=
    (chain_reads .and h fun _ => afterUnary_of_and).congr fun _ _ =>
      and_congr_left' isConjunct_iff.symm
  exact (chain_reads .or conjunct fun _ => afterConjunct_of_or).congr fun _ _ =>
    and_congr_left' isExpr_iff.symm

/-! ## Whole filters -/

/-- The reader with `n` levels left reads the phrases with at most `n` levels. -/
theorem unary_reads (n : Nat) : (unary n : Reader π Expr).Reads (Within n IsUnary) AfterUnary := by
  induction n with
  | zero => exact unaryWith_reads .none .none
  | succ n ih => exact unaryWith_reads (.some ih) (.some (exprOver_reads ih))

theorem Expr.ofTokens_eq_ok_iff {ts : List (Token π)} {e : Expr} :
    ofTokens ts = .ok e ↔ IsExpr ts e ∧ e.nesting ≤ maxDepth := by
  have reads : (exprOver (unary maxDepth : Reader π Expr)).Reads _ _ :=
    exprOver_reads (unary_reads maxDepth)
  constructor
  · intro h
    unfold ofTokens at h
    split at h
    · cases h
    · next read =>
      cases h
      obtain ⟨taken, rfl, phrase⟩ := reads.sound read
      rwa [List.append_nil]
    · cases h
  · intro phrase
    have read := reads.complete phrase (Parser.before_nil AfterExpr)
    rw [List.append_nil] at read
    simp only [ofTokens, read]

theorem Expr.isExpr_of_parse {text : String} {e : Expr} (h : parse text = .ok e) :
    ∃ ts : List (Token (Span (dropFilterName text))), IsExpr ts e := by
  unfold parse at h
  split at h
  · cases h
  · next ts _ => exact ⟨ts, (ofTokens_eq_ok_iff.1 h).1⟩

/-- A run of tokens is a phrase in one way at most. -/
theorem IsExpr.unique {ts : List (Token π)} {e e' : Expr} (h : IsExpr ts e) (h' : IsExpr ts e') :
    e = e' := by
  have reads : (exprOver (unary (max e.nesting e'.nesting) : Reader π Expr)).Reads _ _ :=
    exprOver_reads (unary_reads _)
  have read := reads.complete ⟨h, Nat.le_max_left _ _⟩ (Parser.before_nil AfterExpr)
  have read' := reads.complete ⟨h', Nat.le_max_right _ _⟩ (Parser.before_nil AfterExpr)
  rw [read] at read'
  cases read'
  rfl

/-- A text that has tokens is a filter exactly if the tokens are a phrase of the grammar that is not
nested too deeply. Its tree is that of the phrase, and there is no other. -/
theorem Expr.parse_eq_ok_iff_isExpr {text : String} {ts : List (Token (Span (dropFilterName text)))}
    (h : tokenize (dropFilterName text) = .ok ts) :
    (∀ e, parse text = .ok e ↔ IsExpr ts e ∧ e.nesting ≤ maxDepth) ∧
      ∀ e e', IsExpr ts e → IsExpr ts e' → e = e' := by
  refine ⟨fun e => ?_, fun e e' => IsExpr.unique⟩
  simp only [parse, h, ofTokens_eq_ok_iff]

/-- Unlike a result, what it holds can be compared by evaluation. -/
theorem eq_ok_of_toOption {ε α : Type} {x : Except ε α} {a : α} (h : x.toOption = some a) :
    x = .ok a := by
  cases x <;> cases h
  rfl

/-- An operator between properties that are named like it. -/
theorem Expr.parse_eq_ok_iff_isExpr_operators :
    parse "NOT eq Eq eq" = .ok (.not (.comparison "eq" (.primary "eq") (.primary "eq"))) := by
  have tokens : tokenize (dropFilterName "NOT eq Eq eq") =
      .ok [⟨⟨0, 3⟩, .word, "NOT"⟩, ⟨⟨4, 6⟩, .word, "eq"⟩, ⟨⟨7, 9⟩, .word, "Eq"⟩,
        ⟨⟨10, 12⟩, .word, "eq"⟩] :=
    eq_ok_of_toOption (by decide +kernel)
  have name (place : Span (dropFilterName "NOT eq Eq eq")) :
      IsPrimary [⟨place, .word, "eq"⟩] (.primary "eq") := .word (Token.isName_word place (by decide))
  have phrase (a b c d : Span (dropFilterName "NOT eq Eq eq")) :
      IsUnary [⟨a, .word, "NOT"⟩, ⟨b, .word, "eq"⟩, ⟨c, .word, "Eq"⟩, ⟨d, .word, "eq"⟩]
        (.not (.comparison "eq" (.primary "eq") (.primary "eq"))) :=
    .not (Token.isKeyword_word a _ ▸ by decide) (.comparison
      (.operator (name b) (by decide) (Token.isKeyword_word c _ ▸ by decide) (name d)))
  exact ((parse_eq_ok_iff_isExpr tokens).1 _).2
    ⟨.mk (.mk (.mk (.mk (phrase _ _ _ _) .nil)) .nil), by decide⟩

end FilterSql.Filter
