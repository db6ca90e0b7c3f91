import FilterSql.Proofs.Acceptance
import FilterSql.Proofs.AsciiCase
import FilterSql.Proofs.Expr

/-!
# Reading in step

The readers of the grammar look at the kind of a token and compare its text with keywords in any case,
and only the text of a call depends on where tokens stand. So two runs of tokens with the same kinds,
and with texts that differ in case only, are read in step: at each point either both are accepted, and
what is left corresponds again, or both are refused for the same reason. How far the trees and the
errors agree is carried over from the tokens.

## Main statements

* `unary_inStep`: the readers of every depth read corresponding runs in step.
* `Expr.ofTokens_inStep`: two corresponding runs are read as alike trees, or fail in the same way.
-/

namespace FilterSql.Filter

open Text

variable {π π' α β : Type}

/-! ## Alike tokens and outcomes -/

/-- Tokens of one kind with texts that differ in case only. -/
structure Token.Like (t : Token π) (t' : Token π') : Prop where
  kind : t'.kind = t.kind
  word : sameName t.text t'.text = true

section Tokens

variable {t : Token π} {t' : Token π'}

theorem Token.Like.isKeyword_eq (h : t.Like t') : t'.isKeyword = t.isKeyword := by
  funext word
  rw [Token.isKeyword, Token.isKeyword, h.kind, sameName_congr h.word]

theorem Token.Like.isReserved_eq (h : t.Like t') : t'.isReserved = t.isReserved := by
  rw [Token.isReserved, Token.isReserved, h.isKeyword_eq]

theorem Token.Like.comparisonOperator?_eq (h : t.Like t') :
    t'.comparisonOperator? = t.comparisonOperator? := by
  rw [Token.comparisonOperator?, Token.comparisonOperator?, h.isKeyword_eq]

theorem Token.Like.isComma_eq (h : t.Like t') : isComma t' = isComma t := by
  simp [isComma, h.kind]

end Tokens

/-- The same error, but for the words that are quoted. -/
inductive SyntaxError.Alike (word : String → String → Prop) : SyntaxError → SyntaxError → Prop
  | unexpectedToken {s s' : String} : word s s' → Alike word (.unexpectedToken s) (.unexpectedToken s')
  | failedToParse : Alike word .failedToParse .failedToParse
  | tooDeep (limit : Nat) : Alike word (.tooDeep limit) (.tooDeep limit)

/-- Both succeed with related results, or both fail with alike errors. -/
inductive SameOutcome (word : String → String → Prop) (S : α → β → Prop) :
    Except SyntaxError α → Except SyntaxError β → Prop
  | ok {a : α} {b : β} : S a b → SameOutcome word S (.ok a) (.ok b)
  | error {e e' : SyntaxError} : e.Alike word e' → SameOutcome word S (.error e) (.error e')

theorem SameOutcome.of_ok {word : String → String → Prop} {S : α → β → Prop} {a : α}
    {x : Except SyntaxError β} (h : SameOutcome word S (.ok a) x) : ∃ b, x = .ok b ∧ S a b := by
  cases h with
  | ok related => exact ⟨_, rfl, related⟩

theorem SameOutcome.of_error {word : String → String → Prop} {S : α → β → Prop} {e : SyntaxError}
    {x : Except SyntaxError β} (h : SameOutcome word S (.error e) x) :
    ∃ e', x = .error e' ∧ e.Alike word e' := by
  cases h with
  | error alike => exact ⟨_, rfl, alike⟩

/-! ## Readers in step -/

/-- Runs that correspond token by token. The words of the tokens are related, and so are the texts of
all runs at the front. -/
structure Correspond [Place π] [Place π'] (word text : String → String → Prop)
    (L : List (Token π) → List (Token π') → Prop) : Prop where
  nil : ∀ {ts'}, L [] ts' → ts' = []
  cons : ∀ {t ts us}, L (t :: ts) us →
    ∃ t' ts', us = t' :: ts' ∧ t.Like t' ∧ word t.text t'.text ∧ L ts ts'
  text : ∀ {t ts t' ts'}, L (t :: ts) (t' :: ts') → ∀ n,
    text (Place.textOf (t :: ts.take n)) (Place.textOf (t' :: ts'.take n))

/-- Corresponding runs are read with related results, and what is left corresponds. -/
def InStep (word : String → String → Prop) (L : List (Token π) → List (Token π') → Prop)
    (S : α → β → Prop) (p : Reader π α) (p' : Reader π' β) : Prop :=
  ∀ ⦃ts ts'⦄, L ts ts' →
    SameOutcome word (fun r r' => S r.1 r'.1 ∧ L r.2 r'.2) (p.run ts) (p'.run ts')

section Readers

variable [Place π] [Place π'] {word text : String → String → Prop}
  {L : List (Token π) → List (Token π') → Prop} {S : α → β → Prop}
  {ts : List (Token π)} {ts' : List (Token π')}

/-! ## Lists -/

theorem Correspond.length_eq (h : Correspond word text L) (related : L ts ts') :
    ts'.length = ts.length := by
  induction ts generalizing ts' with
  | nil =>
    cases h.nil related
    rfl
  | cons t ts ih =>
    obtain ⟨t', us', rfl, -, -, others⟩ := h.cons related
    rw [List.length_cons, List.length_cons, ih others]

theorem Correspond.expect (h : Correspond word text L) (kind : TokenKind) (related : L ts ts') :
    SameOutcome word L (expect kind ts) (expect kind ts') := by
  cases ts with
  | nil =>
    cases h.nil related
    exact .error .failedToParse
  | cons t ts =>
    obtain ⟨t', us', rfl, like, same, others⟩ := h.cons related
    simp only [Filter.expect, like.kind]
    split
    · exact .ok others
    · exact .error (.unexpectedToken same)

theorem Correspond.head?_kind_eq (h : Correspond word text L) (related : L ts ts') :
    ts'.head?.map (·.kind) = ts.head?.map (·.kind) := by
  cases ts with
  | nil =>
    cases h.nil related
    rfl
  | cons t ts =>
    obtain ⟨t', us', rfl, like, -⟩ := h.cons related
    simp [like.kind]

theorem InStep.more (h : Correspond word text L) {item : Reader π α} {item' : Reader π' β}
    (inStep : InStep word L S item item') {separator : Token π → Bool}
    {separator' : Token π' → Bool}
    (separates : ∀ {t t'}, t.Like t' → separator' t' = separator t) (related : L ts ts') :
    SameOutcome word (fun r r' => List.Forall₂ S r.1 r'.1 ∧ L r.2 r'.2)
      (Parser.more separator item ts) (Parser.more separator' item' ts') := by
  induction length : ts.length using Nat.strongRecOn generalizing ts ts' with
  | ind n ih =>
    cases ts with
    | nil =>
      cases h.nil related
      rw [Parser.more, Parser.more]
      exact .ok ⟨.nil, related⟩
    | cons t ts =>
      obtain ⟨t', us', rfl, like, -, others⟩ := h.cons related
      cases isSep : separator t with
      | false =>
        rw [Parser.more, Parser.more, separates like, isSep]
        exact .ok ⟨.nil, related⟩
      | true =>
        have first := inStep others
        rw [Parser.more_cons_eq isSep, Parser.more_cons_eq ((separates like).trans isSep)]
        generalize ran : item.run ts = x, item'.run us' = y at first
        cases first with
        | error same => exact .error same
        | @ok r r' ok =>
          have shorter := item.consumes ran
          have further := ih r.2.length (by simp at length; omega) ok.2 rfl
          simp only [Except.bind]
          generalize Parser.more separator item r.2 = x,
            Parser.more separator' item' r'.2 = y at further
          cases further with
          | error same => exact .error same
          | ok more => exact .ok ⟨.cons ok.1 more.1, more.2⟩

theorem InStep.separated (h : Correspond word text L) {item : Reader π α} {item' : Reader π' β}
    (inStep : InStep word L S item item') {separator : Token π → Bool}
    {separator' : Token π' → Bool} (separates : ∀ {t t'}, t.Like t' → separator' t' = separator t) :
    InStep word L (fun a b => S a.1 b.1 ∧ List.Forall₂ S a.2 b.2)
      (Parser.separated separator item) (Parser.separated separator' item') := by
  intro ts ts' related
  have first := inStep related
  simp only [Parser.separated]
  generalize item.run ts = x, item'.run ts' = y at first
  cases first with
  | error same => exact .error same
  | @ok r r' ok =>
    have further := inStep.more h separates ok.2
    dsimp only
    generalize Parser.more separator item r.2 = x, Parser.more separator' item' r'.2 = y at further
    cases further with
    | error same => exact .error same
    | ok more => exact .ok ⟨⟨ok.1, more.1⟩, more.2⟩

omit [Place π] [Place π'] in
theorem InStep.map {γ δ : Type} {R : γ → δ → Prop} {item : Reader π α} {item' : Reader π' β}
    (inStep : InStep word L S item item') {f : α → γ} {g : β → δ}
    (imp : ∀ a b, S a b → R (f a) (g b)) :
    InStep word L R (item.map f) (item'.map g) := by
  intro ts ts' related
  have ran := inStep related
  simp only [Parser.map]
  generalize item.run ts = x, item'.run ts' = y at ran
  cases ran with
  | error same => exact .error same
  | ok ok => exact .ok ⟨imp _ _ ok.1, ok.2⟩

theorem InStep.closedList (h : Correspond word text L) {item : Reader π α} {item' : Reader π' β}
    (inStep : InStep word L S item item') (related : L ts ts') :
    SameOutcome word (fun r r' => List.Forall₂ S r.1 r'.1 ∧ L r.2 r'.2)
      (closedList item ts) (closedList item' ts') := by
  have items := inStep.separated h Token.Like.isComma_eq related
  simp only [Filter.closedList]
  generalize (Parser.separated isComma item).run ts = x,
    (Parser.separated isComma item').run ts' = y at items
  cases items with
  | error same => exact .error same
  | @ok r r' ok =>
    have closed := h.expect .closeParen ok.2
    dsimp only
    generalize Filter.expect .closeParen r.2 = x, Filter.expect .closeParen r'.2 = y at closed
    cases closed with
    | error same => exact .error same
    | ok rests => exact .ok ⟨.cons ok.1.1 ok.1.2, rests⟩

theorem listValue_inStep (h : Correspond word text L) : InStep word L word listValue listValue := by
  intro ts ts' related
  cases ts with
  | nil =>
    cases h.nil related
    exact .error .failedToParse
  | cons t ts =>
    obtain ⟨t', us', rfl, like, same, others⟩ := h.cons related
    simp only [listValue, like.kind]
    split
    · exact .ok ⟨same, others⟩
    · exact .error (.unexpectedToken same)

theorem listValues_inStep (h : Correspond word text L) :
    InStep word L (List.Forall₂ word) listValues listValues := by
  intro ts ts' related
  have opened := h.expect .openParen related
  rw [listValues_run_eq, listValues_run_eq]
  generalize expect .openParen ts = x, expect .openParen ts' = y at opened
  cases opened with
  | error same => exact .error same
  | ok rests =>
    dsimp only
    rw [h.head?_kind_eq rests]
    split
    · exact .error .failedToParse
    · exact (listValue_inStep h).closedList h rests

/-! ## Operands -/

/-- Expressions are read in step as alike trees. -/
abbrev ExprsInStep (word text : String → String → Prop)
    (L : List (Token π) → List (Token π') → Prop)
    (p : Reader π Expr) (p' : Reader π' Expr) : Prop :=
  InStep word L (Expr.Alike word word text) p p'

/-- Readers one level further down, of which there are none where no level is left. -/
inductive DeeperInStep (word text : String → String → Prop)
    (L : List (Token π) → List (Token π') → Prop) :
    Except SyntaxError (Reader π Expr) → Except SyntaxError (Reader π' Expr) → Prop
  | none (limit : Nat) : DeeperInStep word text L (.error (.tooDeep limit)) (.error (.tooDeep limit))
  | some {p : Reader π Expr} {p' : Reader π' Expr} : ExprsInStep word text L p p' →
    DeeperInStep word text L (.ok p) (.ok p')

variable {expr operand : Reader π Expr} {expr' operand' : Reader π' Expr}
  {deeper : Except SyntaxError (Reader π Expr)} {deeper' : Except SyntaxError (Reader π' Expr)}

theorem arguments_inStep (h : Correspond word text L) (inStep : ExprsInStep word text L expr expr')
    (related : L ts ts') :
    SameOutcome word (fun r r' => List.Forall₂ (Expr.Alike word word text) r.1 r'.1 ∧ L r.2 r'.2)
      (arguments expr ts) (arguments expr' ts') := by
  rw [arguments_eq, arguments_eq, h.head?_kind_eq related]
  split
  · next closes =>
    cases ts with
    | nil => cases closes
    | cons t ts =>
      obtain ⟨t', us', rfl, -, -, others⟩ := h.cons related
      exact .ok ⟨.nil, others⟩
  · exact inStep.closedList h related

theorem callRest_inStep (h : Correspond word text L) (inStep : ExprsInStep word text L expr expr')
    {name p : Token π} {name' p' : Token π'} (same : word name.text name'.text)
    (related : L (name :: p :: ts) (name' :: p' :: ts')) (others : L ts ts') :
    SameOutcome word (fun r r' => Expr.Alike word word text r.1 r'.1 ∧ L r.2 r'.2)
      (callRest expr name p ts) (callRest expr' name' p' ts') := by
  have args := arguments_inStep h inStep others
  unfold callRest
  generalize arguments expr ts = x, arguments expr' ts' = y at args
  cases args with
  | error same => exact .error same
  | @ok r r' ok =>
    have length : ts'.length - r'.2.length = ts.length - r.2.length := by
      rw [h.length_eq others, h.length_eq ok.2]
    refine .ok ⟨.call same ok.1 ?_, ok.2⟩
    rw [length]
    exact h.text related (ts.length - r.2.length + 1)

theorem primary_inStep (h : Correspond word text L)
    (inStep : DeeperInStep word text L deeper deeper') :
    ExprsInStep word text L (primary deeper) (primary deeper') := by
  intro ts ts' related
  cases ts with
  | nil =>
    cases h.nil related
    exact .error .failedToParse
  | cons t ts =>
    obtain ⟨t', us', rfl, like, same, others⟩ := h.cons related
    simp only [primary, primaryRun, like.kind]
    cases t.kind with
    | literal => exact .ok ⟨.primary same, others⟩
    | closeParen => exact .error (.unexpectedToken same)
    | comma => exact .error (.unexpectedToken same)
    | openParen =>
      cases inStep with
      | none limit => exact .error (.tooDeep limit)
      | @some expr expr' inStep =>
        have inner := inStep others
        dsimp only
        generalize expr.run ts = x, expr'.run us' = y at inner
        cases inner with
        | error same => exact .error same
        | @ok r r' ok =>
          have closed := h.expect .closeParen ok.2
          dsimp only
          generalize expect .closeParen r.2 = x, expect .closeParen r'.2 = y at closed
          cases closed with
          | error same => exact .error same
          | ok rests => exact .ok ⟨.group ok.1, rests⟩
    | word =>
      by_cases reserved : t.isReserved = true
      · simp only [like.isReserved_eq, reserved, if_true]
        exact .error (.unexpectedToken same)
      · simp only [like.isReserved_eq, reserved]
        cases ts with
        | nil =>
          cases h.nil others
          exact .ok ⟨.primary same, others⟩
        | cons p after =>
          obtain ⟨p', after', rfl, like, -, rests⟩ := h.cons others
          by_cases opens : p.kind = .openParen
          · simp only [like.kind, opens, if_true]
            cases inStep with
            | none limit => exact .error (.tooDeep limit)
            | some inStep => exact callRest_inStep h inStep same related rests
          · simp only [like.kind, opens, if_false]
            exact .ok ⟨.primary same, others⟩

/-! ## Expressions -/

theorem comparison_inStep (h : Correspond word text L)
    (inStep : ExprsInStep word text L operand operand') :
    ExprsInStep word text L (comparison operand) (comparison operand') := by
  intro ts ts' related
  have left := inStep related
  simp only [comparison]
  generalize operand.run ts = x, operand'.run ts' = y at left
  cases left with
  | error same => exact .error same
  | @ok l l' ok =>
    obtain ⟨l, ts⟩ := l
    obtain ⟨l', ts'⟩ := l'
    obtain ⟨left, rests⟩ := ok
    cases ts with
    | nil =>
      cases h.nil rests
      exact .ok ⟨left, rests⟩
    | cons t ts =>
      obtain ⟨t', us', rfl, like, -, others⟩ := h.cons rests
      simp only [comparisonRest, like.comparisonOperator?_eq, like.isKeyword_eq]
      cases t.comparisonOperator? with
      | some op =>
        have right := inStep others
        dsimp only
        generalize operand.run ts = x, operand'.run us' = y at right
        cases right with
        | error same => exact .error same
        | ok ok => exact .ok ⟨.comparison left ok.1, ok.2⟩
      | none =>
        by_cases isIn : t.isKeyword "in" = true
        · have values := listValues_inStep h others
          simp only [isIn, if_true]
          generalize listValues.run ts = x, listValues.run us' = y at values
          cases values with
          | error same => exact .error same
          | ok ok => exact .ok ⟨.inList left ok.1, ok.2⟩
        · simp only [isIn, Bool.false_eq_true, if_false]
          exact .ok ⟨left, rests⟩

theorem Expr.Alike.foldl_logical {leaf name text : String → String → Prop} (op : Connective)
    {e e' : Expr} {es es' : List Expr} (first : Alike leaf name text e e')
    (others : List.Forall₂ (Alike leaf name text) es es') :
    Alike leaf name text (es.foldl (.logical op) e) (es'.foldl (.logical op) e') := by
  induction others generalizing e e' with
  | nil => exact first
  | cons next _ ih => exact ih (.logical first next)

theorem chain_inStep (h : Correspond word text L) (op : Connective)
    (inStep : ExprsInStep word text L operand operand') :
    ExprsInStep word text L (chain op operand) (chain op operand') :=
  (inStep.separated h fun like => congrFun like.isKeyword_eq op.text).map
    fun _ _ alike => alike.1.foldl_logical op alike.2

theorem exprOver_inStep (h : Correspond word text L)
    (inStep : ExprsInStep word text L operand operand') :
    ExprsInStep word text L (exprOver operand) (exprOver operand') :=
  chain_inStep h .or (chain_inStep h .and inStep)

theorem unaryWith_inStep (h : Correspond word text L)
    (inStep : DeeperInStep word text L deeper deeper') :
    ExprsInStep word text L (unaryWith deeper) (unaryWith deeper') := by
  intro ts ts' related
  cases ts with
  | nil =>
    cases h.nil related
    exact .error .failedToParse
  | cons t ts =>
    obtain ⟨t', us', rfl, like, -, others⟩ := h.cons related
    simp only [unaryWith, like.isKeyword_eq]
    split
    · cases inStep with
      | none limit => exact .error (.tooDeep limit)
      | @some unary unary' inStep =>
        have operand := inStep others
        dsimp only
        generalize unary.run ts = x, unary'.run us' = y at operand
        cases operand with
        | error same => exact .error same
        | ok ok => exact .ok ⟨.not ok.1, ok.2⟩
    · have inner : DeeperInStep word text L (deeper.map exprOver) (deeper'.map exprOver) := by
        cases inStep with
        | none limit => exact .none limit
        | some inStep => exact .some (exprOver_inStep h inStep)
      exact comparison_inStep h (primary_inStep h inner) related

theorem unary_inStep (h : Correspond word text L) (depth : Nat) :
    ExprsInStep word text L (unary depth) (unary depth) := by
  induction depth with
  | zero => exact unaryWith_inStep h (.none maxDepth)
  | succ depth ih => exact unaryWith_inStep h (.some ih)

/-- Corresponding runs are read as alike trees, or fail in the same way. -/
theorem Expr.ofTokens_inStep (h : Correspond word text L) (related : L ts ts') :
    SameOutcome word (Alike word word text) (ofTokens ts) (ofTokens ts') := by
  have ran := exprOver_inStep h (unary_inStep h maxDepth) related
  unfold ofTokens
  generalize (exprOver (unary maxDepth)).run ts = x, (exprOver (unary maxDepth)).run ts' = y at ran
  cases ran with
  | error same => exact .error same
  | @ok r r' ok =>
    obtain ⟨e, ts⟩ := r
    obtain ⟨e', ts'⟩ := r'
    obtain ⟨alike, rests⟩ := ok
    cases ts with
    | nil =>
      cases h.nil rests
      exact .ok alike
    | cons t ts =>
      obtain ⟨t', us', rfl, -, same, -⟩ := h.cons rests
      exact .error (.unexpectedToken same)

end Readers

end FilterSql.Filter
