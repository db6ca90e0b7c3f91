import FilterSql.Proofs.Compile
import FilterSql.Proofs.Phrases
import FilterSql.Proofs.PlacedTokens
import FilterSql.Proofs.SqlGrammar

/-!
# The structure of compiled conditions

A filter without calls stands for a condition: its groups are dropped, its paths are columns, its
literals are parameters, and comparisons with `null` are null tests. Compiling writes that condition
as text, with parentheses around groups, negated operands, and connectives below a connective. This
module shows that these are enough: the text is read in one way, and what is read is the condition
that the filter stands for, up to parentheses.

The proof follows the tree. Each kind of expression is written as a phrase of one rule of the grammar
of conditions, the one that binds as the expression does, and the parser of filters only puts
operands on the two sides of a comparison.

## Main statements

* `Compiler.operand_transcribes`: an operand is a phrase of the rule of its expression.
* `Compiler.compile_sql_structure`: the SQL of a filter has the structure of the filter.
-/

namespace FilterSql.Filter.Expr

/-- Whether the expression is `null`, in any number of groups. -/
def isNull (e : Expr) : Bool :=
  match e.ungrouped with
  | .primary text => Literal.isNull text
  | _ => false

/-- A group that is `null` holds a literal that stands in a group by itself. -/
theorem exists_subterm_of_isNull {e : Expr} (h : (Expr.group e).isNull = true) :
    ∃ text, Literal.isNull text = true ∧ Subterm (.group (.primary text)) (.group e) := by
  induction e with
  | primary text => exact ⟨text, h, .self⟩
  | group e ih =>
    obtain ⟨text, null, sub⟩ := ih h
    exact ⟨text, null, .grouped sub⟩
  | call | not | comparison | logical | inList => cases h

end FilterSql.Filter.Expr

namespace FilterSql.Sql

open FilterSql.Filter hiding Token
open Catalog Grammar
open FilterSql.Parser (Before Separated before_cons separated_cons_iff separated_single_iff)

/-! ## What a filter stands for -/

/-- The test that an operand is or is not null. Only equality can be tested. -/
def Grammar.Condition.nullTest? (op : ComparisonOperator) (operand : Condition) :
    Option Condition :=
  match op with
  | .eq => some (.nullTest false operand)
  | .ne => some (.nullTest true operand)
  | _ => none

namespace Compiler

/-- The parameter after those of the given values. -/
def nextParam (c : Compiler) (value : Value) : StateT (List Value) Option Leaf := fun values =>
  some (.param (parameterName c.options.sigil (values.length + 1)), values ++ [value])

def leaf (c : Compiler) (text : String) : StateT (List Value) Option Leaf :=
  if Literal.isNull text then return .null
  else if Literal.isLiteral text then c.nextParam (c.literalValue text)
  else do return .column (← c.columns.get? text).filterSql

/-- The comparison of two operands, or the null test of the one that is not `null`. -/
def comparison? (op : String) (l r : Expr) (left right : Condition) : Option Condition := do
  let op ← ComparisonOperator.ofToken? op
  if r.isNull then left.nullTest? op
  else if l.isNull then right.nullTest? op
  else return .compare op left right

/-- The condition that an expression without calls stands for, with the values of its parameters:
groups are dropped, paths are their columns, and literals are parameters, which are numbered from
left to right. -/
def skeleton (c : Compiler) : Expr → StateT (List Value) Option Condition
  | .primary text => return .leaf (← c.leaf text)
  | .call _ _ _ => failure
  | .not e => return .not (← c.skeleton e)
  | .group e => c.skeleton e
  | .comparison op l r => do
    let left ← c.skeleton l
    let right ← c.skeleton r
    comparison? op l r left right
  | .logical op l r => return .logical op (← c.skeleton l) (← c.skeleton r)
  | .inList l values => do
    return .inList (← c.skeleton l) (← values.mapM fun value => c.nextParam (Literal.value value))

end Compiler

/-! ## Phrases of looser rules -/

namespace Grammar

variable {ts us : List Token} {c d : Condition}

theorem Token.connects_self (op : Connective) :
    (Token.keyword (.connective op)).connects op = true :=
  beq_self_eq_true (Token.keyword (.connective op))

theorem IsOperand.isTest (h : IsOperand ts c) : IsTest ts c := by
  have test : IsTest (ts ++ []) c := .mk h .none
  rwa [List.append_nil] at test

theorem IsNegation.isConjunction (h : IsNegation ts c) : IsConjunction ts c :=
  .mk (separated_single_iff.2 h)

theorem IsConjunction.isDisjunction (h : IsConjunction ts c) : IsDisjunction ts c :=
  .mk (separated_single_iff.2 h)

/-- The phrases with the connective at the top. -/
def Joined : Connective → List Token → Condition → Prop
  | .and => IsConjunction
  | .or => IsDisjunction

theorem Joined.isDisjunction {op : Connective} (h : Joined op ts c) : IsDisjunction ts c := by
  cases op with
  | and => exact IsConjunction.isDisjunction h
  | or => exact h

theorem IsNegation.joined (op : Connective) (left : IsNegation ts c) (right : IsNegation us d) :
    Joined op (ts ++ .keyword (.connective op) :: us) (.logical op c d) := by
  cases op with
  | and =>
    have phrases : Separated (·.connects .and) IsNegation _ (c, [d]) :=
      separated_cons_iff.2 ⟨ts, _, us, rfl, left, Token.connects_self _,
        separated_single_iff.2 right⟩
    exact IsConjunction.mk phrases
  | or =>
    have phrases : Separated (·.connects .or) IsConjunction _ (c, [d]) :=
      separated_cons_iff.2 ⟨ts, _, us, rfl, left.isConjunction, Token.connects_self _,
        separated_single_iff.2 right.isConjunction⟩
    exact IsDisjunction.mk phrases

end Grammar

/-! ## Clauses as phrases -/

namespace Clause

variable {sigil : Char} {clause clause' : Clause} {cond cond' : Condition}
  {phrase phrase' : List Token → Condition → Prop}

/-- The characters that a clause is rendered as. -/
def chars (sigil : Char) (c : Clause) : List Char := c.flatMap (·.render sigil)

theorem chars_append (c d : Clause) : chars sigil (c ++ d) = chars sigil c ++ chars sigil d :=
  List.flatMap_append

theorem chars_ofString (s : String) : chars sigil (ofString s) = s.toList := by
  simp [chars, ofString, List.flatMap_map, Symbol.render]

theorem chars_param (n : Nat) : chars sigil [.param n] = (parameterName sigil n).toList := by
  simp [chars, Symbol.render]

theorem toList_render (c : Clause) : (c.render sigil).toList = chars sigil c :=
  String.toList_ofList

/-- The clause is the spelling of a phrase of the condition. -/
def Writes (sigil : Char) (clause : Clause) (phrase : List Token → Condition → Prop)
    (cond : Condition) : Prop :=
  ∃ ts, Spells sigil EndsWord (clause.chars sigil) ts ∧ phrase ts cond

theorem Writes.mono (h : clause.Writes sigil phrase cond)
    (imp : ∀ {ts}, phrase ts cond → phrase' ts cond) : clause.Writes sigil phrase' cond := by
  obtain ⟨ts, spells, written⟩ := h
  exact ⟨ts, spells, imp written⟩

theorem writes_leaf {l : Leaf} {t : Token} (spells : Spells sigil EndsWord (clause.chars sigil) [t])
    (isLeaf : IsLeaf [t] l) : clause.Writes sigil IsOperand (.leaf l) :=
  ⟨[t], spells, .leaf isLeaf⟩

theorem spells_parenthesized {ts : List Token}
    (h : Spells sigil EndsWord (clause.chars sigil) ts) :
    Spells sigil EndsWord (clause.parenthesized.chars sigil)
      (.openParen :: (ts ++ [.closeParen])) := by
  have closed := h.append (spells_closeParen sigil)
    fun _ _ => before_cons (rfl : isIdentChar ')' = false)
  have enclosed := (spells_openParen sigil).free_append closed
  rw [parenthesized, chars_append, chars_append, chars_ofString, chars_ofString, List.append_assoc]
  exact enclosed.mono fun _ _ => trivial

theorem Writes.parenthesized (h : clause.Writes sigil IsDisjunction cond) :
    clause.parenthesized.Writes sigil IsOperand (.paren cond) := by
  obtain ⟨ts, spells, written⟩ := h
  exact ⟨_, spells_parenthesized spells, .paren written⟩

theorem endsWord_blank : EndsWord ' ' := rfl

theorem Writes.not (h : clause.Writes sigil IsOperand cond) :
    (ofString "NOT " ++ clause).Writes sigil IsNegation (.not cond) := by
  obtain ⟨ts, spells, written⟩ := h
  refine ⟨.keyword .not :: ts, ?_, .not (.test written.isTest)⟩
  have rest := spells.blank (c := ' ') (by decide)
  have negated := (spells_keyword sigil .not).append rest fun _ _ => before_cons endsWord_blank
  rw [chars_append, chars_ofString]
  exact negated

theorem Writes.logical (op : Connective) (left : clause.Writes sigil IsNegation cond)
    (right : clause'.Writes sigil IsNegation cond') :
    (clause ++ ofString (" " ++ op.sql ++ " ") ++ clause').Writes sigil (Joined op)
      (.logical op cond cond') := by
  obtain ⟨ts, front, written⟩ := left
  obtain ⟨us, spells, written'⟩ := right
  refine ⟨ts ++ ([.keyword (.connective op)] ++ us), ?_, written.joined op written'⟩
  have rest := spells.blank (c := ' ') (by decide)
  have middle := (spells_keyword sigil (.connective op)).append rest
    fun _ _ => before_cons endsWord_blank
  have joined := front.append (middle.blank (c := ' ') (by decide))
    fun _ _ => before_cons endsWord_blank
  simp only [chars_append, chars_ofString, String.toList_append, List.append_assoc]
  exact joined

/-- An operand and a tail make a test. The tail starts with a blank, which ends the operand. -/
theorem Writes.test {tail : Clause} {us : List Token} (h : clause.Writes sigil IsOperand cond)
    (start : (tail.chars sigil).head? = some ' ')
    (spells : Spells sigil EndsWord (tail.chars sigil) us)
    (rest : IsTail cond us cond') : (clause ++ tail).Writes sigil IsTest cond' := by
  obtain ⟨ts, front, written⟩ := h
  refine ⟨ts ++ us, ?_, .mk written rest⟩
  rw [chars_append]
  obtain ⟨cs, text⟩ := List.head?_eq_some_iff.1 start
  rw [text] at spells ⊢
  exact front.append spells fun _ _ => before_cons endsWord_blank

theorem Writes.compare (op : ComparisonOperator) (left : clause.Writes sigil IsOperand cond)
    (right : clause'.Writes sigil IsOperand cond') :
    (clause ++ ofString (" " ++ op.sql ++ " ") ++ clause').Writes sigil IsTest
      (.compare op cond cond') := by
  obtain ⟨us, spells, written⟩ := right
  rw [List.append_assoc]
  apply left.test _ _ (.compare written)
  · simp [chars_append, chars_ofString]
  · rw [chars_append, chars_ofString]
    exact (spells_operator sigil op).free_append spells

theorem Writes.isNull (h : clause.Writes sigil IsOperand cond) :
    (clause ++ ofString " IS NULL").Writes sigil IsTest (.nullTest false cond) := by
  apply h.test _ _ .isNull
  · rw [chars_ofString]
    rfl
  · rw [chars_ofString]
    exact spells_spaced sigil [.is, .null]

theorem Writes.isNotNull (h : clause.Writes sigil IsOperand cond) :
    (clause ++ ofString " IS NOT NULL").Writes sigil IsTest (.nullTest true cond) := by
  apply h.test _ _ .isNotNull
  · rw [chars_ofString]
    rfl
  · rw [chars_ofString]
    exact spells_spaced sigil [.is, .not, .null]

/-- Parameters with commas between them. -/
theorem spells_params (sign : IsSign sigil) (n : Nat) (ns : List Nat) :
    ∃ ts, Spells sigil EndsWord (chars sigil (List.intercalate (ofString ",")
        ((n :: ns).map fun n => [Symbol.param n]))) ts ∧
      Separated (· == .comma) IsLeaf ts (.param (parameterName sigil n),
        ns.map fun n => .param (parameterName sigil n)) := by
  induction ns generalizing n with
  | nil =>
    refine ⟨[.param (parameterName sigil n)], ?_, separated_single_iff.2 (.param _)⟩
    rw [List.map_singleton, List.intercalate_singleton, chars_param]
    exact spells_param sign n
  | cons m ns ih =>
    obtain ⟨ts, spells, items⟩ := ih m
    refine ⟨[.param (parameterName sigil n)] ++ ([.comma] ++ ts), ?_,
      separated_cons_iff.2 ⟨_, .comma, ts, rfl, .param _, rfl, items⟩⟩
    have rest := (spells_comma sigil).free_append spells
    have text := (spells_param sign n).append rest
      fun _ _ => before_cons (rfl : isIdentChar ',' = false)
    rw [List.map_cons, List.map_cons, List.intercalate_cons_cons, chars_append, chars_append,
      chars_param, chars_ofString, List.append_assoc]
    exact text

theorem Writes.inList (sign : IsSign sigil) (h : clause.Writes sigil IsOperand cond) (n : Nat)
    (ns : List Nat) :
    (clause ++ ofString " IN " ++ Clause.parenthesized (List.intercalate (ofString ",")
      ((n :: ns).map fun n => [Symbol.param n]))).Writes sigil IsTest
        (.inList cond ((n :: ns).map fun n => .param (parameterName sigil n))) := by
  obtain ⟨ts, spells, items⟩ := spells_params sign n ns
  rw [List.append_assoc]
  apply h.test _ _ (.inList items)
  · simp [chars_append, chars_ofString]
  · have values := (spells_parenthesized spells).blank (c := ' ') (by decide)
    have list := (spells_spaced sigil [.member]).append values
      fun _ _ => before_cons endsWord_blank
    rw [chars_append, chars_ofString]
    exact list

end Clause

/-! ## Steps of a compilation -/

/-- The parameters are bound to the values, in order. -/
structure Bindings.Hold (b : Bindings) (values : List Value) : Prop where
  count : b.count = values.length
  entries : b.table.entries = (values.zipIdx 1).map Prod.swap

theorem Bindings.hold_empty : Bindings.empty.Hold [] := ⟨rfl, rfl⟩

theorem Bindings.Hold.bindValue {b : Bindings} {values : List Value} (h : b.Hold values)
    (value : Value) :
    Bindings.Hold ⟨b.count + 1, b.table.insert (b.count + 1) value⟩ (values ++ [value]) := by
  have fresh : b.count + 1 ∉ b.table.keys := by
    rw [Table.keys, h.entries, h.count, List.map_map]
    intro member
    obtain ⟨⟨v, i⟩, found, same⟩ := List.mem_map.1 member
    have bound := List.snd_lt_of_mem_zipIdx found
    simp only [Function.comp_apply, Prod.fst_swap] at same
    omega
  have whole : b.table ++ Table.empty = b.table := congrArg Table.mk (List.append_nil _)
  have inserted := Table.insert_append_of_notMem fresh .empty value
  rw [whole] at inserted
  refine ⟨by simp [h.count], ?_⟩
  change (b.table.insert (b.count + 1) value).entries = _
  rw [inserted, Table.entries_append, h.entries, h.count, List.zipIdx_append, List.map_append,
    Nat.add_comm]
  rfl

namespace Compiler

variable {c : Compiler} {σ : Char}

/-- A numbering goes on from where its first step has ended. -/
theorem bind_eq_of_eq_some {α β γ : Type} {x : StateT γ Option α} {f : α → StateT γ Option β}
    {a : α} {s t : γ} (h : x s = some (a, t)) : (x >>= f) s = f a t := by
  change (x s >>= fun p => f p.1 p.2) = f a t
  rw [h]
  rfl

/-- A null test is the tail that the operator stands for. -/
theorem nullTest_writes {op : ComparisonOperator} {token : String} {q : Fragment} {clause : Clause}
    {cond : Condition} (h : nullTest op token q = .ok clause)
    (operand : q.toClause.Writes σ IsOperand cond) :
    ∃ negated, (∀ d, Condition.nullTest? op d = some (.nullTest negated d)) ∧
      clause.Writes σ IsTest (.nullTest negated cond) := by
  unfold nullTest at h
  split at h
  · cases h
    exact ⟨false, fun _ => rfl, operand.isNull⟩
  · cases h
    exact ⟨true, fun _ => rfl, operand.isNotNull⟩
  · cases h

theorem compareFragments_writes {token : String} {l r : Expr} {p q : Fragment} {clause : Clause}
    {left right : Condition} (h : compareFragments token p q = .ok clause)
    (nulll : p = .null ↔ l.isNull = true) (nullr : q = .null ↔ r.isNull = true)
    (writesl : p.toClause.Writes σ IsOperand left) (writesr : q.toClause.Writes σ IsOperand right) :
    ∃ cond, comparison? token l r left.erase right.erase = some cond.erase ∧
      clause.Writes σ IsTest cond := by
  unfold compareFragments at h
  cases found : ComparisonOperator.ofToken? token with
  | none =>
    rw [found] at h
    cases h
  | some op =>
    simp only [found] at h
    simp only [comparison?, found, Option.bind_eq_bind, Option.bind_some]
    split at h
    · obtain ⟨negated, eq, writes⟩ := nullTest_writes h writesl
      exact ⟨.nullTest negated left, by rw [if_pos (nullr.1 rfl), eq]; rfl, writes⟩
    · next other =>
      obtain ⟨negated, eq, writes⟩ := nullTest_writes h writesr
      have notNull : ¬r.isNull = true := fun null => other (nullr.2 null)
      exact ⟨.nullTest negated right, by rw [if_neg notNull, if_pos (nulll.1 rfl), eq]; rfl, writes⟩
    · next otherl otherr =>
      cases h
      have notNulll : ¬l.isNull = true := fun null => otherl (nulll.2 null)
      have notNullr : ¬r.isNull = true := fun null => otherr (nullr.2 null)
      exact ⟨.compare op left right, by rw [if_neg notNullr, if_neg notNulll]; rfl,
        writesl.compare op writesr⟩

theorem listValues_hold {declared : Option Edm.Kind} {path : String} {texts : List String}
    {b b' : Bindings} {values : List Value} {clauses : List Clause}
    (h : listValues declared path texts b = .ok (clauses, b')) (hold : b.Hold values) :
    ∃ (ns : List Nat) (values' : List Value), b'.Hold values' ∧ ns.length = texts.length ∧
      clauses = ns.map (fun n => [Symbol.param n]) ∧
      texts.mapM (fun text => c.nextParam (Literal.value text)) values =
        some (ns.map fun n => .param (parameterName c.options.sigil n), values') := by
  induction texts generalizing b values clauses with
  | nil =>
    cases h
    exact ⟨[], values, hold, rfl, rfl, rfl⟩
  | cons text texts ih =>
    obtain ⟨-, -, ds, ran, rfl⟩ := listValues_cons_eq_ok.1 h
    obtain ⟨ns, values', hold', length, rfl, numbered⟩ := ih ran (hold.bindValue _)
    refine ⟨(b.count + 1) :: ns, values', hold', by simp [length], rfl, ?_⟩
    rw [List.mapM_cons, bind_eq_of_eq_some rfl, bind_eq_of_eq_some numbered, hold.count]
    rfl

/-! ## Expressions -/

/-- The rule by which the SQL of an expression is read. -/
def rule : Expr → List Token → Condition → Prop
  | .primary _ | .call _ _ _ | .group _ => IsOperand
  | .comparison _ _ _ | .inList _ _ => IsTest
  | .not _ => IsNegation
  | .logical op _ _ => Joined op

theorem rule_of_rank {e : Expr} (h : e.rank = 0) : rule e = IsOperand := by
  cases e with
  | primary | call | group => rfl
  | logical op => cases op <;> cases h
  | not | comparison | inList => cases h

theorem isNegation_of_rule {e : Expr} (h : e.isLogical = false) {ts : List Token}
    {cond : Condition} (phrase : rule e ts cond) : IsNegation ts cond := by
  cases e with
  | primary | call | group => exact .test (IsOperand.isTest phrase)
  | comparison | inList => exact .test phrase
  | not => exact phrase
  | logical => cases h

theorem isDisjunction_of_rule {e : Expr} {ts : List Token} {cond : Condition}
    (phrase : rule e ts cond) : IsDisjunction ts cond := by
  cases logical : e.isLogical with
  | false => exact (isNegation_of_rule logical phrase).isConjunction.isDisjunction
  | true =>
    cases e with
    | logical => exact Joined.isDisjunction phrase
    | primary | call | not | group | comparison | inList => cases logical

/-- The operand is the SQL of the condition that the expression stands for, where the parameters of
the given values come before those of the expression. -/
structure Transcribes (c : Compiler) (e : Expr) (values : List Value) (o : Operand)
    (values' : List Value) (cond : Condition) : Prop where
  unit : o.unit = none
  null_iff : o.fragment = .null ↔ e.isNull = true
  skeleton : c.skeleton e values = some (cond.erase, values')
  writes : o.fragment.toClause.Writes c.options.sigil (rule e) cond

/-- A clause is not the keyword `NULL`, whatever it is the SQL of. -/
theorem clause_eq_null_iff {e : Expr} (h : e.isNull = false) (clause : Clause) :
    Fragment.clause clause = .null ↔ e.isNull = true := by
  simp [h]

/-- No calls, and no `null` in a group by itself. -/
structure Plain (e : Expr) : Prop where
  noCall : ∀ u, Expr.Subterm u e → u.isCall = false
  noGroupedNull : ∀ text, Literal.isNull text = true → ¬Expr.Subterm (.group (.primary text)) e

theorem Plain.subterm {u e : Expr} (h : Plain e) (sub : Expr.Subterm u e) : Plain u where
  noCall v part := h.noCall v (part.trans sub)
  noGroupedNull text null part := h.noGroupedNull text null (part.trans sub)

theorem primary_transcribes (sign : IsSign c.options.sigil)
    (names : ∀ column ∈ c.columns.columns, IsPlainName column.filterSql) {text : String}
    {b b' : Bindings} {values : List Value} {q : Fragment} (h : c.primary text b = .ok (q, b'))
    (hold : b.Hold values) :
    ∃ values' cond, b'.Hold values' ∧
      c.Transcribes (.primary text) values ⟨q, none⟩ values' cond := by
  cases null : Literal.isNull text with
  | true =>
    have eq : c.primary text = pure .null := by simp [primary, null]
    rw [eq] at h
    cases h
    refine ⟨values, .leaf .null, hold, rfl, iff_of_true rfl null, ?_, Clause.writes_leaf ?_ .null⟩
    · rw [skeleton, leaf, if_pos null]
      rfl
    · rw [Fragment.toClause, Clause.chars_ofString]
      exact spells_keyword c.options.sigil .null
  | false =>
    have notNull : (Expr.primary text).isNull = false := null
    rw [primary, if_neg (by simp [null])] at h
    cases isLiteral : Literal.isLiteral text with
    | true =>
      rw [if_pos isLiteral, literal_eq_bindValue_literalValue] at h
      cases h
      refine ⟨_, .leaf (.param (parameterName c.options.sigil (b.count + 1))), hold.bindValue _,
        rfl, by simp [notNull], ?_, Clause.writes_leaf ?_ (.param _)⟩
      · rw [skeleton, leaf, if_neg (by simp [null]), if_pos isLiteral, hold.count]
        rfl
      · rw [Fragment.toClause, Clause.chars_param]
        exact spells_param sign _
    | false =>
      rw [if_neg (by simp [isLiteral])] at h
      cases found : c.columns.get? text with
      | none =>
        rw [found] at h
        cases h
      | some column =>
        rw [found] at h
        cases h
        refine ⟨values, .leaf (.column column.filterSql), hold, rfl, clause_eq_null_iff notNull _,
          ?_, Clause.writes_leaf ?_ (.column _)⟩
        · rw [skeleton, leaf, if_neg (by simp [null]), if_neg (by simp [isLiteral]), found]
          rfl
        · rw [Fragment.toClause, Clause.chars_ofString]
          exact spells_name _ (names column (List.mem_of_find?_eq_some found))

section Transcribes

variable {e l r : Expr} {values values₁ values₂ : List Value} {o left right : Operand}
  {cond condl condr : Condition}

theorem Transcribes.isOperand (h : c.Transcribes e values o values₁ cond) (rank : e.rank = 0) :
    o.fragment.toClause.Writes c.options.sigil IsOperand cond :=
  rule_of_rank rank ▸ h.writes

theorem Transcribes.parenthesized (h : c.Transcribes e values o values₁ cond) :
    o.fragment.toClause.parenthesized.Writes c.options.sigil IsOperand (.paren cond) :=
  (h.writes.mono isDisjunction_of_rule).parenthesized

/-- A connective sees its operands as negations: tests and negations stand as they are, and other
connectives are put in parentheses. -/
theorem Transcribes.connected (h : c.Transcribes e values o values₁ cond) :
    ∃ cond', c.skeleton e values = some (cond'.erase, values₁) ∧
      (connected e o.fragment).Writes c.options.sigil IsNegation cond' := by
  unfold Compiler.connected
  cases logical : e.isLogical with
  | true => exact ⟨.paren cond, h.skeleton, h.parenthesized.mono fun phrase => .test phrase.isTest⟩
  | false => exact ⟨cond, h.skeleton, h.writes.mono (isNegation_of_rule logical)⟩

theorem Transcribes.not (h : c.Transcribes e values o values₁ cond) :
    c.Transcribes (.not e) values
      ⟨.clause (.ofString "NOT " ++ o.fragment.toClause.parenthesized), none⟩ values₁
      (.not (.paren cond)) where
  unit := rfl
  null_iff := clause_eq_null_iff rfl _
  skeleton := by
    rw [Compiler.skeleton, bind_eq_of_eq_some h.skeleton]
    rfl
  writes := h.parenthesized.not

theorem Transcribes.group (h : c.Transcribes e values o values₁ cond) (plain : Plain (.group e)) :
    c.Transcribes (.group e) values ⟨.clause o.fragment.toClause.parenthesized, none⟩ values₁
      (.paren cond) where
  unit := rfl
  null_iff := by
    refine clause_eq_null_iff (Bool.eq_false_iff.2 fun null => ?_) _
    obtain ⟨text, isNull, sub⟩ := Expr.exists_subterm_of_isNull null
    exact plain.noGroupedNull text isNull sub
  skeleton := h.skeleton
  writes := h.parenthesized

/-- Without calls there is no unit, so the right side of a comparison stays as it is. -/
theorem Transcribes.comparison {op : String} {b b' : Bindings}
    (hl : c.Transcribes l values left values₁ condl) (rankl : l.rank = 0)
    (hr : c.Transcribes r values₁ right values₂ condr) (rankr : r.rank = 0)
    (h : compareOperands op left right b = .ok (o, b')) :
    b' = b ∧ ∃ cond, c.Transcribes (.comparison op l r) values o values₂ cond := by
  simp only [compareOperands, hl.unit, threshold, Compile.bind_eq_ok, Compile.liftM_eq_ok] at h
  obtain ⟨q, b₁, same, clause, b₂, ⟨compared, rfl⟩, h⟩ := h
  cases same
  cases h
  obtain ⟨cond, eq, writes⟩ := compareFragments_writes compared hl.null_iff hr.null_iff
    (hl.isOperand rankl) (hr.isOperand rankr)
  refine ⟨rfl, cond, rfl, clause_eq_null_iff rfl _, ?_, writes⟩
  rw [Compiler.skeleton, bind_eq_of_eq_some hl.skeleton, bind_eq_of_eq_some hr.skeleton, eq]
  rfl

theorem Transcribes.logical (op : Connective) (hl : c.Transcribes l values left values₁ condl)
    (hr : c.Transcribes r values₁ right values₂ condr) :
    ∃ cond, c.Transcribes (.logical op l r) values
      ⟨.clause (Compiler.connected l left.fragment ++ .ofString (" " ++ op.sql ++ " ") ++
        Compiler.connected r right.fragment), none⟩ values₂ cond := by
  obtain ⟨condl, skeletonl, writesl⟩ := hl.connected
  obtain ⟨condr, skeletonr, writesr⟩ := hr.connected
  refine ⟨.logical op condl condr, rfl, clause_eq_null_iff rfl _, ?_, writesl.logical op writesr⟩
  rw [Compiler.skeleton, bind_eq_of_eq_some skeletonl, bind_eq_of_eq_some skeletonr]
  rfl

theorem Transcribes.inList (sign : IsSign c.options.sigil) {texts : List String} {n : Nat}
    {ns : List Nat} (h : c.Transcribes l values left values₁ cond) (rank : l.rank = 0)
    (numbered : texts.mapM (fun text => c.nextParam (Literal.value text)) values₁ =
      some ((n :: ns).map fun n => .param (parameterName c.options.sigil n), values₂)) :
    ∃ cond, c.Transcribes (.inList l texts) values
      ⟨.clause (left.fragment.toClause ++ .ofString " IN " ++ Clause.parenthesized
        (List.intercalate (Clause.ofString ",") ((n :: ns).map fun n => [Symbol.param n]))), none⟩
      values₂ cond := by
  refine ⟨_, rfl, clause_eq_null_iff rfl _, ?_, (h.isOperand rank).inList sign n ns⟩
  rw [Compiler.skeleton, bind_eq_of_eq_some h.skeleton, bind_eq_of_eq_some numbered]
  rfl

end Transcribes

/-- The SQL of an expression is a phrase of the rule that binds as the expression does. -/
theorem operand_transcribes (sign : IsSign c.options.sigil)
    (names : ∀ column ∈ c.columns.columns, IsPlainName column.filterSql) {π : Type} [Place π]
    {ts : List (Filter.Token π)} {e : Expr} (phrase : IsExpr ts e) (plain : Plain e)
    {leading : Bool} {b b' : Bindings} {values : List Value} {o : Operand}
    (h : c.operand leading e b = .ok (o, b')) (hold : b.Hold values) :
    ∃ values' cond, b'.Hold values' ∧ c.Transcribes e values o values' cond := by
  induction e generalizing ts leading b b' values o with
  | primary text =>
    simp only [operand, Compile.bind_eq_ok] at h
    obtain ⟨q, b₁, ran, h⟩ := h
    cases h
    exact primary_transcribes sign names ran hold
  | call name args raw =>
    have called := plain.noCall _ .self
    cases called
  | not e ih =>
    obtain ⟨t, us, -, -, inner, -⟩ := isExpr_not_iff.1 phrase
    simp only [operand, Compile.bind_eq_ok] at h
    obtain ⟨q, b₁, ran, h⟩ := h
    cases h
    obtain ⟨values₁, cond, hold₁, trans⟩ := ih inner (plain.subterm (.negated .self)) ran hold
    exact ⟨values₁, _, hold₁, trans.not⟩
  | group e ih =>
    obtain ⟨p, us, q, -, -, inner, -⟩ := isExpr_group_iff.1 phrase
    have notCall : e.ungrouped.isCall = false :=
      plain.noCall _ (.grouped (Expr.subterm_ungrouped e))
    simp only [operand, notCall, Bool.and_false, Bool.false_eq_true, if_false,
      Compile.bind_eq_ok] at h
    obtain ⟨q, b₁, ran, h⟩ := h
    cases h
    obtain ⟨values₁, cond, hold₁, trans⟩ := ih inner (plain.subterm (.grouped .self)) ran hold
    exact ⟨values₁, _, hold₁, trans.group plain⟩
  | comparison op l r ihl ihr =>
    obtain ⟨us, t, vs, -, -, -, ⟨phrasel, rankl⟩, phraser, rankr⟩ := isExpr_comparison_iff.1 phrase
    simp only [operand_comparison, Compile.bind_eq_ok] at h
    obtain ⟨left, b₁, ranl, right, b₂, ranr, compared⟩ := h
    obtain ⟨values₁, condl, hold₁, transl⟩ :=
      ihl phrasel (plain.subterm (.compareLeft .self)) ranl hold
    obtain ⟨values₂, condr, hold₂, transr⟩ :=
      ihr phraser (plain.subterm (.compareRight .self)) ranr hold₁
    obtain ⟨rfl, cond, trans⟩ := transl.comparison rankl transr rankr compared
    exact ⟨values₂, cond, hold₂, trans⟩
  | logical op l r ihl ihr =>
    obtain ⟨us, t, vs, -, -, ⟨phrasel, -⟩, phraser, -⟩ := isExpr_logical_iff.1 phrase
    simp only [operand, Compile.bind_eq_ok] at h
    obtain ⟨left, b₁, ranl, right, b₂, ranr, h⟩ := h
    cases h
    obtain ⟨values₁, condl, hold₁, transl⟩ :=
      ihl phrasel (plain.subterm (.connectLeft .self)) ranl hold
    obtain ⟨values₂, condr, hold₂, transr⟩ :=
      ihr phraser (plain.subterm (.connectRight .self)) ranr hold₁
    obtain ⟨cond, trans⟩ := transl.logical op transr
    exact ⟨values₂, cond, hold₂, trans⟩
  | inList l texts ih =>
    obtain ⟨us, t, p, vs, q, text, others, -, ⟨phrasel, rankl⟩, -, -, -, rfl, -⟩ :=
      isExpr_inList_iff.1 phrase
    simp only [operand, Compile.bind_eq_ok] at h
    obtain ⟨left, b₁, ran, clauses, b₂, listed, h⟩ := h
    cases h
    obtain ⟨values₁, cond, hold₁, trans⟩ := ih phrasel (plain.subterm (.listed .self)) ran hold
    obtain ⟨ns, values₂, hold₂, length, rfl, numbered⟩ := listValues_hold listed hold₁
    cases ns with
    | nil => cases length
    | cons n ns =>
      obtain ⟨cond, trans⟩ := trans.inList sign rankl numbered
      exact ⟨values₂, cond, hold₂, trans⟩

/-- Products without a name, and products that do not cost more than five. -/
def namelessOrCheap : Expr :=
  .logical .or (.comparison "eq" (.primary "Name") (.primary "null"))
    (.not (.group (.comparison "gt" (.primary "Price") (.primary "5"))))

theorem parse_namelessOrCheap :
    Expr.parse "Name eq null or not (Price gt 5)" = .ok namelessOrCheap := by
  have tokens : spacedTokens (dropFilterName "Name eq null or not (Price gt 5)") =
      .ok [⟨"", .word, "Name"⟩, ⟨" ", .word, "eq"⟩, ⟨" ", .word, "null"⟩, ⟨" ", .word, "or"⟩,
        ⟨" ", .word, "not"⟩, ⟨" ", .openParen, "("⟩, ⟨"", .word, "Price"⟩, ⟨" ", .word, "gt"⟩,
        ⟨" ", .literal, "5"⟩, ⟨"", .closeParen, ")"⟩] :=
    eq_ok_of_toOption (by decide +kernel)
  have name : IsExpr [⟨"", .word, "Name"⟩] (.primary "Name") := isExpr_word _ (by decide)
  have null : IsExpr [⟨" ", .word, "null"⟩] (.primary "null") := isExpr_word _ (by decide)
  have price : IsExpr [⟨"", .word, "Price"⟩] (.primary "Price") := isExpr_word _ (by decide)
  have five : IsExpr [⟨" ", .literal, "5"⟩] (.primary "5") := isExpr_literal _ _
  have isNull : IsExpr _ (.comparison "eq" (.primary "Name") (.primary "null")) :=
    isExpr_comparison_iff.2
      ⟨_, ⟨" ", .word, "eq"⟩, _, rfl, by decide, by decide, ⟨name, rfl⟩, null, rfl⟩
  have greater : IsExpr _ (.comparison "gt" (.primary "Price") (.primary "5")) :=
    isExpr_comparison_iff.2
      ⟨_, ⟨" ", .word, "gt"⟩, _, rfl, by decide, by decide, ⟨price, rfl⟩, five, rfl⟩
  have negated := isExpr_not_iff.2 ⟨⟨" ", .word, "not"⟩, _, rfl, by decide,
    isExpr_group_iff.2 ⟨⟨" ", .openParen, "("⟩, _, ⟨"", .closeParen, ")"⟩, rfl, rfl, greater, rfl⟩,
    by decide⟩
  have phrase : IsExpr _ (.logical .or _ _) := isExpr_logical_iff.2
    ⟨_, ⟨" ", .word, "or"⟩, _, rfl, by decide, ⟨isNull, by decide⟩, negated, by decide⟩
  exact Expr.parse_of_isExpr tokens phrase (by decide)

theorem plain_namelessOrCheap : Plain namelessOrCheap where
  noCall u sub := by
    cases sub with
    | self => rfl
    | connectLeft sub =>
      cases sub with
      | self => rfl
      | compareLeft sub | compareRight sub => cases sub with | self => rfl
    | connectRight sub =>
      cases sub with
      | self => rfl
      | negated sub =>
        cases sub with
        | self => rfl
        | grouped sub =>
          cases sub with
          | self => rfl
          | compareLeft sub | compareRight sub => cases sub with | self => rfl
  noGroupedNull null _ sub := by
    cases sub with
    | connectLeft sub => cases sub with | compareLeft sub | compareRight sub => cases sub
    | connectRight sub =>
      cases sub with
      | negated sub =>
        cases sub with
        | grouped sub => cases sub with | compareLeft sub | compareRight sub => cases sub

/-- The SQL of a parsed filter without calls has the structure of the filter: it is read in exactly
one way, and without its parentheses what is read is what the filter stands for, with the parameters
bound to the literals that they replace. The columns are plain names, and nothing else starts with
the sign of parameters. -/
theorem compile_sql_structure {c : Compiler} {text : String} {e : Expr} {p : Predicate}
    (sign : IsSign c.options.sigil)
    (names : ∀ column ∈ c.columns.columns, IsPlainName column.filterSql)
    (parsed : Expr.parse text = .ok e) (noCall : ∀ u, Expr.Subterm u e → u.isCall = false)
    (noGroupedNull : ∀ null, Literal.isNull null = true →
      ¬Expr.Subterm (.group (.primary null)) e)
    (compiled : c.compile e = .ok p) :
    ∃ sql cond values, p.sql = some sql ∧
      (∀ cond', Reads c.options.sigil sql cond' ↔ cond' = cond) ∧
      c.skeleton e [] = some (cond.erase, values) ∧
      p.parameters.entries =
        (values.zipIdx 1).map fun v => (parameterName c.options.sigil v.2, v.1) := by
  obtain ⟨ts, phrase⟩ := Expr.isExpr_of_parse parsed
  obtain ⟨o, b, ran, rfl⟩ := compile_eq_ok.1 compiled
  obtain ⟨values, cond, hold, trans⟩ :=
    operand_transcribes sign names phrase ⟨noCall, noGroupedNull⟩ ran Bindings.hold_empty
  obtain ⟨us, spells, written⟩ := trans.writes.mono isDisjunction_of_rule
  have reads : Reads c.options.sigil (o.fragment.toClause.render c.options.sigil) cond :=
    ⟨us, Clause.toList_render _ ▸ spells.tokens?_eq, written⟩
  refine ⟨_, cond, values, rfl, fun cond' => ?_, trans.skeleton, ?_⟩
  · exact ⟨fun other => other.unique reads, fun eq => eq ▸ reads⟩
  · rw [Table.entries_mapKeys, hold.entries, List.map_map]
    rfl

theorem compile_sql_structure_namelessOrCheap :
    ∃ p sql cond, Expr.parse "Name eq null or not (Price gt 5)" = .ok namelessOrCheap ∧
      shop.compile namelessOrCheap = .ok p ∧ p.sql = some sql ∧
      (∀ cond', Reads '@' sql cond' ↔ cond' = cond) ∧
      cond.erase = .logical .or (.nullTest false (.leaf (.column "name")))
        (.not (.compare .gt (.leaf (.column "price")) (.leaf (.param "@p1")))) ∧
      p.parameters.entries = [("@p1", .int 5)] := by
  have stands : shop.skeleton namelessOrCheap [] =
      some (.logical .or (.nullTest false (.leaf (.column "name")))
        (.not (.compare .gt (.leaf (.column "price")) (.leaf (.param "@p1")))), [.int 5]) := rfl
  have succeeds : (shop.compile namelessOrCheap).isOk = true := rfl
  cases compiled : shop.compile namelessOrCheap with
  | error err =>
    rw [compiled] at succeeds
    cases succeeds
  | ok p =>
    obtain ⟨sql, cond, values, written, reads, skeleton, bound⟩ :=
      compile_sql_structure (c := shop) (by decide) (by decide) parse_namelessOrCheap
        plain_namelessOrCheap.noCall plain_namelessOrCheap.noGroupedNull compiled
    rw [stands, Option.some.injEq, Prod.mk.injEq] at skeleton
    obtain ⟨erased, rfl⟩ := skeleton
    exact ⟨p, sql, cond, parse_namelessOrCheap, rfl, written, reads, erased.symm, bound⟩

/-- Parameters that start with a letter, and a column that is called like the first of them. -/
def lettered : Compiler where
  columns := ⟨[⟨"Price", "price", "Edm.Int32", none⟩, ⟨"Other", "ap1", "Edm.Int32", none⟩]⟩
  catalog := ⟨[]⟩
  options := { sigil := 'a' }

/-- If names can start with the sign of parameters, two filters that stand for different conditions
have one SQL, so that it cannot be read as both. -/
theorem compile_sql_structure_lettered :
    ∃ e e' p p', Expr.parse "Price gt 5" = .ok e ∧ Expr.parse "Price gt Other" = .ok e' ∧
      (∀ column ∈ lettered.columns.columns, IsPlainName column.filterSql) ∧
      lettered.compile e = .ok p ∧ lettered.compile e' = .ok p' ∧
      p.sql = some "price > ap1" ∧ p'.sql = some "price > ap1" ∧
      ∀ cond : Condition, ¬((∃ values, lettered.skeleton e [] = some (cond.erase, values)) ∧
        ∃ values, lettered.skeleton e' [] = some (cond.erase, values)) := by
  have tokens : spacedTokens (dropFilterName "Price gt 5") =
      .ok [⟨"", .word, "Price"⟩, ⟨" ", .word, "gt"⟩, ⟨" ", .literal, "5"⟩] :=
    eq_ok_of_toOption (by decide +kernel)
  have tokens' : spacedTokens (dropFilterName "Price gt Other") =
      .ok [⟨"", .word, "Price"⟩, ⟨" ", .word, "gt"⟩, ⟨" ", .word, "Other"⟩] :=
    eq_ok_of_toOption (by decide +kernel)
  have price : IsExpr (π := Gap) [⟨"", .word, "Price"⟩] (.primary "Price") :=
    isExpr_word _ (by decide)
  have parsed : Expr.parse "Price gt 5" =
      .ok (.comparison "gt" (.primary "Price") (.primary "5")) :=
    Expr.parse_of_isExpr tokens (isExpr_comparison_iff.2
      ⟨[_], _, [_], rfl, by decide, by decide, ⟨price, rfl⟩, isExpr_literal _ _, rfl⟩) (by decide)
  have parsed' : Expr.parse "Price gt Other" =
      .ok (.comparison "gt" (.primary "Price") (.primary "Other")) :=
    Expr.parse_of_isExpr tokens' (isExpr_comparison_iff.2
      ⟨[_], _, [_], rfl, by decide, by decide, ⟨price, rfl⟩, isExpr_word _ (by decide), rfl⟩)
      (by decide)
  have stands : lettered.skeleton (.comparison "gt" (.primary "Price") (.primary "5")) [] =
      some (.compare .gt (.leaf (.column "price")) (.leaf (.param "ap1")), [.int 5]) := rfl
  have stands' : lettered.skeleton (.comparison "gt" (.primary "Price") (.primary "Other")) [] =
      some (.compare .gt (.leaf (.column "price")) (.leaf (.column "ap1")), []) := rfl
  refine ⟨_, _, _, _, parsed, parsed', by decide, rfl, rfl, rfl, rfl, ?_⟩
  rintro cond ⟨⟨values, reads⟩, values', reads'⟩
  have left := congrArg Prod.fst (Option.some.inj (stands.symm.trans reads))
  have right := congrArg Prod.fst (Option.some.inj (stands'.symm.trans reads'))
  cases left.trans right.symm

end Compiler

end FilterSql.Sql
