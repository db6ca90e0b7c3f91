import FilterSql.Proofs.AsciiCase
import FilterSql.Proofs.Lexing
import FilterSql.Proofs.Phrases

/-!
# Phrases with alike tokens

Two runs of tokens are compared token by token, where each pair is seen together with the token that
comes next. If the tokens of a phrase and those of another run have the same kinds, and are the same
keywords, then the other run is a phrase too, and the trees have one shape. How far their texts agree
is carried over from the tokens: an operand is followed by a token that closes it, and the name of a
function by a parenthesis.

## Main statements

* `IsExpr.exists_corresponding`, `IsExpr.exists_alike`: a run that compares with a phrase is a phrase
  with an alike tree.
-/

namespace FilterSql.Filter

open FilterSql.Parser (Separated separated_cons_iff separated_single_iff)
open Text

/-! ## Alike trees -/

namespace Expr.Alike

variable {leaf name text : String → String → Prop} {e e' : Expr}

theorem rank_eq (h : Alike leaf name text e e') : e'.rank = e.rank := by
  cases h <;> rfl

theorem nesting_eq (h : Alike leaf name text e e') : e'.nesting = e.nesting := by
  induction e generalizing e' with
  | primary =>
    cases h
    rfl
  | call f args raw ih =>
    cases h with
    | @call _ _ _ _ _ args' _ arguments _ =>
      have same : nestingOf args' = nestingOf args := by
        induction arguments with
        | nil => rfl
        | cons first _ more =>
          obtain ⟨ihFirst, ih⟩ := List.forall_mem_cons.1 ih
          rw [nestingOf, nestingOf, ihFirst first, more ih]
      rw [nesting, nesting, same]
  | not e ih =>
    cases h with
    | not inner => rw [nesting, nesting, ih inner]
  | group e ih =>
    cases h with
    | group inner => rw [nesting, nesting, ih inner]
  | comparison op l r ihl ihr =>
    cases h with
    | comparison left right => rw [nesting, nesting, ihl left, ihr right]
  | logical op l r ihl ihr =>
    cases h with
    | logical left right => rw [nesting, nesting, ihl left, ihr right]
  | inList l values ih =>
    cases h with
    | inList left _ => rw [nesting, nesting, ih left]

end Expr.Alike

/-! ## Alike runs -/

/-- The words that may follow an operand. -/
def closingWords : List String := comparisonOperators ++ ["in", "and", "or"]

/-- The token may follow an operand, or a value of a list. -/
def Token.Closes (t : Token Gap) : Prop :=
  t.kind = .closeParen ∨ t.kind = .comma ∨ ∃ word ∈ closingWords, t.isKeyword word = true

theorem closes_of_mem_none : ∀ u ∈ (none : Option (Token Gap)), u.Closes := by
  simp

/-- The runs have the same length, and `R` holds of each pair of tokens with the token after the
first one of them, which for the last pair is `next`. -/
inductive Compared (R : Token Gap → Token Gap → Option (Token Gap) → Prop)
    (next : Option (Token Gap)) :
    List (Token Gap) → List (Token Gap) → Prop
  | nil : Compared R next [] []
  | cons {t t' : Token Gap} {ts ts' : List (Token Gap)} : R t t' (ts.head?.or next) →
    Compared R next ts ts' → Compared R next (t :: ts) (t' :: ts')

section Runs

variable {R : Token Gap → Token Gap → Option (Token Gap) → Prop} {next : Option (Token Gap)}
  {us vs ts ts' : List (Token Gap)} {t : Token Gap}

theorem Compared.of_append (h : Compared R next (us ++ vs) ts) :
    ∃ us' vs', ts = us' ++ vs' ∧ Compared R (vs.head?.or next) us us' ∧ Compared R next vs vs' := by
  induction us generalizing ts with
  | nil => exact ⟨[], ts, rfl, .nil, h⟩
  | cons u us ih =>
    rw [List.cons_append] at h
    cases h with
    | cons first others =>
      obtain ⟨us', vs', rfl, left, right⟩ := ih others
      refine ⟨_ :: us', vs', rfl, .cons ?_ left, right⟩
      rwa [List.head?_append, Option.or_assoc] at first

theorem Compared.of_cons (h : Compared R next (t :: us) ts) :
    ∃ t' us', ts = t' :: us' ∧ R t t' (us.head?.or next) ∧ Compared R next us us' := by
  cases h with
  | cons first others => exact ⟨_, _, rfl, first, others⟩

theorem Compared.of_single (h : Compared R next [t] ts) : ∃ t', ts = [t'] ∧ R t t' next := by
  obtain ⟨t', us', rfl, first, others⟩ := h.of_cons
  cases others
  exact ⟨t', rfl, first⟩

theorem Compared.mono {S : Token Gap → Token Gap → Option (Token Gap) → Prop}
    (h : Compared R next ts ts')
    (imp : ∀ {t t' next}, R t t' next → S t t' next) : Compared S next ts ts' := by
  induction h with
  | nil => exact .nil
  | cons first _ ih => exact .cons (imp first) ih

theorem Compared.forall₂ (h : Compared R next ts ts') :
    List.Forall₂ (fun t t' => ∃ next, R t t' next) ts ts' := by
  induction h with
  | nil => exact .nil
  | cons first _ ih => exact .cons ⟨_, first⟩ ih

end Runs

/-- The words that are more than names in some places. -/
def keywords : List String := comparisonOperators ++ reservedWords

/-- What a phrase must know of two tokens that are compared to be carried over, and what is known of
the trees then. -/
structure Correspondence (R : Token Gap → Token Gap → Option (Token Gap) → Prop)
    (leaf name text : String → String → Prop) : Prop where
  kind : ∀ {t t' next}, R t t' next → t'.kind = t.kind
  keyword : ∀ {t t' next word}, R t t' next → word ∈ keywords → t'.isKeyword word = t.isKeyword word
  leaf : ∀ {t t' next}, R t t' next → (∀ u ∈ next, u.Closes) → leaf t.text t'.text
  name : ∀ {t t' p}, R t t' (some p) → t.kind = .word → p.kind = .openParen → name t.text t'.text
  text : ∀ {t t' ts ts' next}, Compared R next (t :: ts) (t' :: ts') →
    text (t.text ++ Token.sourceOf ts) (t'.text ++ Token.sourceOf ts')

/-- What is known of two tokens that are compared, and of the trees that they are read as, if the
texts of both have the same name. -/
structure Comparison (R : Token Gap → Token Gap → Option (Token Gap) → Prop)
    (leaf name text : String → String → Prop) : Prop where
  kind : ∀ {t t' next}, R t t' next → t'.kind = t.kind
  word : ∀ {t t' next}, R t t' next → sameName t.text t'.text = true
  leaf : ∀ {t t' next}, R t t' next → (∀ u ∈ next, u.Closes) → leaf t.text t'.text
  name : ∀ {t t' p}, R t t' (some p) → t.kind = .word → p.kind = .openParen → name t.text t'.text
  text : ∀ {t t' ts ts' next}, Compared R next (t :: ts) (t' :: ts') →
    text (t.text ++ Token.sourceOf ts) (t'.text ++ Token.sourceOf ts')

section Names

variable {R : Token Gap → Token Gap → Option (Token Gap) → Prop}
  {leaf name text : String → String → Prop}
  {t t' : Token Gap} {next : Option (Token Gap)}

theorem Correspondence.isName (h : Correspondence R leaf name text) (alike : R t t' next)
    (isName : t.IsName) : t'.IsName := by
  refine ⟨(h.kind alike).trans isName.word, ?_⟩
  rw [Token.isReserved, List.any_eq_false]
  intro word member isWord
  rw [h.keyword alike (List.mem_append_right _ member), isName.isKeyword_eq_false member] at isWord
  cases isWord

theorem Comparison.correspondence (h : Comparison R leaf name text) :
    Correspondence R leaf name text where
  kind := h.kind
  keyword alike _ := by
    rw [Token.isKeyword, Token.isKeyword, h.kind alike, sameName_congr (h.word alike)]
  leaf := h.leaf
  name := h.name
  text := h.text

end Names

/-! ## Alike phrases -/

section Phrases

variable {R : Token Gap → Token Gap → Option (Token Gap) → Prop}
  {leaf name text : String → String → Prop}
  {next : Option (Token Gap)}

theorem closes_of_isKeyword {t : Token Gap} {word : String} (h : t.isKeyword word = true)
    (member : word ∈ closingWords) : t.Closes :=
  .inr (.inr ⟨word, member, h⟩)

theorem closes_of_isComma {t : Token Gap} (h : isComma t = true) : t.Closes :=
  .inr (.inl (by simpa [isComma] using h))

theorem Correspondence.exists_listValue (h : Correspondence R leaf name text) {value : String}
    {ts ts' : List (Token Gap)} (phrase : IsListValue ts value) (closed : ∀ u ∈ next, u.Closes)
    (compared : Compared R next ts ts') : ∃ value', IsListValue ts' value' ∧ leaf value value' := by
  obtain ⟨t, rfl, rfl, kind⟩ := isListValue_iff.1 phrase
  obtain ⟨t', rfl, alike⟩ := compared.of_single
  have kind' : t'.kind = .word ∨ t'.kind = .literal := by rwa [h.kind alike]
  exact ⟨_, isListValue_iff.2 ⟨t', rfl, rfl, kind'⟩, h.leaf alike closed⟩

/-- Phrases between commas are carried over one by one. -/
theorem Separated.exists_alike {α : Type} {item : List (Token Gap) → α → Prop}
    {alike : α → α → Prop}
    (h : Correspondence R leaf name text) {a : α} {as : List α} {ts ts' : List (Token Gap)}
    (phrases : Separated isComma item ts (a, as))
    (carry : ∀ b ∈ a :: as, ∀ us us' next, item us b → (∀ u ∈ next, u.Closes) →
      Compared R next us us' → ∃ b', item us' b' ∧ alike b b')
    (closed : ∀ u ∈ next, u.Closes) (compared : Compared R next ts ts') :
    ∃ a' as', Separated isComma item ts' (a', as') ∧ List.Forall₂ alike (a :: as) (a' :: as') := by
  induction as generalizing a ts ts' with
  | nil =>
    have phrase := separated_single_iff.1 phrases
    obtain ⟨a', phrase', same⟩ := carry a (by simp) ts ts' next phrase closed compared
    exact ⟨a', [], separated_single_iff.2 phrase', .cons same .nil⟩
  | cons b as ih =>
    obtain ⟨us, t, vs, rfl, phrase, comma, others⟩ := separated_cons_iff.1 phrases
    obtain ⟨us', _, rfl, left, right⟩ := compared.of_append
    obtain ⟨t', vs', rfl, alikeComma, right⟩ := right.of_cons
    have comma' : isComma t' = true := by
      rw [isComma, h.kind alikeComma]
      exact comma
    obtain ⟨a', phrase', same⟩ := carry a (by simp) us us' _ phrase
      (by simpa using closes_of_isComma comma) left
    obtain ⟨b', as', others', alikes⟩ := ih others
      (fun c member => carry c (List.mem_cons_of_mem a member)) right
    exact ⟨a', b' :: as', separated_cons_iff.2 ⟨us', t', vs', rfl, phrase', comma', others'⟩,
      .cons same alikes⟩

/-- A run with the same keywords as a phrase is a phrase with an alike tree. -/
theorem IsExpr.exists_corresponding (h : Correspondence R leaf name text) {e : Expr}
    {ts ts' : List (Token Gap)} (phrase : IsExpr ts e) (closed : ∀ u ∈ next, u.Closes)
    (compared : Compared R next ts ts') :
    ∃ e', IsExpr ts' e' ∧ Expr.Alike leaf name text e e' := by
  induction e generalizing ts ts' next with
  | primary s =>
    obtain ⟨t, rfl, rfl, kind⟩ := isExpr_primary_iff.1 phrase
    obtain ⟨t', rfl, alike⟩ := compared.of_single
    have kind' : t'.IsName ∨ t'.kind = .literal :=
      kind.imp (h.isName alike) ((h.kind alike).trans ·)
    exact ⟨_, isExpr_primary_iff.2 ⟨t', rfl, rfl, kind'⟩, .primary (h.leaf alike closed)⟩
  | call f args raw ih =>
    obtain ⟨t, p, us, q, rfl, isName, rfl, opens, closes, rfl, phrases⟩ := isExpr_call_iff.1 phrase
    have whole := compared
    obtain ⟨t', _, rfl, alikeName, compared⟩ := compared.of_cons
    obtain ⟨p', _, rfl, alikeOpen, compared⟩ := compared.of_cons
    obtain ⟨us', _, rfl, within, last⟩ := compared.of_append
    obtain ⟨q', rfl, alikeClose⟩ := last.of_single
    have closed' : ∀ u ∈ [q].head?.or next, u.Closes := by simpa using .inl closes
    obtain ⟨args', phrases', same⟩ : ∃ args', (us' = [] ∧ args' = [] ∨
        ∃ arg others, args' = arg :: others ∧ Separated isComma IsExpr us' (arg, others)) ∧
          List.Forall₂ (Expr.Alike leaf name text) args args' := by
      rcases phrases with ⟨rfl, rfl⟩ | ⟨arg, others, rfl, phrases⟩
      · cases within
        exact ⟨[], .inl ⟨rfl, rfl⟩, .nil⟩
      · obtain ⟨arg', others', phrases', same⟩ := Separated.exists_alike h phrases
          (fun e member us us' next phrase closed => ih e member phrase closed) closed' within
        exact ⟨_, .inr ⟨arg', others', rfl, phrases'⟩, same⟩
    exact ⟨_, isExpr_call_iff.2 ⟨t', p', us', q', rfl, h.isName alikeName isName, rfl,
      (h.kind alikeOpen).trans opens, (h.kind alikeClose).trans closes, rfl, phrases'⟩,
      .call (h.name alikeName isName.word opens) same (h.text whole)⟩
  | not e ih =>
    obtain ⟨t, us, rfl, isNot, inner, rank⟩ := isExpr_not_iff.1 phrase
    obtain ⟨t', us', rfl, alike, compared⟩ := compared.of_cons
    obtain ⟨e', inner', same⟩ := ih inner closed compared
    rw [← h.keyword alike (by decide)] at isNot
    exact ⟨.not e', isExpr_not_iff.2 ⟨t', us', rfl, isNot, inner', same.rank_eq ▸ rank⟩, .not same⟩
  | group e ih =>
    obtain ⟨p, us, q, rfl, opens, inner, closes⟩ := isExpr_group_iff.1 phrase
    obtain ⟨p', _, rfl, alikeOpen, compared⟩ := compared.of_cons
    obtain ⟨us', _, rfl, within, last⟩ := compared.of_append
    obtain ⟨q', rfl, alikeClose⟩ := last.of_single
    have closed' : ∀ u ∈ [q].head?.or next, u.Closes := by simpa using .inl closes
    obtain ⟨e', inner', same⟩ := ih inner closed' within
    exact ⟨.group e', isExpr_group_iff.2 ⟨p', us', q', rfl, (h.kind alikeOpen).trans opens, inner',
      (h.kind alikeClose).trans closes⟩, .group same⟩
  | comparison op l r ihl ihr =>
    obtain ⟨us, t, vs, rfl, member, isOp, ⟨left, rankl⟩, right, rankr⟩ :=
      isExpr_comparison_iff.1 phrase
    obtain ⟨us', _, rfl, comparedl, compared⟩ := compared.of_append
    obtain ⟨t', vs', rfl, alike, comparedr⟩ := compared.of_cons
    have closed' : ∀ u ∈ (t :: vs).head?.or next, u.Closes := by
      simpa using closes_of_isKeyword isOp (List.mem_append_left _ member)
    obtain ⟨l', left', samel⟩ := ihl left closed' comparedl
    obtain ⟨r', right', samer⟩ := ihr right closed comparedr
    rw [← h.keyword alike (List.mem_append_left _ member)] at isOp
    exact ⟨.comparison op l' r', isExpr_comparison_iff.2 ⟨us', t', vs', rfl, member, isOp,
      ⟨left', samel.rank_eq.trans rankl⟩, right', samer.rank_eq.trans rankr⟩,
      .comparison samel samer⟩
  | logical op l r ihl ihr =>
    obtain ⟨us, t, vs, rfl, isOp, ⟨left, rankl⟩, right, rankr⟩ := isExpr_logical_iff.1 phrase
    obtain ⟨us', _, rfl, comparedl, compared⟩ := compared.of_append
    obtain ⟨t', vs', rfl, alike, comparedr⟩ := compared.of_cons
    have closed' : ∀ u ∈ (t :: vs).head?.or next, u.Closes := by
      simpa using closes_of_isKeyword isOp (by cases op <;> decide)
    obtain ⟨l', left', samel⟩ := ihl left closed' comparedl
    obtain ⟨r', right', samer⟩ := ihr right closed comparedr
    rw [← h.keyword alike (by cases op <;> decide)] at isOp
    exact ⟨.logical op l' r', isExpr_logical_iff.2 ⟨us', t', vs', rfl, isOp,
      ⟨left', samel.rank_eq ▸ rankl⟩, right', samer.rank_eq ▸ rankr⟩, .logical samel samer⟩
  | inList l values ih =>
    obtain ⟨us, t, p, vs, q, value, others, rfl, ⟨left, rank⟩, isIn, opens, closes, rfl, phrases⟩ :=
      isExpr_inList_iff.1 phrase
    obtain ⟨us', _, rfl, comparedl, compared⟩ := compared.of_append
    obtain ⟨t', _, rfl, alikeIn, compared⟩ := compared.of_cons
    obtain ⟨p', _, rfl, alikeOpen, compared⟩ := compared.of_cons
    obtain ⟨vs', _, rfl, within, last⟩ := compared.of_append
    obtain ⟨q', rfl, alikeClose⟩ := last.of_single
    have closedl : ∀ u ∈ (t :: p :: (vs ++ [q])).head?.or next, u.Closes := by
      simpa using closes_of_isKeyword isIn (by decide)
    have closed' : ∀ u ∈ [q].head?.or next, u.Closes := by simpa using .inl closes
    obtain ⟨l', left', same⟩ := ih left closedl comparedl
    obtain ⟨value', others', phrases', sames⟩ := Separated.exists_alike h phrases
      (fun _ _ _ _ _ => h.exists_listValue) closed' within
    rw [← h.keyword alikeIn (by decide)] at isIn
    exact ⟨_, isExpr_inList_iff.2 ⟨us', t', p', vs', q', value', others', rfl,
      ⟨left', same.rank_eq.trans rank⟩, isIn, (h.kind alikeOpen).trans opens,
      (h.kind alikeClose).trans closes, rfl, phrases'⟩, .inList same sames⟩

/-- A run that compares with a phrase is a phrase with an alike tree. -/
theorem IsExpr.exists_alike (h : Comparison R leaf name text) {e : Expr} {ts ts' : List (Token Gap)}
    (phrase : IsExpr ts e) (closed : ∀ u ∈ next, u.Closes) (compared : Compared R next ts ts') :
    ∃ e', IsExpr ts' e' ∧ Expr.Alike leaf name text e e' :=
  phrase.exists_corresponding h.correspondence closed compared

end Phrases

end FilterSql.Filter
