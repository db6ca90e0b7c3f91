import FilterSql.Decimal.Reader
import FilterSql.Filter.Token
import FilterSql.Proofs.SqlTokens
import Mathlib.Algebra.CharZero.Defs
import Mathlib.Algebra.Field.Defs
import Mathlib.Tactic.FieldSimp
import Mathlib.Tactic.NormNum
import Mathlib.Tactic.Ring

/-!
# Arithmetic in SQL

Columns may be mapped to expressions, and templates may be expressions too, so what SQL makes of a text
that is put together from others depends on how operators bind. Here texts are cut into tokens, and
relations between runs of tokens and terms say how they are read: signs bind tightest, then come `*` and
`/`, and then `+` and `-`, where operators of one rank are read from left to right.

The term of a run keeps its parentheses.

## Main statements

* `Arithmetic.Reads.unique`: a text is read in at most one way.
* `Arithmetic.Reads.divided`: a division put behind a text takes the last summand of the text only.
* `Arithmetic.value_divideLast`: the value of that.
-/

namespace FilterSql.Sql.Arithmetic

open FilterSql.Parser (Before Determined Separated before_cons before_nil)

/-! ## Tokens -/

inductive Operator
  | add
  | sub
  | mul
  | div
deriving DecidableEq

def Operator.isAdditive : Operator → Bool
  | add | sub => true
  | mul | div => false

def Operator.isMultiplicative (op : Operator) : Bool := !op.isAdditive

inductive Token
  | operator (op : Operator)
  | openParen
  | closeParen
  | comma
  | name (word : String)
  | param (name : String)
  | text (content : String)
  | number (written : Decimal.Written)
deriving DecidableEq

/-- The tokens of one character. -/
def mark? : Char → Option Token
  | '+' => some (.operator .add)
  | '-' => some (.operator .sub)
  | '*' => some (.operator .mul)
  | '/' => some (.operator .div)
  | '(' => some .openParen
  | ')' => some .closeParen
  | ',' => some .comma
  | _ => none

def opensComment (c : Char) (cs : List Char) : Bool :=
  c == '-' && cs.head? == some '-' || c == '/' && cs.head? == some '*'

def isNameChar (c : Char) : Bool := Text.isLetterOrNumber c || c == '_' || c == '.'

/-- How many characters follow up to the end of a quoted run, in which quotes are doubled. The flag is
set if the last character was a quote that may be the closing one. -/
def closedLength? (quote : Char) : Bool → List Char → Option Nat
  | closing, [] => if closing then some 0 else none
  | closing, c :: cs =>
    if closing && c != quote then some 0
    else (closedLength? quote (!closing && c == quote) cs).map (· + 1)

/-- How many characters of a number follow. A sign belongs to it right after the mark of an exponent,
which the flag tells. -/
def numeralLength : Bool → List Char → Nat
  | _, [] => 0
  | marked, c :: cs =>
    if c.isAlphanum || c == '.' || marked && (c == '+' || c == '-') then
      numeralLength (c == 'e' || c == 'E') cs + 1
    else 0

/-- A word is a name unless it is a keyword. -/
def name? (word : String) : Option Token :=
  if (Grammar.Keyword.ofWord? word).isNone then some (.name word) else none

/-- The token at the front of a text that starts with the given character, and how many characters it
takes after that one. No comment is read. -/
def lexeme? (sigil c : Char) (cs : List Char) : Option (Token × Nat) :=
  match mark? c with
  | some t => if opensComment c cs then none else some (t, 0)
  | none =>
    if c == '\'' then
      (closedLength? c false cs).map fun n => (.text (String.ofList (cs.take n)), n)
    else if c == '"' then
      (closedLength? c false cs).map fun n => (.name (String.ofList (c :: cs.take n)), n)
    else if c.isDigit || c == '.' then
      let n := numeralLength false cs
      (Decimal.readWritten? (c :: cs.take n)).map fun w => (.number w, n)
    else
      let run := cs.takeWhile isNameChar
      let word := String.ofList (c :: run)
      if Filter.isWordStart c then (name? word).map (·, run.length)
      else if c == sigil && !run.isEmpty then some (.param word, run.length)
      else none

/-- The tokens of a text after the given number of characters. -/
def tokensFrom (sigil : Char) : Nat → List Char → Option (List Token)
  | _, [] => some []
  | skip + 1, _ :: cs => tokensFrom sigil skip cs
  | 0, c :: cs =>
    if Text.isBlank c then tokensFrom sigil 0 cs
    else
      match lexeme? sigil c cs with
      | none => none
      | some (t, width) => (tokensFrom sigil width cs).map (t :: ·)

/-- The tokens of a text, where the sign of parameters is given. -/
def tokens? (sigil : Char) (text : String) : Option (List Token) := tokensFrom sigil 0 text.toList

/-! ## A blank ends every token -/

theorem closedLength?_append {quote : Char} (other : quote ≠ ' ') {closing : Bool} {cs : List Char}
    {n : Nat} (h : closedLength? quote closing cs = some n) (rest : List Char) :
    n ≤ cs.length ∧ closedLength? quote closing (cs ++ ' ' :: rest) = some n := by
  induction cs generalizing closing n with
  | nil =>
    cases closing with
    | false => cases h
    | true =>
      cases h
      simp [closedLength?, other.symm]
  | cons c cs ih =>
    simp only [closedLength?, List.cons_append] at h ⊢
    split at h
    · next ended =>
      cases h
      rw [if_pos ended]
      exact ⟨Nat.zero_le _, rfl⟩
    · next goesOn =>
      obtain ⟨m, closed, rfl⟩ := Option.map_eq_some_iff.1 h
      obtain ⟨short, same⟩ := ih closed
      rw [if_neg goesOn, same]
      exact ⟨Nat.succ_le_succ short, rfl⟩

theorem numeralLength_append (marked : Bool) (cs rest : List Char) :
    numeralLength marked cs ≤ cs.length ∧
      numeralLength marked (cs ++ ' ' :: rest) = numeralLength marked cs := by
  induction cs generalizing marked with
  | nil => simp [numeralLength]
  | cons c cs ih =>
    obtain ⟨short, same⟩ := ih (c == 'e' || c == 'E')
    simp only [numeralLength, List.cons_append, same, List.length_cons, and_true]
    split <;> omega

theorem takeWhile_append_blank {p : Char → Bool} (stop : p ' ' = false) (cs rest : List Char) :
    (cs ++ ' ' :: rest).takeWhile p = cs.takeWhile p := by
  induction cs with
  | nil => simp [stop]
  | cons c cs ih => simp only [List.cons_append, List.takeWhile_cons, ih]

theorem opensComment_append (c : Char) (cs rest : List Char) :
    opensComment c (cs ++ ' ' :: rest) = opensComment c cs := by
  cases cs <;> simp [opensComment]

/-- A quoted lexeme is the same before a blank. -/
theorem map_closedLength?_append {quote : Char} (other : quote ≠ ' ') {cs : List Char}
    (token : List Char → Token) {t : Token} {width : Nat}
    (h : (closedLength? quote false cs).map (fun n => (token (cs.take n), n)) = some (t, width))
    (rest : List Char) :
    width ≤ cs.length ∧
      (closedLength? quote false (cs ++ ' ' :: rest)).map
        (fun n => (token ((cs ++ ' ' :: rest).take n), n)) = some (t, width) := by
  obtain ⟨n, closed, eq⟩ := Option.map_eq_some_iff.1 h
  cases eq
  obtain ⟨short, same⟩ := closedLength?_append other closed rest
  rw [same, Option.map_some, List.take_append_of_le_length short]
  exact ⟨short, rfl⟩

theorem lexeme?_append {sigil c : Char} {cs : List Char} {t : Token} {width : Nat}
    (h : lexeme? sigil c cs = some (t, width)) (rest : List Char) :
    width ≤ cs.length ∧ lexeme? sigil c (cs ++ ' ' :: rest) = some (t, width) := by
  unfold lexeme? at h ⊢
  cases mark : mark? c with
  | some _ =>
    simp only [mark, opensComment_append] at h ⊢
    split at h
    · cases h
    · next plain =>
      cases h
      exact ⟨Nat.zero_le _, if_neg plain⟩
  | none =>
    simp only [mark] at h ⊢
    by_cases text : (c == '\'') = true
    · have other : c ≠ ' ' := by
        rw [beq_iff_eq.1 text]
        decide
      rw [if_pos text] at h ⊢
      exact map_closedLength?_append other (fun cs => .text (String.ofList cs)) h rest
    by_cases quoted : (c == '"') = true
    · have other : c ≠ ' ' := by
        rw [beq_iff_eq.1 quoted]
        decide
      rw [if_neg text, if_pos quoted] at h ⊢
      exact map_closedLength?_append other (fun cs => .name (String.ofList (c :: cs))) h rest
    rw [if_neg text, if_neg quoted] at h ⊢
    by_cases number : (c.isDigit || c == '.') = true
    · obtain ⟨short, same⟩ := numeralLength_append false cs rest
      rw [if_pos number] at h ⊢
      rw [same, List.take_append_of_le_length short]
      obtain ⟨w, -, eq⟩ := Option.map_eq_some_iff.1 h
      cases eq
      exact ⟨short, h⟩
    · have run : (cs.takeWhile isNameChar).length ≤ cs.length :=
        (List.takeWhile_prefix isNameChar).length_le
      rw [if_neg number] at h ⊢
      rw [takeWhile_append_blank (by decide)]
      refine ⟨?_, h⟩
      split at h
      · obtain ⟨_, -, eq⟩ := Option.map_eq_some_iff.1 h
        cases eq
        exact run
      · split at h
        · cases h
          exact run
        · cases h

theorem tokensFrom_append {sigil : Char} {skip : Nat} {cs : List Char} {ts : List Token}
    (h : tokensFrom sigil skip cs = some ts) (short : skip ≤ cs.length) (rest : List Char) :
    tokensFrom sigil skip (cs ++ ' ' :: rest) = (tokensFrom sigil 0 rest).map (ts ++ ·) := by
  induction cs generalizing skip ts with
  | nil =>
    cases Nat.le_zero.1 short
    cases h
    have blank : Text.isBlank ' ' = true := by decide
    simp [tokensFrom, blank]
  | cons c cs ih =>
    cases skip with
    | succ skip => exact ih h (Nat.le_of_succ_le_succ short)
    | zero =>
      simp only [tokensFrom, List.cons_append] at h ⊢
      split at h
      · next blank =>
        rw [if_pos blank]
        exact ih h (Nat.zero_le _)
      · next notBlank =>
        rw [if_neg notBlank]
        split at h
        · cases h
        · next t width read =>
          obtain ⟨us, others, rfl⟩ := Option.map_eq_some_iff.1 h
          obtain ⟨inside, same⟩ := lexeme?_append read rest
          rw [same]
          simp only [ih others inside, Option.map_map]
          rfl

/-! ## Terms -/

inductive Term
  | name (word : String)
  | param (name : String)
  | text (content : String)
  | number (written : Decimal.Written)
  | call (function : String) (args : List Term)
  | paren (inner : Term)
  | signed (op : Operator) (operand : Term)
  | binary (op : Operator) (left right : Term)

/-- The phrases of `(operator item)*` after a term, for the operators of one rank. What comes after the
term is applied to it from left to right. -/
inductive Continues (rank : Operator → Bool) (item : List Token → Term → Prop) :
    Term → List Token → Term → Prop
  | done {t : Term} : Continues rank item t [] t
  | step {op : Operator} {ts us : List Token} {l r t : Term} : rank op = true → item ts r →
    Continues rank item (.binary op l r) us t →
    Continues rank item l (.operator op :: (ts ++ us)) t

/-- The phrases of `item (operator item)*`. -/
inductive Chained (rank : Operator → Bool) (item : List Token → Term → Prop) :
    List Token → Term → Prop
  | mk {ts us : List Token} {l t : Term} : item ts l → Continues rank item l us t →
    Chained rank item (ts ++ us) t

mutual

/-- The phrases of `product (("+" | "-") product)*`. -/
inductive IsSum : List Token → Term → Prop
  | mk {ts : List Token} {t : Term} : Chained (·.isAdditive) IsProduct ts t → IsSum ts t

/-- The phrases of `factor (("*" | "/") factor)*`. -/
inductive IsProduct : List Token → Term → Prop
  | mk {ts : List Token} {t : Term} : Chained (·.isMultiplicative) IsFactor ts t → IsProduct ts t

/-- The phrases of `("+" | "-") factor | primary`. -/
inductive IsFactor : List Token → Term → Prop
  | signed {op : Operator} {ts : List Token} {t : Term} : op.isAdditive = true → IsFactor ts t →
    IsFactor (.operator op :: ts) (.signed op t)
  | primary {ts : List Token} {t : Term} : IsPrimary ts t → IsFactor ts t

/-- The phrases of names, parameters, strings, numbers, calls and sums in parentheses. -/
inductive IsPrimary : List Token → Term → Prop
  | name (word : String) : IsPrimary [.name word] (.name word)
  | param (name : String) : IsPrimary [.param name] (.param name)
  | text (content : String) : IsPrimary [.text content] (.text content)
  | number (w : Decimal.Written) : IsPrimary [.number w] (.number w)
  | call {function : String} {ts : List Token} {args : List Term} : IsArguments ts args →
    IsPrimary (.name function :: .openParen :: (ts ++ [.closeParen])) (.call function args)
  | paren {ts : List Token} {t : Term} : IsSum ts t →
    IsPrimary (.openParen :: (ts ++ [.closeParen])) (.paren t)

/-- The phrases of `(sum ("," sum)*)?`. -/
inductive IsArguments : List Token → List Term → Prop
  | none : IsArguments [] []
  | some {ts : List Token} {t : Term} {args : List Term} :
    Separated (· == .comma) IsSum ts (t, args) → IsArguments ts (t :: args)

end

/-- The text is read as the term. -/
def Reads (sigil : Char) (text : String) (t : Term) : Prop :=
  ∃ ts, tokens? sigil text = some ts ∧ IsSum ts t

/-! ## Each run is read in one way -/

/-- Whether the token is an operator of the rank. -/
def Token.ranks (rank : Operator → Bool) : Token → Bool
  | operator op => rank op
  | _ => false

def AfterPrimary (t : Token) : Prop := t ≠ .openParen

def AfterProduct (t : Token) : Prop := AfterPrimary t ∧ t.ranks (·.isMultiplicative) = false

def AfterSum (t : Token) : Prop := AfterProduct t ∧ t.ranks (·.isAdditive) = false

section Continues

variable {rank : Operator → Bool} {item : List Token → Term → Prop} {follow : Token → Prop}
  {n : Nat} {l t : Term} {ts us rest : List Token}

theorem Continues.before (h : Continues rank item l ts t)
    (ranked : ∀ op, rank op = true → follow (.operator op)) (next : Before follow rest) :
    Before follow (ts ++ rest) := by
  cases h with
  | done => exact next
  | step isRank _ _ => exact before_cons (ranked _ isRank)

theorem determined_continues (h : Determined n item follow)
    (ranked : ∀ op, rank op = true → follow (.operator op)) (l : Term) :
    Determined n (Continues rank item l) (fun t => follow t ∧ t.ranks rank = false) := by
  constructor
  intro ts us rest rest' t t' short left right eq next next'
  induction left generalizing us with
  | done =>
    cases right with
    | done => exact ⟨rfl, rfl⟩
    | step isRank _ _ =>
      subst eq
      exact absurd (isRank.symm.trans (next _ rfl).2) (by simp)
  | @step op vs ws l r t isRank phrase others ih =>
    simp only [List.length_cons, List.length_append] at short
    cases right with
    | done =>
      subst eq
      exact absurd (isRank.symm.trans (next' _ rfl).2) (by simp)
    | step isRank' phrase' others' =>
      simp only [List.cons_append, List.append_assoc, List.cons.injEq, Token.operator.injEq] at eq
      obtain ⟨rfl, eq⟩ := eq
      obtain ⟨rfl, rfl⟩ := h.unique (by omega) phrase phrase' eq
        (others.before ranked (next.mono fun _ h => h.1))
        (others'.before ranked (next'.mono fun _ h => h.1))
      obtain ⟨rfl, rfl⟩ := ih (by omega) others' (List.append_cancel_left eq)
      exact ⟨rfl, rfl⟩

theorem determined_chained (h : Determined n item follow)
    (ranked : ∀ op, rank op = true → follow (.operator op)) :
    Determined n (Chained rank item) (fun t => follow t ∧ t.ranks rank = false) := by
  constructor
  rintro _ _ rest rest' t t' short ⟨first, others⟩ ⟨first', others'⟩ eq next next'
  rw [List.length_append] at short
  rw [List.append_assoc, List.append_assoc] at eq
  obtain ⟨rfl, rfl⟩ := h.unique (by omega) first first' eq
    (others.before ranked (next.mono fun _ h => h.1))
    (others'.before ranked (next'.mono fun _ h => h.1))
  obtain ⟨rfl, rfl⟩ := (determined_continues h ranked _).unique (by omega) others others'
    (List.append_cancel_left eq) next next'
  exact ⟨rfl, rfl⟩

/-- A chain takes one more operator at its end. -/
theorem Continues.snoc {op : Operator} {r : Term} (h : Continues rank item l ts t)
    (isRank : rank op = true) (last : item us r) :
    Continues rank item l (ts ++ .operator op :: us) (.binary op t r) := by
  induction h with
  | done => simpa using Continues.step isRank last .done
  | step isRank' phrase _ ih => simpa using Continues.step isRank' phrase ih

/-- A chain has no operator, or a last one. -/
theorem Continues.cases_last (h : Continues rank item l ts t) :
    (ts = [] ∧ t = l) ∨ ∃ op us vs l' r, rank op = true ∧ Continues rank item l us l' ∧
      item vs r ∧ ts = us ++ .operator op :: vs ∧ t = .binary op l' r := by
  induction h with
  | done => exact .inl ⟨rfl, rfl⟩
  | @step op ts us l r t isRank phrase others ih =>
    rcases ih with ⟨rfl, rfl⟩ | ⟨op', us', vs, l', r', isRank', front, last, rfl, rfl⟩
    · exact .inr ⟨op, [], ts, l, r, isRank, .done, phrase, by simp, rfl⟩
    · exact .inr ⟨op', _, vs, l', r', isRank', .step isRank phrase front, last, by simp, rfl⟩

end Continues

/-- A factor starts with a token that does not close anything. -/
theorem IsPrimary.starts {ts : List Token} {t : Term} (h : IsPrimary ts t) :
    ∃ u us, ts = u :: us ∧ u ≠ .closeParen ∧ ∀ op, u ≠ .operator op := by
  cases h <;> exact ⟨_, _, rfl, by simp, by simp⟩

theorem IsFactor.starts {ts : List Token} {t : Term} (h : IsFactor ts t) :
    ∃ u us, ts = u :: us ∧ u ≠ .closeParen := by
  cases h with
  | signed => exact ⟨_, _, rfl, by simp⟩
  | primary h =>
    obtain ⟨u, us, rfl, start, -⟩ := h.starts
    exact ⟨u, us, rfl, start⟩

theorem IsSum.starts {ts : List Token} {t : Term} (h : IsSum ts t) :
    ∃ u us, ts = u :: us ∧ u ≠ .closeParen := by
  obtain ⟨⟨⟨⟨first, others⟩⟩, more⟩⟩ := h
  obtain ⟨u, us, rfl, start⟩ := first.starts
  exact ⟨u, _, rfl, start⟩

/-- Arguments do not start like what closes them. -/
theorem IsArguments.ne_closeParen {ts : List Token} {t : Term} {args : List Term}
    (h : Separated (· == .comma) IsSum ts (t, args)) {rest : List Token} :
    ¬ Before (· = .closeParen) (ts ++ rest) := by
  obtain ⟨first, others⟩ := h
  obtain ⟨u, us, rfl, start⟩ := first.starts
  exact fun next => start (next u rfl)

section Determined

variable {n : Nat}

theorem determined_factor (primary : Determined n IsPrimary AfterPrimary) :
    Determined n IsFactor AfterPrimary := by
  constructor
  intro ts us rest rest' t t' short left right eq next next'
  induction ts generalizing us t t' with
  | nil =>
    obtain ⟨u, us, nil, -⟩ := left.starts
    cases nil
  | cons u ts ih =>
    cases left with
    | signed _ left =>
      cases right with
      | signed _ right =>
        simp only [List.cons_append, List.cons.injEq, Token.operator.injEq] at eq
        obtain ⟨rfl, eq⟩ := eq
        obtain ⟨rfl, rfl⟩ := ih (Nat.le_of_succ_le short) left right eq
        exact ⟨rfl, rfl⟩
      | primary right =>
        obtain ⟨u', us', rfl, -, notSign⟩ := right.starts
        exact absurd (List.cons.inj eq).1.symm (notSign _)
    | primary left =>
      cases right with
      | signed _ right =>
        obtain ⟨u', us', same, -, notSign⟩ := left.starts
        cases same
        exact absurd (List.cons.inj eq).1 (notSign _)
      | primary right => exact primary.unique short left right eq next next'

theorem determined_product (primary : Determined n IsPrimary AfterPrimary) :
    Determined n IsProduct AfterProduct := by
  have chain : Determined n (Chained (·.isMultiplicative) IsFactor) AfterProduct :=
    determined_chained (determined_factor primary) (by simp [AfterPrimary])
  constructor
  rintro ts us rest rest' t t' short ⟨left⟩ ⟨right⟩ eq next next'
  exact chain.unique short left right eq next next'

theorem determined_sum (primary : Determined n IsPrimary AfterPrimary) :
    Determined n IsSum AfterSum := by
  have operator : ∀ op : Operator, op.isAdditive = true → AfterProduct (.operator op) := by
    simp +contextual [AfterProduct, AfterPrimary, Token.ranks, Operator.isMultiplicative]
  have chain : Determined n (Chained (·.isAdditive) IsProduct) AfterSum :=
    determined_chained (determined_product primary) operator
  constructor
  rintro ts us rest rest' t t' short ⟨left⟩ ⟨right⟩ eq next next'
  exact chain.unique short left right eq next next'

theorem afterSum_comma : AfterSum .comma := by
  simp [AfterSum, AfterProduct, AfterPrimary, Token.ranks]

theorem afterSum_closeParen : AfterSum .closeParen := by
  simp [AfterSum, AfterProduct, AfterPrimary, Token.ranks]

theorem determined_arguments (primary : Determined n IsPrimary AfterPrimary) :
    Determined n IsArguments (· = .closeParen) := by
  have comma : ∀ t : Token, (t == .comma) = true → AfterSum t := by
    intro t isComma
    rw [beq_iff_eq.1 isComma]
    exact afterSum_comma
  have ends : ∀ t : Token, t = .closeParen → AfterSum t ∧ (t == .comma) = false := by
    rintro _ rfl
    exact ⟨afterSum_closeParen, rfl⟩
  constructor
  intro ts us rest rest' args args' short left right eq next next'
  cases left with
  | none =>
    cases right with
    | none => exact ⟨rfl, rfl⟩
    | some right =>
      subst eq
      exact (IsArguments.ne_closeParen right next).elim
  | some left =>
    cases right with
    | none =>
      subst eq
      exact (IsArguments.ne_closeParen left next').elim
    | some right =>
      obtain ⟨rfl, same⟩ := ((determined_sum primary).separated comma).unique short left right eq
        (next.mono ends) (next'.mono ends)
      cases same
      exact ⟨rfl, rfl⟩

/-- Parentheses are the only way back to a sum, and what they enclose is shorter. -/
theorem determined_primary (n : Nat) : Determined n IsPrimary AfterPrimary := by
  induction n with
  | zero =>
    constructor
    intro ts us rest rest' t t' short left _ _ _ _
    obtain ⟨u, us, rfl, -⟩ := left.starts
    cases short
  | succ n ih =>
    constructor
    intro ts us rest rest' t t' short left right eq next next'
    cases left with
    | name =>
      cases right with
      | name => simp_all
      | call =>
        obtain ⟨-, rfl⟩ := List.cons.inj eq
        exact absurd rfl (next .openParen rfl)
      | param | text | number | paren => simp at eq
    | param | text | number =>
      cases right with
      | param | text | number => simp_all
      | name | call | paren => simp at eq
    | call left =>
      cases right with
      | call right =>
        simp only [List.cons_append, List.append_assoc, List.cons.injEq, Token.name.injEq,
          true_and] at eq
        obtain ⟨rfl, eq⟩ := eq
        simp only [List.length_cons, List.length_append] at short
        obtain ⟨rfl, rfl⟩ := (determined_arguments ih).unique (by omega) left right eq
          (before_cons rfl) (before_cons rfl)
        exact ⟨rfl, rfl⟩
      | name =>
        obtain ⟨-, rfl⟩ := List.cons.inj eq
        exact absurd rfl (next' .openParen rfl)
      | param | text | number | paren => simp at eq
    | paren left =>
      cases right with
      | name | param | text | number | call => simp at eq
      | paren right =>
        simp only [List.cons_append, List.append_assoc, List.cons.injEq, true_and] at eq
        simp only [List.length_cons, List.length_append] at short
        obtain ⟨rfl, rfl⟩ := (determined_sum ih).unique (by omega) left right eq
          (before_cons afterSum_closeParen) (before_cons afterSum_closeParen)
        exact ⟨rfl, rfl⟩

end Determined

theorem IsSum.unique {ts : List Token} {t t' : Term} (left : IsSum ts t) (right : IsSum ts t') :
    t = t' :=
  ((determined_sum (determined_primary ts.length)).unique (Nat.le_refl _) left right rfl
    (before_nil _) (before_nil _)).2

/-- A text is read in at most one way. -/
theorem Reads.unique {sigil : Char} {text : String} {t t' : Term} (left : Reads sigil text t)
    (right : Reads sigil text t') : t = t' := by
  obtain ⟨ts, read, phrase⟩ := left
  obtain ⟨us, read', phrase'⟩ := right
  rw [read] at read'
  cases read'
  exact phrase.unique phrase'

/-! ## A division behind a text -/

/-- The division of the last summand, which is what a division behind the text of a term takes. -/
def Term.divideLast : Term → Term → Term
  | .binary op l r, divisor =>
    if op.isAdditive then .binary op l (.binary .div r divisor)
    else .binary .div (.binary op l r) divisor
  | t, divisor => .binary .div t divisor

/-- What stands before the last summand of a term. -/
def Term.beforeLast? : Term → Option Term
  | .binary op l _ => if op.isAdditive then some l else none
  | _ => none

/-- A product is its own last summand. -/
theorem IsProduct.divideLast_eq {ts : List Token} {t : Term} (h : IsProduct ts t) (divisor : Term) :
    t.divideLast divisor = .binary .div t divisor := by
  obtain ⟨⟨factor, others⟩⟩ := h
  rcases others.cases_last with ⟨-, rfl⟩ | ⟨op, -, -, l, r, isRank, -, -, -, rfl⟩
  · cases factor with
    | signed => rfl
    | primary primary => cases primary <;> rfl
  · have multiplies : op.isAdditive = false := by simpa [Operator.isMultiplicative] using isRank
    simp [Term.divideLast, multiplies]

theorem IsProduct.divided {ts us : List Token} {t divisor : Term} (h : IsProduct ts t)
    (last : IsFactor us divisor) :
    IsProduct (ts ++ .operator .div :: us) (.binary .div t divisor) := by
  obtain ⟨⟨factor, others⟩⟩ := h
  rw [List.append_assoc]
  exact .mk (.mk factor (others.snoc rfl last))

theorem IsFactor.isProduct {ts : List Token} {t : Term} (h : IsFactor ts t) : IsProduct ts t := by
  simpa using IsProduct.mk (.mk h .done)

theorem IsProduct.isSum {ts : List Token} {t : Term} (h : IsProduct ts t) : IsSum ts t := by
  simpa using IsSum.mk (.mk h .done)

/-- A division behind a sum takes its last summand. -/
theorem IsSum.divided {ts us : List Token} {t divisor : Term} (h : IsSum ts t)
    (last : IsFactor us divisor) :
    IsSum (ts ++ .operator .div :: us) (t.divideLast divisor) := by
  obtain ⟨⟨product, others⟩⟩ := h
  rcases others.cases_last with ⟨rfl, rfl⟩ | ⟨op, vs, ws, l, r, isRank, front, summand, rfl, rfl⟩
  · rw [product.divideLast_eq, List.append_nil]
    exact (product.divided last).isSum
  · have adds : (Term.binary op l r).divideLast divisor = .binary op l (.binary .div r divisor) := by
      simp [Term.divideLast, isRank]
    rw [adds, List.append_assoc, List.append_assoc, List.cons_append]
    exact .mk (.mk product (front.snoc isRank (summand.divided last)))

/-- The number of metres in a degree, as it is written behind a threshold. -/
def metres : Decimal.Written := ⟨false, 1113200, -1⟩

/-- A division behind a text takes the last summand of the text, also if both are put into
parentheses. -/
theorem Reads.divided {sigil : Char} {text : String} {t : Term} (h : Reads sigil text t) :
    Reads sigil ("(" ++ text ++ " / 111320.0)") (.paren (t.divideLast (.number metres))) := by
  obtain ⟨ts, read, phrase⟩ := h
  have suffix : tokensFrom sigil 0 "/ 111320.0)".toList =
      some [.operator .div, .number metres, .closeParen] := rfl
  have chars : ("(" ++ text ++ " / 111320.0)").toList =
      '(' :: (text.toList ++ ' ' :: "/ 111320.0)".toList) := by simp
  have opens : ∀ cs, tokensFrom sigil 0 ('(' :: cs) =
      (tokensFrom sigil 0 cs).map (.openParen :: ·) := fun _ => rfl
  have whole : tokens? sigil ("(" ++ text ++ " / 111320.0)") =
      some (.openParen :: ((ts ++ [.operator .div, .number metres]) ++ [.closeParen])) := by
    rw [tokens?, chars, opens, tokensFrom_append read (Nat.zero_le _), suffix]
    simp
  have quotient := phrase.divided (.primary (.number metres))
  exact ⟨_, whole, (IsFactor.primary (.paren quotient)).isProduct.isSum⟩

/-! ## Values -/

universe u

/-- What names, parameters, strings and calls stand for. -/
structure Env (K : Type u) where
  name : String → K
  param : String → K
  text : String → K
  call : String → List K → K

variable {K : Type u} [Field K]

def Operator.apply : Operator → K → K → K
  | add, a, b => a + b
  | sub, a, b => a - b
  | mul, a, b => a * b
  | div, a, b => a / b

def writtenValue (w : Decimal.Written) : K :=
  (if w.negative then -1 else 1) * w.digits * 10 ^ w.exponent

mutual

/-- The value of a term. -/
def Term.value (env : Env K) : Term → K
  | .name word => env.name word
  | .param word => env.param word
  | .text content => env.text content
  | .number w => writtenValue w
  | .call function args => env.call function (values env args)
  | .paren t => t.value env
  | .signed op t => op.apply 0 (t.value env)
  | .binary op l r => op.apply (l.value env) (r.value env)

def Term.values (env : Env K) : List Term → List K
  | [] => []
  | t :: ts => t.value env :: values env ts

end

theorem value_metres [CharZero K] : (writtenValue metres : K) = 111320 := by
  have ten : (10 : K) ≠ 0 := by norm_num
  simp only [metres, writtenValue, zpow_neg_one]
  field_simp
  norm_num

/-- The value of what stands before the last summand. -/
def Term.leadingValue (env : Env K) (t : Term) : K := (t.beforeLast?.map (·.value env)).getD 0

theorem value_divideLast (env : Env K) (t divisor : Term) :
    (t.divideLast divisor).value env =
      t.leadingValue env + (t.value env - t.leadingValue env) / divisor.value env := by
  cases t with
  | binary op l r =>
    cases op <;> simp only [Term.divideLast, Term.leadingValue, Term.beforeLast?,
      Operator.isAdditive, Term.value, Operator.apply, if_true, Bool.false_eq_true, if_false,
      Option.map_some, Option.map_none, Option.getD_some, Option.getD_none] <;> ring
  | name | param | text | number | call | paren | signed =>
    simp [Term.divideLast, Term.leadingValue, Term.beforeLast?, Term.value, Operator.apply]

end FilterSql.Sql.Arithmetic
