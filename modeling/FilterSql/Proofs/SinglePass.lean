import FilterSql.Proofs.Template
import Mathlib.Data.List.TakeWhile

/-!
# Filling in a single pass

A template is read once, from left to right, in rounds. A round copies the text up to the next opening
brace; then it writes the argument of the placeholder that starts there, or copies the brace. What is
left of the template is always an end of the template itself. So no argument is looked at for
placeholders, whatever its text is, and there are no more rounds than opening braces.

## Main definitions

* `Template.Progress.next?`: one round.
* `Template.Parts`: a template put together from plain text and placeholders.

## Main statements

* `Template.fill_single_pass`: filling a template that was put together from parts puts the argument
  in the place of each placeholder; filling any template ends.
-/

namespace FilterSql.Sql.Template

open Text

variable {args : List Clause} {arg : Clause} {cs rest before after : List Char}

/-- The argument for the placeholder whose opening brace has been read, and what is left of the
template after that placeholder. -/
def replacement? (args : List Clause) (cs : List Char) : Option (Clause × List Char) :=
  (slot? cs).bind fun slot => args[slot.1]?.map fun arg => (arg, cs.drop slot.2)

theorem suffix_of_replacement? (h : replacement? args cs = some (arg, rest)) : rest <:+ cs := by
  obtain ⟨slot, -, given⟩ := Option.bind_eq_some_iff.1 h
  obtain ⟨_, -, eq⟩ := Option.map_eq_some_iff.1 given
  cases eq
  exact List.drop_suffix slot.2 cs

/-! ## Filling by the next brace -/

theorem fillFrom_eq_drop (args : List Clause) (skip : Nat) (cs : List Char) :
    fillFrom args skip cs = fillFrom args 0 (cs.drop skip) := by
  induction cs generalizing skip with
  | nil => simp [fillFrom]
  | cons c cs ih =>
    cases skip with
    | zero => rfl
    | succ skip => exact ih skip

theorem fillFrom_of_replacement? (h : replacement? args cs = some (arg, rest)) :
    fillFrom args 0 ('\x7b' :: cs) = arg ++ fillFrom args 0 rest := by
  obtain ⟨slot, found, filled⟩ := Option.bind_eq_some_iff.1 h
  obtain ⟨_, given, eq⟩ := Option.map_eq_some_iff.1 filled
  cases eq
  rw [fillFrom, if_pos rfl, found]
  simp only [given]
  rw [fillFrom_eq_drop]

theorem fillFrom_of_replacement?_eq_none (h : replacement? args cs = none) :
    fillFrom args 0 ('\x7b' :: cs) = .char '\x7b' :: fillFrom args 0 cs := by
  rw [fillFrom, if_pos rfl]
  cases found : slot? cs with
  | none => rfl
  | some slot =>
    have missing : args[slot.1]? = none := by simpa [replacement?, found] using h
    simp only [missing]

/-- Text without an opening brace is copied. -/
theorem fillFrom_append (plain : '\x7b' ∉ before) (rest : List Char) :
    fillFrom args 0 (before ++ rest) = before.map .char ++ fillFrom args 0 rest := by
  induction before with
  | nil => rfl
  | cons c before ih =>
    rw [List.mem_cons, not_or] at plain
    rw [List.cons_append, fillFrom, if_neg (Ne.symm plain.1), ih plain.2]
    rfl

theorem fillFrom_eq_map (plain : '\x7b' ∉ cs) : fillFrom args 0 cs = cs.map .char := by
  simpa [fillFrom] using fillFrom_append plain []

/-! ## Rounds -/

/-- What has been written, and what is left of the template. -/
structure Progress where
  written : Clause
  rest : List Char

namespace Progress

variable {p q last : Progress} {rounds : Nat}

/-- One round, if there is another opening brace. -/
def next? (args : List Clause) (p : Progress) : Option Progress :=
  match p.rest.dropWhile (· != '\x7b') with
  | [] => none
  | _ :: after =>
    let copied := p.written ++ (p.rest.takeWhile (· != '\x7b')).map .char
    match replacement? args after with
    | some (arg, rest) => some ⟨copied ++ arg, rest⟩
    | none => some ⟨copied ++ [.char '\x7b'], after⟩

/-- The clause that filling the rest will end with. -/
def result (args : List Clause) (p : Progress) : Clause := p.written ++ fillFrom args 0 p.rest

theorem next?_eq_none_iff : p.next? args = none ↔ '\x7b' ∉ p.rest := by
  have passed : p.rest.dropWhile (· != '\x7b') = [] ↔ '\x7b' ∉ p.rest := by
    rw [List.dropWhile_eq_nil_iff]
    constructor
    · intro others member
      simpa using others _ member
    · intro plain c member
      simpa using ne_of_mem_of_not_mem member plain
  rw [← passed]
  unfold next?
  cases p.rest.dropWhile (· != '\x7b') with
  | nil => simp
  | cons c after =>
    dsimp only
    split <;> simp

/-- A round copies the text before the first opening brace. Then it replaces a placeholder that has an
argument, and else copies the brace. -/
theorem next?_cases (h : p.next? args = some q) :
    ∃ before after, '\x7b' ∉ before ∧ p.rest = before ++ '\x7b' :: after ∧
      ((∃ arg, replacement? args after = some (arg, q.rest) ∧
          q.written = p.written ++ before.map .char ++ arg) ∨
        (replacement? args after = none ∧ q.rest = after ∧
          q.written = p.written ++ before.map .char ++ [.char '\x7b'])) := by
  have parts := List.takeWhile_append_dropWhile (p := (· != '\x7b')) (l := p.rest)
  have plain : '\x7b' ∉ p.rest.takeWhile (· != '\x7b') := fun member => by
    simpa using List.mem_takeWhile_imp member
  unfold next? at h
  cases cut : p.rest.dropWhile (· != '\x7b') with
  | nil =>
    rw [cut] at h
    cases h
  | cons c after =>
    have brace : (c != '\x7b') = false := stop_of_dropWhile c (by rw [cut]; rfl)
    rw [cut, bne_eq_false_iff_eq.1 brace] at parts
    rw [cut] at h
    refine ⟨_, after, plain, parts.symm, ?_⟩
    cases found : replacement? args after with
    | none =>
      simp only [found] at h
      cases h
      exact .inr ⟨rfl, rfl, rfl⟩
    | some replacement =>
      simp only [found] at h
      cases h
      exact .inl ⟨_, rfl, rfl⟩

/-- A round goes on with an end of the template, and leaves the brace at which it stopped behind. -/
theorem next?_suffix (h : p.next? args = some q) :
    q.rest <:+ p.rest ∧ q.rest.count '\x7b' < p.rest.count '\x7b' := by
  obtain ⟨before, after, -, parts, written⟩ := next?_cases h
  have shorter : q.rest <:+ after := by
    rcases written with ⟨arg, replaced, -⟩ | ⟨-, rfl, -⟩
    · exact suffix_of_replacement? replaced
    · exact List.suffix_rfl
  have passed : '\x7b' :: after <:+ p.rest := ⟨before, parts.symm⟩
  refine ⟨shorter.trans ((List.suffix_cons _ _).trans passed), ?_⟩
  calc q.rest.count '\x7b'
      ≤ after.count '\x7b' := shorter.sublist.count_le _
    _ < ('\x7b' :: after).count '\x7b' := by simp
    _ ≤ p.rest.count '\x7b' := passed.sublist.count_le _

/-- A round does not change what the filled template will be. -/
theorem result_next? (h : p.next? args = some q) : q.result args = p.result args := by
  obtain ⟨before, after, plain, parts, written⟩ := next?_cases h
  rw [result, result, parts, fillFrom_append plain]
  rcases written with ⟨arg, replaced, written⟩ | ⟨kept, rest, written⟩
  · rw [fillFrom_of_replacement? replaced, written]
    simp
  · rw [fillFrom_of_replacement?_eq_none kept, written, rest]
    simp

/-- The second state is reached from the first in so many rounds. -/
inductive Rounds (args : List Clause) : Nat → Progress → Progress → Prop
  | stay (p : Progress) : Rounds args 0 p p
  | next {p q last : Progress} {rounds : Nat} :
      p.next? args = some q → Rounds args rounds q last → Rounds args (rounds + 1) p last

theorem Rounds.suffix (h : Rounds args rounds p last) : last.rest <:+ p.rest := by
  induction h with
  | stay => exact List.suffix_rfl
  | next step _ ih => exact ih.trans (next?_suffix step).1

theorem Rounds.result_eq (h : Rounds args rounds p last) : last.result args = p.result args := by
  induction h with
  | stay => rfl
  | next step _ ih => exact ih.trans (result_next? step)

/-- The rounds come to an end, after at most one for each opening brace. -/
theorem exists_rounds (args : List Clause) (p : Progress) :
    ∃ rounds ≤ p.rest.count '\x7b', ∃ last, Rounds args rounds p last ∧ last.next? args = none := by
  induction braces : p.rest.count '\x7b' using Nat.strongRecOn generalizing p with
  | ind braces ih =>
    cases step : p.next? args with
    | none => exact ⟨0, Nat.zero_le _, p, .stay p, step⟩
    | some q =>
      have fewer := (next?_suffix step).2
      obtain ⟨rounds, le, last, run, stop⟩ := ih _ (braces ▸ fewer) q rfl
      exact ⟨rounds + 1, by omega, last, .next step run, stop⟩

end Progress

/-! ## Templates in parts -/

/-- A decimal numeral: digits, one at least. -/
structure Numeral where
  digits : List Char
  nonempty : digits ≠ []
  decimal : ∀ d ∈ digits, d.isDigit = true

namespace Numeral

def value (n : Numeral) : Nat := Decimal.natOfDigits n.digits

def placeholder (n : Numeral) : String := String.ofList ('\x7b' :: (n.digits ++ ['\x7d']))

/-- The usual numeral of a number. -/
def ofNat (n : Nat) : Numeral where
  digits := Nat.toDigits 10 n
  nonempty := Nat.toDigits_ne_nil
  decimal _ member := Nat.isDigit_of_mem_toDigits (by decide) (by decide) member

@[simp] theorem value_ofNat (n : Nat) : (ofNat n).value = n := Nat.ofDigitChars_ten_toDigits

theorem notMem_digits (n : Numeral) {c : Char} (other : c.isDigit = false) : c ∉ n.digits := by
  intro member
  rw [n.decimal c member] at other
  cases other

end Numeral

/-- The argument that a numeral names. Indices have 64 bits, and so have the lengths of lists of
arguments: a larger numeral names none. -/
def argument? (args : List Clause) (n : Numeral) : Option Clause :=
  if n.value ≤ Decimal.maxNat64 then args[n.value]? else none

theorem argument?_eq_getElem? (addressed : args.length ≤ Decimal.maxNat64) (n : Numeral) :
    argument? args n = args[n.value]? := by
  rw [argument?]
  split
  · rfl
  · exact (List.getElem?_eq_none (by omega)).symm

/-- A numeral has no blanks to be trimmed. -/
theorem dropBlanksEnd_dropBlanks_digits (n : Numeral) :
    dropBlanksEnd (dropBlanks n.digits) = n.digits := by
  have none : ∀ blanks : List Char, (∀ c ∈ blanks, isBlank c = true) → blanks ⊆ n.digits →
      blanks = [] := by
    intro blanks all within
    refine List.eq_nil_iff_forall_not_mem.2 fun c member => ?_
    have other : c.isDigit = false :=
      forall_isBlank (P := fun c => c.isDigit = false) (by decide) (all c member)
    exact n.notMem_digits other (within member)
  obtain ⟨before, after, parts, front, back⟩ := exists_blanks_around n.digits
  rw [none before front (by rw [parts]; simp), none after back (by rw [parts]; simp)] at parts
  simpa using parts.symm

theorem index?_digits (n : Numeral) :
    index? n.digits = if n.value ≤ Decimal.maxNat64 then some n.value else none := by
  have read : Decimal.readNat? n.digits = some n.value := by
    have all : n.digits.all Char.isDigit = true := List.all_eq_true.2 n.decimal
    simp [Decimal.readNat?, n.nonempty, all, Numeral.value]
  have unsigned : Decimal.readBoundedNat? Decimal.maxNat64 n.digits =
      (Decimal.readNat? n.digits).filter (· ≤ Decimal.maxNat64) := by
    unfold Decimal.readBoundedNat?
    split
    · next digits signed =>
      exact absurd (by simp [signed]) (n.notMem_digits (c := '+') (by decide))
    · rfl
  rw [index?, dropBlanksEnd_dropBlanks_digits, unsigned, read, Option.filter_some]
  simp

theorem replacement?_digits (args : List Clause) (n : Numeral) (rest : List Char) :
    replacement? args (n.digits ++ '\x7d' :: rest) =
      (argument? args n).map fun arg => (arg, rest) := by
  have inside : '\x7d' ∉ n.digits := n.notMem_digits (by decide)
  rw [replacement?, slot?_append_brace inside, index?_digits, argument?]
  split <;> simp

/-- A placeholder gives way to its argument, or is copied. -/
theorem fillFrom_placeholder (args : List Clause) (n : Numeral) (rest : List Char) :
    fillFrom args 0 (n.placeholder.toList ++ rest) =
      (argument? args n).getD (.ofString n.placeholder) ++ fillFrom args 0 rest := by
  have parts : n.placeholder.toList ++ rest = '\x7b' :: (n.digits ++ '\x7d' :: rest) := by
    simp [Numeral.placeholder]
  have read := replacement?_digits args n rest
  rw [parts]
  cases found : argument? args n with
  | some arg =>
    rw [found, Option.map_some] at read
    rw [fillFrom_of_replacement? read, Option.getD_some]
  | none =>
    rw [found, Option.map_none] at read
    have plain : '\x7b' ∉ n.digits ++ ['\x7d'] := by
      simpa using n.notMem_digits (by decide)
    have copied : fillFrom args 0 (n.digits ++ ['\x7d'] ++ rest) = _ := fillFrom_append plain rest
    rw [List.append_assoc, List.singleton_append] at copied
    rw [fillFrom_of_replacement?_eq_none read, copied, Option.getD_none]
    simp [Clause.ofString, Numeral.placeholder]

/-- Text without an opening brace. -/
structure PlainText where
  text : String
  plain : '\x7b' ∉ text.toList

/-- What stands in the place of a placeholder: the text of its argument, or the placeholder. -/
def placed (sigil : Char) (args : List Clause) (n : Numeral) : String :=
  ((argument? args n).map (·.render sigil)).getD n.placeholder

theorem render_fillFrom_placeholder (sigil : Char) (args : List Clause) (n : Numeral)
    (rest : List Char) :
    Clause.render sigil (fillFrom args 0 (n.placeholder.toList ++ rest)) =
      placed sigil args n ++ Clause.render sigil (fillFrom args 0 rest) := by
  rw [fillFrom_placeholder, Clause.render_append, placed]
  cases argument? args n with
  | some arg => rfl
  | none => rw [Option.getD_none, Clause.render_ofString, Option.map_none, Option.getD_none]

theorem render_fillFrom_plain (sigil : Char) (args : List Clause) (t : PlainText)
    (rest : List Char) :
    Clause.render sigil (fillFrom args 0 (t.text.toList ++ rest)) =
      t.text ++ Clause.render sigil (fillFrom args 0 rest) := by
  have copied : Clause.render sigil (t.text.toList.map .char) = t.text :=
    Clause.render_ofString sigil t.text
  rw [fillFrom_append t.plain, Clause.render_append, copied]

/-- A template in parts: plain text, and placeholders with the plain text after each. -/
structure Parts where
  first : PlainText
  later : List (Numeral × PlainText)

namespace Parts

/-- The parts put together, with a text for each of the placeholders. -/
def textWith (f : Numeral → String) (p : Parts) : String :=
  p.first.text ++ String.join (p.later.map fun part => f part.1 ++ part.2.text)

def template (p : Parts) : String := p.textWith Numeral.placeholder

theorem render_fillFrom_later (sigil : Char) (args : List Clause)
    (later : List (Numeral × PlainText)) :
    Clause.render sigil (fillFrom args 0
        (String.join (later.map fun part => part.1.placeholder ++ part.2.text)).toList) =
      String.join (later.map fun part => placed sigil args part.1 ++ part.2.text) := by
  induction later with
  | nil => rfl
  | cons part later ih =>
    simp only [List.map_cons, String.join_cons, String.toList_append, List.append_assoc]
    rw [render_fillFrom_placeholder, render_fillFrom_plain, ih, String.append_assoc]

theorem render_fill_template (sigil : Char) (args : List Clause) (p : Parts) :
    (fill p.template args).render sigil = p.textWith (placed sigil args) := by
  rw [fill, template, textWith, String.toList_append, render_fillFrom_plain,
    render_fillFrom_later, textWith]

end Parts

/-- Filling a template is a substitution in a single pass. Each placeholder is replaced by the text of
the argument that it names by its index, which is copied as it is whatever characters it holds; a
placeholder without an argument stays, and does not keep the others from being replaced. On every
template, also one with other braces, the rounds end after at most one for each opening brace: they go
on with an end of the template, until it has no brace left and is copied. -/
theorem fill_single_pass (sigil : Char) (args : List Clause) :
    (∀ parts : Parts,
        (fill parts.template args).render sigil = parts.textWith (placed sigil args)) ∧
      (args.length ≤ Decimal.maxNat64 → ∀ n, argument? args n = args[n.value]?) ∧
      ∀ template : String, ∃ rounds ≤ template.toList.count '\x7b', ∃ last,
        Progress.Rounds args rounds ⟨[], template.toList⟩ last ∧ last.next? args = none ∧
          last.rest <:+ template.toList ∧
          fill template args = last.written ++ last.rest.map .char := by
  refine ⟨Parts.render_fill_template sigil args, argument?_eq_getElem?, fun template => ?_⟩
  obtain ⟨rounds, few, last, run, stop⟩ := Progress.exists_rounds args ⟨[], template.toList⟩
  refine ⟨rounds, few, last, run, stop, run.suffix, ?_⟩
  calc fill template args
      = Progress.result args ⟨[], template.toList⟩ := rfl
    _ = last.result args := run.result_eq.symm
    _ = last.written ++ last.rest.map .char := by
      rw [Progress.result, fillFrom_eq_map (Progress.next?_eq_none_iff.1 stop)]

/-- Arguments that hold placeholders themselves, and a placeholder without an argument. -/
theorem fill_single_pass_braces :
    (fill "f(\x7b0\x7d, \x7b1\x7d) \x7d\x7b2\x7d"
          [.ofString "\x7b1\x7d", .ofString "\x7d\x7b0"]).render '@' =
        "f(\x7b1\x7d, \x7d\x7b0) \x7d\x7b2\x7d" ∧
      argument? [.ofString "\x7b1\x7d", .ofString "\x7d\x7b0"] (.ofNat 1) =
        some (.ofString "\x7d\x7b0") := by
  obtain ⟨filled, named, -⟩ :=
    fill_single_pass '@' [.ofString "\x7b1\x7d", .ofString "\x7d\x7b0"]
  constructor
  · exact filled ⟨⟨"f(", by decide⟩, [(.ofNat 0, ⟨", ", by decide⟩),
      (.ofNat 1, ⟨") \x7d", by decide⟩), (.ofNat 2, ⟨"", by decide⟩)]⟩
  · rw [named (by decide), Numeral.value_ofNat]
    rfl

end FilterSql.Sql.Template
