import FilterSql.Proofs.Reading
import FilterSql.Proofs.Text
import FilterSql.Sql.Compiler

/-!
# Tokens of conditions

Conditions are read back from their text in two steps. This module has the first: it cuts a text into
keywords, names, parameters, operators and punctuation. Words and parameters go on as long as they
can, so what a text spells depends on the character after it.

## Main statements

* `Grammar.Spells.append`: two texts one after the other spell the tokens of both, where the second
  starts with a character that may follow the first.
* `Grammar.spells_name`, `Grammar.spells_param`, `Grammar.spells_operator`, `Grammar.spells_spaced`:
  what the pieces of a condition spell.
-/

namespace FilterSql.Sql.Grammar

open FilterSql.Filter (Connective)
open FilterSql.Parser (Before before_cons before_nil)

/-! ## Tokens -/

inductive Keyword
  | connective (op : Connective)
  | not
  | member
  | is
  | null
deriving DecidableEq

namespace Keyword

def text : Keyword → String
  | connective op => op.sql
  | not => "NOT"
  | member => "IN"
  | is => "IS"
  | null => "NULL"

def all : List Keyword := [.connective .or, .connective .and, not, member, is, null]

/-- The keyword that a word is in any case. -/
def ofWord? (word : String) : Option Keyword := all.find? (Text.sameName ·.text word)

theorem ofWord?_text (k : Keyword) : ofWord? k.text = some k := by
  cases k with
  | connective op => cases op <;> decide
  | not | member | is | null => decide

end Keyword

inductive Token
  | keyword (k : Keyword)
  | name (word : String)
  | param (name : String)
  | operator (op : ComparisonOperator)
  | openParen
  | closeParen
  | comma
deriving DecidableEq

/-- A word is a keyword or a name. -/
def Token.ofWord (word : String) : Token :=
  match Keyword.ofWord? word with
  | some k => .keyword k
  | none => .name word

def isIdentStart (c : Char) : Bool := c.isAlpha || c == '_'

def isIdentChar (c : Char) : Bool := c.isAlphanum || c == '_'

def isWord : List Char → Bool
  | [] => false
  | c :: cs => isIdentStart c && cs.all isIdentChar

/-- A name that can stand for a column as it is. -/
def IsPlainName (s : String) : Prop := isWord s.toList = true ∧ Keyword.ofWord? s = none

instance (s : String) : Decidable (IsPlainName s) := inferInstanceAs (Decidable (_ ∧ _))

/-- The tokens that are no words, each after those that it starts. -/
def symbols : List (String × Token) :=
  [("(", .openParen), (")", .closeParen), (",", .comma)] ++
    [ComparisonOperator.eq, .ne, .le, .lt, .ge, .gt].map fun op => (op.sql, .operator op)

/-- The characters that these start with. -/
def symbolStarts : List Char := ['(', ')', ',', '=', '<', '>']

/-- A sign that neither a blank is nor any token other than a parameter starts with. -/
def IsSign (c : Char) : Prop :=
  isIdentStart c = false ∧ Text.isBlank c = false ∧ c ∉ symbolStarts

instance (c : Char) : Decidable (IsSign c) := inferInstanceAs (Decidable (_ ∧ _))

/-- The token at the front of a text that is neither a word nor a parameter. -/
def symbol? (cs : List Char) : Option (Token × List Char) :=
  (symbols.find? (·.1.toList.isPrefixOf cs)).map fun s => (s.2, cs.drop s.1.length)

/-- The token at the front of a text that starts with the given character. A word goes on as long as
it can. -/
def next? (sigil c : Char) (cs : List Char) : Option (Token × List Char) :=
  match symbol? (c :: cs) with
  | some found => some found
  | none =>
    let run := cs.takeWhile isIdentChar
    let word := String.ofList (c :: run)
    if isIdentStart c then some (.ofWord word, cs.dropWhile isIdentChar)
    else if c == sigil && !run.isEmpty then some (.param word, cs.dropWhile isIdentChar)
    else none

theorem next?_length_le {sigil c : Char} {cs rest : List Char} {t : Token}
    (h : next? sigil c cs = some (t, rest)) : rest.length ≤ cs.length := by
  have run : (cs.dropWhile isIdentChar).length ≤ cs.length :=
    (List.dropWhile_suffix isIdentChar).length_le
  unfold next? at h
  cases found : symbol? (c :: cs) with
  | some taken =>
    rw [found] at h
    cases h
    obtain ⟨s, member, eq⟩ := Option.map_eq_some_iff.1 found
    cases eq
    have positive : ∀ s ∈ symbols, 0 < s.1.length := by decide
    have := positive s (List.mem_of_find?_eq_some member)
    simp only [List.length_drop, List.length_cons]
    omega
  | none =>
    rw [found] at h
    grind

/-- The tokens of a text, where the sign of parameters is given. -/
def tokens? (sigil : Char) : List Char → Option (List Token)
  | [] => some []
  | c :: cs =>
    if Text.isBlank c then tokens? sigil cs
    else
      match _h : next? sigil c cs with
      | none => none
      | some (t, rest) => (tokens? sigil rest).map (t :: ·)
termination_by cs => cs.length
decreasing_by
  · simp
  · have := next?_length_le _h
    simp only [List.length_cons]
    omega

theorem tokens?_blank (sigil : Char) {c : Char} (h : Text.isBlank c = true) (cs : List Char) :
    tokens? sigil (c :: cs) = tokens? sigil cs := by
  rw [tokens?, if_pos h]

theorem tokens?_next {sigil c : Char} {cs rest : List Char} {t : Token}
    (notBlank : Text.isBlank c = false) (h : next? sigil c cs = some (t, rest)) :
    tokens? sigil (c :: cs) = (tokens? sigil rest).map (t :: ·) := by
  rw [tokens?, if_neg (by simp [notBlank])]
  split
  · next none =>
    rw [h] at none
    cases none
  · next some =>
    rw [h] at some
    cases some
    rfl

theorem symbol?_eq_none {c : Char} (h : c ∉ symbolStarts) (cs : List Char) :
    symbol? (c :: cs) = none := by
  have starts : ∀ s ∈ symbols, s.1.toList.head?.any (symbolStarts.contains ·) = true := by decide
  refine Option.map_eq_none_iff.2 (List.find?_eq_none.2 fun s member front => ?_)
  obtain ⟨d, head, start⟩ := (Option.any_eq_true _ _).1 (starts s member)
  obtain ⟨ds, eq⟩ := List.head?_eq_some_iff.1 head
  rw [eq, List.isPrefixOf_iff_prefix, List.cons_prefix_cons] at front
  exact h (front.1 ▸ List.contains_iff_mem.1 start)

theorem isBlank_of_isIdentStart {c : Char} (h : isIdentStart c = true) : Text.isBlank c = false := by
  rw [Bool.eq_false_iff]
  intro blank
  have other : isIdentStart c = false :=
    Text.forall_isBlank (P := fun c => isIdentStart c = false) (by decide) blank
  rw [h] at other
  cases other

theorem notMem_symbolStarts_of_isIdentStart {c : Char} (h : isIdentStart c = true) :
    c ∉ symbolStarts := by
  have others : symbolStarts.any isIdentStart = false := by decide
  exact fun member => List.any_eq_false.1 others c member h

/-! ## Spelling -/

/-- The text is the spelling of the tokens, where a character that may follow comes next. -/
def Spells (sigil : Char) (follow : Char → Prop) (cs : List Char) (ts : List Token) : Prop :=
  ∀ rest, Before follow rest → tokens? sigil (cs ++ rest) = (tokens? sigil rest).map (ts ++ ·)

/-- A character that ends a word. -/
def EndsWord (c : Char) : Prop := isIdentChar c = false

/-- Any character. -/
def Any (_ : Char) : Prop := True

variable {sigil : Char} {follow follow' : Char → Prop} {cs ds : List Char} {ts us : List Token}

theorem Spells.tokens?_eq (h : Spells sigil follow cs ts) : tokens? sigil cs = some ts := by
  have ended := h [] (before_nil follow)
  simpa [tokens?] using ended

theorem Spells.append (h : Spells sigil follow cs ts) (g : Spells sigil follow' ds us)
    (border : ∀ rest, Before follow' rest → Before follow (ds ++ rest)) :
    Spells sigil follow' (cs ++ ds) (ts ++ us) := by
  intro rest next
  rw [List.append_assoc, h _ (border rest next), g rest next, Option.map_map]
  congr 1
  funext vs
  simp

theorem Spells.mono (h : Spells sigil follow cs ts) (le : ∀ c, follow' c → follow c) :
    Spells sigil follow' cs ts :=
  fun rest next => h rest (next.mono le)

/-- A text that needs nothing to end it may stand before any other. -/
theorem Spells.free_append (h : Spells sigil Any cs ts) (g : Spells sigil follow ds us) :
    Spells sigil follow (cs ++ ds) (ts ++ us) :=
  h.append g fun _ _ _ _ => trivial

theorem Spells.blank {c : Char} (h : Text.isBlank c = true) (g : Spells sigil follow cs ts) :
    Spells sigil follow (c :: cs) ts := by
  intro rest next
  rw [List.cons_append, tokens?_blank sigil h, g rest next]

/-- A run of characters of names after a first character is read as far as it goes. -/
theorem run_append {run rest : List Char} (all : run.all isIdentChar = true)
    (next : Before EndsWord rest) :
    (run ++ rest).takeWhile isIdentChar = run ∧ (run ++ rest).dropWhile isIdentChar = rest := by
  rw [List.all_eq_true] at all
  exact ⟨Text.takeWhile_append_eq_left all next, Text.dropWhile_append_eq_right all next⟩

theorem spells_word (sigil : Char) (h : isWord cs = true) :
    Spells sigil EndsWord cs [.ofWord (.ofList cs)] := by
  intro rest next
  cases cs with
  | nil => cases h
  | cons c cs =>
    obtain ⟨start, all⟩ := Bool.and_eq_true_iff.1 h
    obtain ⟨taken, left⟩ := run_append all next
    refine tokens?_next (isBlank_of_isIdentStart start) ?_
    simp only [next?, symbol?_eq_none (notMem_symbolStarts_of_isIdentStart start), start, if_true,
      List.append_eq, taken, left]

theorem spells_name (sigil : Char) {s : String} (h : IsPlainName s) :
    Spells sigil EndsWord s.toList [.name s] := by
  have word := spells_word sigil h.1
  rwa [String.ofList_toList, Token.ofWord, h.2] at word

theorem spells_keyword (sigil : Char) (k : Keyword) :
    Spells sigil EndsWord k.text.toList [.keyword k] := by
  have isWord : isWord k.text.toList = true := by
    cases k with
    | connective op => cases op <;> decide
    | not | member | is | null => decide
  have word := spells_word sigil isWord
  rwa [String.ofList_toList, Token.ofWord, k.ofWord?_text] at word

theorem spells_param (h : IsSign sigil) (n : Nat) :
    Spells sigil EndsWord (parameterName sigil n).toList [.param (parameterName sigil n)] := by
  obtain ⟨start, blank, symbol⟩ := h
  have digits : ('p' :: Nat.toDigits 10 n).all isIdentChar = true := by
    simp only [List.all_cons, Bool.and_eq_true, List.all_eq_true]
    refine ⟨by decide, fun d member => ?_⟩
    have digit : d.isDigit = true := Nat.isDigit_of_mem_toDigits (by decide) (by decide) member
    simp [isIdentChar, Char.isAlphanum, digit]
  intro rest next
  obtain ⟨taken, left⟩ := run_append digits next
  rw [parameterName, String.toList_ofList]
  refine tokens?_next blank ?_
  simp only [next?, symbol?_eq_none symbol, start, List.append_eq, taken, left]
  simp

theorem spells_openParen (sigil : Char) : Spells sigil Any ['('] [.openParen] :=
  fun _ _ => tokens?_next (by decide) rfl

theorem spells_closeParen (sigil : Char) : Spells sigil Any [')'] [.closeParen] :=
  fun _ _ => tokens?_next (by decide) rfl

theorem spells_comma (sigil : Char) : Spells sigil Any [','] [.comma] :=
  fun _ _ => tokens?_next (by decide) rfl

theorem spells_operator (sigil : Char) (op : ComparisonOperator) :
    Spells sigil Any (" " ++ op.sql ++ " ").toList [.operator op] := by
  intro rest _
  have blank : Text.isBlank ' ' = true := by decide
  have front : ∃ c cs, op.sql.toList = c :: cs ∧ Text.isBlank c = false ∧
      next? sigil c (cs ++ ' ' :: rest) = some (.operator op, ' ' :: rest) := by
    cases op <;> exact ⟨_, _, rfl, by decide, rfl⟩
  obtain ⟨c, cs, eq, notBlank, read⟩ := front
  have text : (" " ++ op.sql ++ " ").toList ++ rest = ' ' :: c :: (cs ++ ' ' :: rest) := by
    simp [eq]
  rw [text, tokens?_blank sigil blank, tokens?_next notBlank read, tokens?_blank sigil blank]
  rfl

/-- Keywords with a blank before each. -/
def spaced (ks : List Keyword) : List Char := ks.flatMap fun k => ' ' :: k.text.toList

theorem before_spaced (ks : List Keyword) {rest : List Char} (next : Before EndsWord rest) :
    Before EndsWord (spaced ks ++ rest) := by
  cases ks with
  | nil => exact next
  | cons k ks => exact before_cons (by decide : isIdentChar ' ' = false)

theorem spells_spaced (sigil : Char) (ks : List Keyword) :
    Spells sigil EndsWord (spaced ks) (ks.map .keyword) := by
  induction ks with
  | nil =>
    intro rest _
    simp [spaced]
  | cons k ks ih =>
    exact .blank (by decide) ((spells_keyword sigil k).append ih fun _ => before_spaced ks)

end FilterSql.Sql.Grammar
