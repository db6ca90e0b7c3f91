import FilterSql.Proofs.Printing
import FilterSql.Proofs.RecasedTokens
import FilterSql.Validation

/-!
# The texts of expressions

What is looked up in the text of an expression that was read: it has no blanks around it, a call
without arguments has nothing between its parentheses, and only a single word or literal can be
mistaken for a unit.

## Main statements

* `Prints.trim_eq`: the text of an expression has no blanks around it.
* `Prints.recoveredArgument?_eq`: no argument is recovered from a call that was read without one.
* `Prints.unit_notMem`: the text of a composite expression is no unit.
-/

namespace FilterSql.Filter

open Text

/-! ## Blanks around a text -/

theorem isBlank_of_not_endsToken {c : Char} (h : endsToken c = false) : isBlank c = false := by
  simp only [endsToken, Bool.or_eq_false_iff] at h
  exact h.1.1.1

theorem Lexeme.isBlank_last {kind : TokenKind} {cs : List Char} {continues : Char → Bool}
    (h : Lexeme kind cs continues) : ∀ c ∈ cs.getLast?, isBlank c = false := by
  have quote (before : List Char) : ∀ c ∈ (before ++ ['\'']).getLast?, isBlank c = false := by
    intro c last
    rw [List.getLast?_concat] at last
    cases last
    decide
  cases h with
  | openParen | closeParen | comma =>
    intro c last
    cases last
    decide
  | quoted s => exact quote ('\'' :: doubled s)
  | number text =>
    exact fun c last => isBlank_of_not_endsToken (text.inside c (List.mem_of_mem_getLast? last)).1
  | word text | spatialName text =>
    exact fun c last => isBlank_of_not_endsToken (text.inside c (List.mem_of_mem_getLast? last)).1
  | @spatial c run s =>
    have parts : c :: (run ++ '\'' :: (doubled s ++ ['\''])) =
        (c :: (run ++ '\'' :: doubled s)) ++ ['\''] := by simp
    rw [parts]
    exact quote _

theorem Prints.trim_eq {e : Expr} {ts : List (Token Gap)} (h : Prints "" e ts) :
    trim e.text = e.text := by
  obtain ⟨-, source, stand, t, us, rfl, gap⟩ := h
  have stand := stand [] apart_nil
  have source : e.text.toList = (Token.sourceOf (t :: us)).toList := source.symm
  refine trim_eq_self ?_ ?_
  · obtain ⟨⟨-, continues, lexeme, -⟩, -⟩ := stand
    obtain ⟨c, tail, eq⟩ := lexeme.exists_cons
    rw [eq] at lexeme
    simpa [source, Token.toList_sourceOf_cons, gap, eq] using lexeme.isBlank_eq_false
  · obtain ⟨init, last, eq⟩ := List.eq_nil_or_concat (t :: us) |>.resolve_left (by simp)
    rw [eq, List.concat_eq_append] at source stand
    obtain ⟨⟨-, continues, lexeme, -⟩, -⟩ := (standBefore_append.1 stand).2
    have blank := lexeme.isBlank_last
    obtain ⟨c, tail, eq⟩ := lexeme.exists_cons
    simpa [source, Token.toList_sourceOf_append, Token.toList_sourceOf_cons, eq] using blank

/-! ## Calls without arguments -/

theorem Lexeme.eq_openParen {cs : List Char} {continues : Char → Bool}
    (h : Lexeme .openParen cs continues) : cs = ['('] := by
  cases h
  rfl

theorem Lexeme.eq_closeParen {cs : List Char} {continues : Char → Bool}
    (h : Lexeme .closeParen cs continues) : cs = [')'] := by
  cases h
  rfl

theorem Lexeme.isWord {text : String} {continues : Char → Bool}
    (h : Lexeme .word text.toList continues) : Literal.IsWord text := by
  generalize eq : text.toList = cs at h
  cases h with
  | word isText | spatialName isText => exact ⟨_, _, eq, isText⟩

theorem Literal.IsWord.inside {text : String} (h : IsWord text) :
    ∀ c ∈ text.toList, endsToken c = false ∧ c ≠ '\'' := by
  obtain ⟨c, run, eq, isText⟩ := h
  rw [eq]
  exact isText.inside

theorem trim_of_blank {s : String} (blank : ∀ c ∈ s.toList, isBlank c = true) : trim s = "" := by
  have none : (s.toList ++ []).dropWhile isBlank = [] := dropWhile_append_eq_right blank nofun
  rw [List.append_nil] at none
  simp [trim, dropBlanks, none, dropBlanksEnd]

/-- Between the parentheses of a call that was read without arguments there are only blanks. -/
theorem Prints.recoveredArgument?_eq {name raw : String} {ts : List (Token Gap)}
    (h : Prints "" (.call name [] raw) ts) : Expr.recoveredArgument? raw = none := by
  obtain ⟨t, p, us, q, rfl, isName, rfl, opens, closes, rfl, args⟩ := isExpr_call_iff.1 h.phrase
  obtain rfl : us = [] := by
    rcases args with ⟨rfl, -⟩ | ⟨_, _, ⟨⟩, -⟩
    rfl
  obtain ⟨⟨-, _, word, -⟩, ⟨gap, _, paren, -⟩, ⟨gap', _, paren', -⟩, -⟩ := h.stand [] apart_nil
  rw [isName.word] at word
  rw [opens] at paren
  rw [closes] at paren'
  have raw : (t.text ++ Token.sourceOf [p, q]).toList =
      (t.text.toList ++ p.place.toList) ++ '(' :: (q.place.toList ++ [')']) := by
    simp [Token.toList_sourceOf_cons, paren.eq_openParen, paren'.eq_closeParen]
  have before : ∀ c ∈ t.text.toList ++ p.place.toList, (c != '(') = true := by
    intro c member
    rw [bne_iff_ne]
    rintro rfl
    rcases List.mem_append.1 member with member | member
    · exact absurd (word.isWord.inside _ member).1 (by decide)
    · exact absurd (gap _ member) (by decide)
  have opened : (t.text ++ Token.sourceOf [p, q]).toList.dropWhile (· != '(') =
      '(' :: (q.place.toList ++ [')']) := by
    rw [raw]
    exact dropWhile_append_eq_right before (by simp)
  rw [Expr.recoveredArgument?, List.nil_append, textOf_cons, opened]
  simp [trim_of_blank gap']

/-! ## Units -/

theorem Literal.undouble_ne_nil {cs : List Char} (h : cs ≠ []) : undouble cs ≠ [] := by
  unfold undouble
  split
  · exact absurd rfl h
  · simp
  · split <;> simp

theorem Literal.eq_of_undouble {cs : List Char} {c : Char} (notQuote : c ≠ '\'')
    (h : undouble cs = [c]) : cs = [c] := by
  unfold undouble at h
  split at h
  · cases h
  · exact h
  · split at h
    · exact absurd (List.cons.inj h).1.symm notQuote
    · exact absurd (List.cons.inj h).2 (undouble_ne_nil (by simp))

/-- What stands in front of the quotes are letters. -/
theorem Literal.exists_quotedPart (cs : List Char) :
    ∃ name, cs = name ++ quotedPart cs ∧ ∀ c ∈ name, c ≠ ' ' ∧ c ≠ ')' := by
  have ignores : IgnoresCase fun c => c != ' ' && c != ')' := ignoresCase_of_capitals (by decide)
  cases found : dropSpatialName? cs with
  | none => exact ⟨[], by simp [quotedPart, found], nofun⟩
  | some part =>
    obtain ⟨before, spatial, rfl, -⟩ := dropSpatialName?_eq_some_iff.1 found
    obtain ⟨name, member, same⟩ := isSpatialName_iff.1 spatial
    have letters : ∀ name ∈ ["geography", "geometry"],
        name.toList.all (fun c => c != ' ' && c != ')') = true := by decide
    have all := forall_mem_of_map_toLower ignores same.symm
      (List.all_eq_true.1 (letters name member))
    exact ⟨before, by simp [quotedPart, found], by simpa using all⟩

theorem Literal.exists_of_isBetween {mark : Char} {cs : List Char} (h : isBetween mark cs = true) :
    ∃ inner, cs = mark :: (inner ++ [mark]) := by
  simp only [isBetween, Bool.and_eq_true, decide_eq_true_eq, beq_iff_eq] at h
  obtain ⟨⟨long, first⟩, last⟩ := h
  obtain ⟨rest, rfl⟩ := List.head?_eq_some_iff.1 first
  obtain ⟨d, rest, rfl⟩ := List.exists_cons_of_ne_nil (l := rest) (by rintro rfl; simp at long)
  rw [List.getLast?_cons_cons] at last
  obtain ⟨inner, eq⟩ := List.getLast?_eq_some_iff.1 last
  exact ⟨inner, by rw [eq]⟩

/-- A unit is written without blanks and parentheses. -/
theorem Literal.ne_of_unit {text : String} (trimmed : trim text = text)
    (unit : unquote text ∈ Validation.distanceUnits) : ∀ c ∈ text.toList, c ≠ ' ' ∧ c ≠ ')' := by
  have units : ∀ cs : List Char, String.ofList cs ∈ Validation.distanceUnits →
      cs = ['m'] ∨ cs = ['d'] := by
    intro cs member
    simpa [Validation.distanceUnits, ← String.toList_inj] using member
  rw [unquote, trimmed] at unit
  split at unit
  · next quoted =>
    obtain ⟨mark, isMark, between⟩ : ∃ mark, (mark = '\'' ∨ mark = '"') ∧
        isBetween mark (quotedPart text.toList) = true := by
      rcases (Bool.or_eq_true_iff.1 quoted) with between | between
      · exact ⟨_, .inl rfl, between⟩
      · exact ⟨_, .inr rfl, between⟩
    obtain ⟨inner, part⟩ := exists_of_isBetween between
    have isUnit : inner = ['m'] ∨ inner = ['d'] := by
      simp only [part, List.drop_one, List.tail_cons, List.dropLast_concat] at unit
      split at unit
      · exact (units _ unit).imp (eq_of_undouble (by decide)) (eq_of_undouble (by decide))
      · exact units _ unit
    have marked : ∀ c ∈ mark :: (inner ++ [mark]), c ≠ ' ' ∧ c ≠ ')' := by
      rcases isMark with rfl | rfl <;> rcases isUnit with rfl | rfl <;> simp
    obtain ⟨name, eq, letters⟩ := exists_quotedPart text.toList
    rw [eq, part]
    exact List.forall_mem_append.2 ⟨letters, marked⟩
  · have text' : String.ofList text.toList ∈ Validation.distanceUnits := by
      rwa [String.ofList_toList]
    rcases units _ text' with eq | eq <;> simp [eq]

/-- The text of a composite expression is no unit: there is a blank or a parenthesis in it. -/
theorem Prints.unit_notMem {e : Expr} {ts : List (Token Gap)} (h : Prints "" e ts)
    (composite : ∀ text, e ≠ .primary text) :
    Literal.unquote e.text ∉ Validation.distanceUnits := by
  intro unit
  have plain := Literal.ne_of_unit h.trim_eq unit
  cases e with
  | primary text => exact composite text rfl
  | call name args raw =>
    obtain ⟨t, p, us, q, rfl, -, rfl, -, closes, rfl, -⟩ := isExpr_call_iff.1 h.phrase
    have stand := h.stand [] apart_nil
    obtain ⟨-, -, stand⟩ := stand
    obtain ⟨⟨-, _, paren, -⟩, -⟩ := (standBefore_append.1 stand).2
    rw [closes] at paren
    refine (plain ')' ?_).2 rfl
    simp [Expr.text, Token.toList_sourceOf_cons, Token.toList_sourceOf_append, paren.eq_closeParen]
  | not e => exact (plain ' ' (by simp [Expr.text])).1 rfl
  | group e => exact (plain ')' (by simp [Expr.text])).2 rfl
  | comparison op l r => exact (plain ' ' (by simp [Expr.text])).1 rfl
  | logical op l r => exact (plain ' ' (by simp [Expr.text])).1 rfl
  | inList l values => exact (plain ')' (by simp [Expr.text])).2 rfl

end FilterSql.Filter
