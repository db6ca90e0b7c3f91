import FilterSql.Proofs.AlikePhrases
import FilterSql.Proofs.LoweredText

/-!
# The tokens of a text with names in another case

A text with names in another case is cut into tokens in the same places. Only words before a
parenthesis change, and numbers that a name goes on after, or a parenthesis. No operand is followed by
these, so in a filter that can be read the operands are the same.

## Main statements

* `Recased.exists_scan`: the tokens of both texts compare.
-/

namespace FilterSql.Filter

open Text

/-! ## Taking a text apart -/

theorem isNameChar_of_not_isWordChar {c : Char} (h : isWordChar c = false) :
    isNameChar c = false := by
  simp only [isWordChar, isNameChar, Bool.or_eq_false_iff] at h ⊢
  exact h.1

theorem isNameChar_of_isBlank {c : Char} (h : isBlank c = true) : isNameChar c = false := by
  have ends : endsToken c = true := by simp [endsToken, h]
  exact isNameChar_of_not_isWordChar (isWordChar_of_endsToken ends)

namespace Recased

variable {c : Char} {cs cs' : List Char}

/-- Outside quotes, a character is kept, or it belongs to a name that a parenthesis follows. -/
theorem of_cons (notQuote : c ≠ '\'') (h : Recased (c :: cs) cs') :
    ∃ c' ds, cs' = c' :: ds ∧ Recased cs ds ∧ c.toLower = c'.toLower ∧
      (c' = c ∨ isNameChar c = true ∧ opensCall (cs.dropWhile isNameChar) = true) := by
  cases h with
  | keep _ h => exact ⟨c, _, rfl, h, rfl, .inl rfl⟩
  | change same isName opens h => exact ⟨_, _, rfl, h, same, .inr ⟨isName, opens⟩⟩
  | quoted => exact absurd rfl notQuote
  | unclosed => exact absurd rfl notQuote

theorem mark (notQuote : c ≠ '\'') (notName : isNameChar c = false) (h : Recased (c :: cs) cs') :
    ∃ ds, cs' = c :: ds ∧ Recased cs ds := by
  obtain ⟨c', ds, rfl, rest, -, rfl | ⟨isName, -⟩⟩ := of_cons notQuote h
  · exact ⟨ds, rfl, rest⟩
  · rw [notName] at isName
    cases isName

theorem blanks {gap : List Char} (blank : ∀ c ∈ gap, isBlank c = true)
    (h : Recased (gap ++ cs) cs') : ∃ ds, cs' = gap ++ ds ∧ Recased cs ds := by
  induction gap generalizing cs' with
  | nil => exact ⟨cs', rfl, h⟩
  | cons c gap ih =>
    obtain ⟨isBlank, others⟩ := List.forall_mem_cons.1 blank
    have notQuote := forall_isBlank (P := (· ≠ '\'')) (by decide +kernel) isBlank
    obtain ⟨ds, rfl, rest⟩ := mark notQuote (isNameChar_of_isBlank isBlank) h
    obtain ⟨es, rfl, after⟩ := ih others rest
    exact ⟨es, rfl, after⟩

theorem closed {s : List Char} (stop : ∀ d ∈ cs.head?, d ≠ '\'')
    (h : Recased ('\'' :: (doubled s ++ '\'' :: cs)) cs') :
    ∃ ds, cs' = '\'' :: (doubled s ++ '\'' :: ds) ∧ Recased cs ds := by
  have length := quotedLength?_doubled s stop
  generalize whole : doubled s ++ '\'' :: cs = text at h length
  cases h with
  | keep notQuote _ => exact absurd rfl notQuote
  | change _ isName _ _ => exact absurd isName (by decide)
  | @quoted s' rest rest' stop' h =>
    rw [quotedLength?_doubled s' stop'] at length
    obtain ⟨same, rest⟩ := List.append_inj whole (by simpa using length.symm)
    cases rest
    exact ⟨rest', by rw [same], h⟩
  | unclosed unclosed =>
    rw [unclosed] at length
    cases length

end Recased

/-- The run changes from some letter on, where a name starts or goes on that a parenthesis follows. -/
structure ChangedBefore (rest run run' : List Char) : Prop where
  parts : ∃ before c name c' name', run = before ++ c :: name ∧ run' = before ++ c' :: name' ∧
    (c.isAlpha = true ∧ c'.isAlpha = true) ∧ (∀ d ∈ name, isNameChar d = true) ∧
      ∀ d ∈ name', isNameChar d = true
  opens : opensCall (rest.dropWhile isNameChar) = true

theorem opensCall_dropWhile_append {run rest : List Char} (inside : ∀ c ∈ run, endsToken c = false)
    (opens : opensCall ((run ++ rest).dropWhile isNameChar) = true) :
    (∀ c ∈ run, isNameChar c = true) ∧ opensCall (rest.dropWhile isNameChar) = true := by
  obtain ⟨name, after, rfl, nameChars, stop⟩ := exists_takeWhile isNameChar run
  rw [List.append_assoc, List.dropWhile_append_of_pos nameChars] at opens
  cases after with
  | nil => exact ⟨by simpa using nameChars, opens⟩
  | cons d after =>
    have notName := stop d rfl
    rw [List.cons_append, List.dropWhile_cons_of_neg (by simp [notName]),
      opensCall_cons (inside d (by simp))] at opens
    cases opens

theorem Recased.run {run rest cs' : List Char} (inside : ∀ c ∈ run, endsToken c = false ∧ c ≠ '\'')
    (h : Recased (run ++ rest) cs') :
    ∃ run' rest', cs' = run' ++ rest' ∧ Recased rest rest' ∧
      run.map Char.toLower = run'.map Char.toLower ∧ (run' = run ∨ ChangedBefore rest run run') := by
  induction run generalizing cs' with
  | nil => exact ⟨[], cs', rfl, h, rfl, .inl rfl⟩
  | cons c run ih =>
    obtain ⟨⟨-, notQuote⟩, inside'⟩ := List.forall_mem_cons.1 inside
    obtain ⟨c', ds, rfl, h, same, changed⟩ := of_cons notQuote h
    obtain ⟨run', rest', rfl, after, sames, others⟩ := ih inside' h
    refine ⟨c' :: run', rest', rfl, after, by simp [same, sames], ?_⟩
    by_cases eq : c' = c
    · subst eq
      rcases others with rfl | ⟨⟨before, d, name, d', name', rfl, rfl, all⟩, opens⟩
      · exact .inl rfl
      · exact .inr ⟨⟨c' :: before, d, name, d', name', rfl, rfl, all⟩, opens⟩
    · obtain ⟨nameChars, opens⟩ := opensCall_dropWhile_append (fun d member => (inside' d member).1)
        (changed.resolve_left eq).2
      have nameChars' := forall_mem_of_map_toLower ignoresCase_isNameChar sames nameChars
      exact .inr ⟨⟨[], c, run, c', run', rfl, rfl, ⟨isAlpha_of_toLower_eq same (Ne.symm eq),
        isAlpha_of_toLower_eq same.symm eq⟩, nameChars, nameChars'⟩, opens⟩

/-! ## The tokens -/

theorem endsToken_of_isWordChar {c : Char} (h : isWordChar c = true) :
    endsToken c = false ∧ c ≠ '\'' := by
  constructor
  · rw [Bool.eq_false_iff]
    intro ends
    rw [isWordChar_of_endsToken ends] at h
    cases h
  · rintro rfl
    exact absurd h (by decide)

theorem endsToken_of_isNumberChar {c : Char} (h : isNumberChar c = true) :
    endsToken c = false ∧ c ≠ '\'' := by
  constructor
  · rw [Bool.eq_false_iff]
    intro ends
    rw [isNumberChar_of_endsToken ends] at h
    cases h
  · rintro rfl
    exact absurd h (by decide)

theorem IsWordText.inside {c : Char} {run : List Char} (h : IsWordText c run) :
    ∀ d ∈ c :: run, endsToken d = false ∧ d ≠ '\'' := by
  intro d member
  refine endsToken_of_isWordChar ?_
  rcases List.mem_cons.1 member with rfl | member
  · exact Literal.isWordChar_of_isWordStart h.1
  · exact h.2 d member

theorem isNumberChar_of_startsNumber {c : Char} {run : List Char} (h : startsNumber c run = true) :
    isNumberChar c = true := by
  simp only [startsNumber, Bool.or_eq_true, Bool.and_eq_true, beq_iff_eq] at h
  rcases h with digit | ⟨rfl | rfl, -⟩
  · simp [isNumberChar, Char.isAlphanum, digit]
  · decide
  · decide

theorem IsNumberText.inside {c : Char} {run : List Char} (h : IsNumberText c run) :
    ∀ d ∈ c :: run, endsToken d = false ∧ d ≠ '\'' := by
  intro d member
  refine endsToken_of_isNumberChar ?_
  rcases List.mem_cons.1 member with rfl | member
  · exact isNumberChar_of_startsNumber h.1
  · exact h.2.1 d member

theorem isWordText_of_map_toLower {c c' : Char} {run run' : List Char}
    (same : (c :: run).map Char.toLower = (c' :: run').map Char.toLower) (h : IsWordText c run) :
    IsWordText c' run' := by
  simp only [List.map_cons, List.cons.injEq] at same
  refine ⟨?_, forall_mem_of_map_toLower ignoresCase_isWordChar same.2 h.2⟩
  rw [← ignoresCase_isWordStart, ← same.1, ignoresCase_isWordStart, h.1]

theorem isSpatialName_of_map_toLower {cs cs' : List Char}
    (same : cs.map Char.toLower = cs'.map Char.toLower) : isSpatialName cs = isSpatialName cs' := by
  have sameName : sameName (String.ofList cs) (String.ofList cs') = true := by
    simpa [sameName_iff] using same
  simp only [isSpatialName, sameName_congr sameName]

theorem startsNumber_map_toLower (c : Char) (run : List Char) :
    startsNumber c.toLower (run.map Char.toLower) = startsNumber c run := by
  have minus : (c.toLower == '-') = (c == '-') :=
    ignoresCase_of_capitals (p := (· == '-')) (by decide) c
  have plus : (c.toLower == '+') = (c == '+') :=
    ignoresCase_of_capitals (p := (· == '+')) (by decide) c
  have digit (c : Char) : c.toLower.isDigit = c.isDigit := ignoresCase_isDigit c
  simp only [startsNumber, digit, minus, plus, List.head?_map, Option.any_map]

/-- No timestamp of the local form ends with a letter and the characters of a name. -/
theorem readLocal?_of_name {cs before name : List Char} {c : Char}
    (chars : ∀ d ∈ cs, isNumberChar d = true) (eq : cs = before ++ c :: name)
    (letter : c.isAlpha = true) (nameChars : ∀ d ∈ name, isNameChar d = true) :
    Calendar.readLocal? (trim (String.ofList cs)).toList = none := by
  have notBlank : ∀ d ∈ (String.ofList cs).toList, isBlank d = false := by
    intro d member
    rw [String.toList_ofList] at member
    have inside := (endsToken_of_isNumberChar (chars d member)).1
    simp only [endsToken, Bool.or_eq_false_iff] at inside
    exact inside.1.1.1
  rw [trim_eq_self_of_not_blank notBlank, String.toList_ofList, eq]
  refine Calendar.readLocal?_eq_none letter fun colon => ?_
  exact absurd (nameChars _ colon) (by decide)

/-- A number may change its case from a letter on, if the characters of a name come after it. -/
theorem isNumberText_of_changed {c c' : Char} {run run' rest : List Char}
    (same : (c :: run).map Char.toLower = (c' :: run').map Char.toLower)
    (changed : ChangedBefore rest (c :: run) (c' :: run')) (h : IsNumberText c run) :
    IsNumberText c' run' := by
  obtain ⟨starts, chars, isLiteral⟩ := h
  obtain ⟨⟨before, d, name, d', name', eq, eq', ⟨letter, letter'⟩, nameChars, nameChars'⟩, -⟩ :=
    changed
  have all : ∀ d ∈ c :: run, isNumberChar d = true :=
    List.forall_mem_cons.2 ⟨isNumberChar_of_startsNumber starts, chars⟩
  have all' := forall_mem_of_map_toLower ignoresCase_isNumberChar same all
  have sameName : sameName (String.ofList (c :: run)) (String.ofList (c' :: run')) = true := by
    simpa [sameName_iff] using same
  refine ⟨?_, (List.forall_mem_cons.1 all').2, ?_⟩
  · simp only [List.map_cons, List.cons.injEq] at same
    rw [← startsNumber_map_toLower, ← same.1, ← same.2, startsNumber_map_toLower, starts]
  · rw [← Literal.isLiteral_of_sameName sameName (readLocal?_of_name all eq letter nameChars)
      (readLocal?_of_name all' eq' letter' nameChars'), isLiteral]

/-- What ends a token ends it in another case. -/
theorem Recased.stop {rest rest' : List Char} (h : Recased rest rest') {p : Char → Bool}
    (ignores : IgnoresCase p) (stop : ∀ d ∈ rest.head?, p d = false) :
    ∀ d ∈ rest'.head?, p d = false :=
  head?_map_toLower ignores h.map_toLower stop

theorem opensCall_of_not_name {rest : List Char} (stop : ∀ d ∈ rest.head?, isNameChar d = false)
    (opens : opensCall (rest.dropWhile isNameChar) = true) : opensCall rest = true := by
  have whole : ([] ++ rest).dropWhile isNameChar = rest := dropWhile_append_eq_right nofun stop
  rw [List.nil_append] at whole
  rwa [whole] at opens

/-- The token that starts a text, and the same token in a text with names in another case. -/
theorem Recased.exists_lexeme {kind : TokenKind} {cs rest cs' : List Char}
    {continues : Char → Bool} (lexeme : Lexeme kind cs continues)
    (stop : ∀ d ∈ rest.head?, continues d = false) (h : Recased (cs ++ rest) cs') :
    ∃ ds rest' continues', cs' = ds ++ rest' ∧ Recased rest rest' ∧ Lexeme kind ds continues' ∧
      (∀ d ∈ rest'.head?, continues' d = false) ∧ cs.map Char.toLower = ds.map Char.toLower ∧
      (ds = cs ∨ opensCall rest = true ∨
        kind = .literal ∧ ∃ d ∈ rest.head?, isNameChar d = true ∧ isNumberChar d = false) := by
  have quote : IgnoresCase (· == '\'') := ignoresCase_of_capitals (by decide)
  cases lexeme with
  | openParen =>
    obtain ⟨rest', rfl, after⟩ := h.mark (by decide) (by decide)
    exact ⟨['('], rest', _, rfl, after, .openParen, fun _ _ => rfl, rfl, .inl rfl⟩
  | closeParen =>
    obtain ⟨rest', rfl, after⟩ := h.mark (by decide) (by decide)
    exact ⟨[')'], rest', _, rfl, after, .closeParen, fun _ _ => rfl, rfl, .inl rfl⟩
  | comma =>
    obtain ⟨rest', rfl, after⟩ := h.mark (by decide) (by decide)
    exact ⟨[','], rest', _, rfl, after, .comma, fun _ _ => rfl, rfl, .inl rfl⟩
  | quoted s =>
    have parts : '\'' :: (doubled s ++ ['\'']) ++ rest = '\'' :: (doubled s ++ '\'' :: rest) := by
      simp
    rw [parts] at h
    obtain ⟨rest', rfl, after⟩ := h.closed (by simpa using stop)
    exact ⟨_, rest', _, by simp, after, .quoted s, after.stop quote stop, rfl, .inl rfl⟩
  | @number c run text =>
    obtain ⟨ds, rest', rfl, after, same, unchanged⟩ := h.run text.inside
    have stop' := after.stop ignoresCase_isNumberChar stop
    rcases unchanged with rfl | changed
    · exact ⟨_, rest', _, rfl, after, .number text, stop', rfl, .inl rfl⟩
    · cases ds with
      | nil => simp at same
      | cons c' run' =>
        refine ⟨_, rest', _, rfl, after, .number (isNumberText_of_changed same changed text), stop',
          same, .inr ?_⟩
        by_cases goesOn : ∃ d ∈ rest.head?, isNameChar d = true
        · obtain ⟨d, head, isName⟩ := goesOn
          exact .inr ⟨rfl, d, head, isName, stop d head⟩
        · refine .inl (opensCall_of_not_name (fun d head => ?_) changed.opens)
          rw [Bool.eq_false_iff]
          exact fun isName => goesOn ⟨d, head, isName⟩
  | @word c run text plain =>
    obtain ⟨ds, rest', rfl, after, same, unchanged⟩ := h.run text.inside
    have stop' := after.stop ignoresCase_isWordChar stop
    cases ds with
    | nil => simp at same
    | cons c' run' =>
      rw [isSpatialName_of_map_toLower same] at plain
      exact ⟨_, rest', _, rfl, after, .word (isWordText_of_map_toLower same text) plain, stop', same,
        unchanged.imp_right fun changed => .inl (opensCall_of_not_name
          (fun d head => isNameChar_of_not_isWordChar (stop d head)) changed.opens)⟩
  | @spatialName c run text spatial =>
    obtain ⟨ds, rest', rfl, after, same, unchanged⟩ := h.run text.inside
    have both : IgnoresCase fun d => isWordChar d || d == '\'' := fun d =>
      congrArg₂ (· || ·) (ignoresCase_isWordChar d) (quote d)
    have stop' := after.stop both stop
    cases ds with
    | nil => simp at same
    | cons c' run' =>
      rw [isSpatialName_of_map_toLower same] at spatial
      simp only [Bool.or_eq_false_iff] at stop
      exact ⟨_, rest', _, rfl, after, .spatialName (isWordText_of_map_toLower same text) spatial,
        stop', same, unchanged.imp_right fun changed => .inl (opensCall_of_not_name
          (fun d head => isNameChar_of_not_isWordChar (stop d head).1) changed.opens)⟩
  | @spatial c run s text spatial =>
    have parts : c :: (run ++ '\'' :: (doubled s ++ ['\''])) ++ rest =
        (c :: run) ++ '\'' :: (doubled s ++ '\'' :: rest) := by simp
    rw [parts] at h
    obtain ⟨ds, rest', rfl, after, same, unchanged⟩ := h.run text.inside
    obtain ⟨rest'', rfl, last⟩ := after.closed (by simpa using stop)
    -- the quote after the name opens no call
    have kept : ds = c :: run := by
      refine unchanged.resolve_right fun changed => ?_
      have notName : isNameChar '\'' = false := by decide
      have opens := changed.opens
      rw [List.dropWhile_cons_of_neg (by simp [notName]), opensCall_cons (by decide)] at opens
      cases opens
    subst kept
    exact ⟨_, rest'', _, by simp, last, .spatial s text spatial, last.stop quote stop, rfl, .inl rfl⟩

/-! ## Runs of tokens -/

theorem Lexeme.kind_of_openParen {kind : TokenKind} {tail : List Char} {continues : Char → Bool}
    (h : Lexeme kind ('(' :: tail) continues) : kind = .openParen := by
  have word : isWordStart '(' = false := by decide
  cases h with
  | openParen => rfl
  | number text => simp [IsNumberText, startsNumber] at text
  | word text | spatialName text | spatial _ text => simp [IsWordText, word] at text

theorem Token.not_closes_of_openParen {t : Token Gap} (h : t.kind = .openParen) : ¬t.Closes := by
  rintro (closes | comma | ⟨word, -, isWord⟩)
  · rw [h] at closes
    cases closes
  · rw [h] at comma
    cases comma
  · rw [t.isKeyword_of_kind_ne (by simp [h])] at isWord
    cases isWord

section Next

variable {ts : List (Token Gap)} {blanks : List Char} (stand : StandBefore ts blanks)
  (blank : ∀ c ∈ blanks, isBlank c = true)

include stand blank

theorem exists_of_opensCall (opens : opensCall ((Token.sourceOf ts).toList ++ blanks) = true) :
    ∃ p us, ts = p :: us ∧ p.kind = .openParen := by
  cases ts with
  | nil =>
    have nothing : (blanks ++ []).dropWhile isBlank = [] := dropWhile_append_eq_right blank nofun
    rw [List.append_nil] at nothing
    simp [opensCall, dropBlanks, nothing] at opens
  | cons p us =>
    obtain ⟨⟨gap, continues, lexeme, -⟩, -⟩ := stand
    obtain ⟨c, tail, eq⟩ := lexeme.exists_cons
    rw [eq] at lexeme
    have stop : ∀ d ∈ (c :: (tail ++ ((Token.sourceOf us).toList ++ blanks))).head?,
        isBlank d = false := by
      intro d head
      cases head
      exact lexeme.isBlank_eq_false
    have source : (Token.sourceOf (p :: us)).toList ++ blanks =
        p.place.toList ++ c :: (tail ++ ((Token.sourceOf us).toList ++ blanks)) := by
      simp [Token.toList_sourceOf_cons, eq]
    rw [source, opensCall, dropBlanks, dropWhile_append_eq_right gap stop] at opens
    obtain rfl : c = '(' := by simpa using opens
    exact ⟨p, us, rfl, lexeme.kind_of_openParen⟩

theorem exists_of_isNameChar {d : Char} (head : d ∈ ((Token.sourceOf ts).toList ++ blanks).head?)
    (isName : isNameChar d = true) (notNumber : isNumberChar d = false) :
    ∃ u us, ts = u :: us ∧ ¬u.Closes := by
  have notBlank : isBlank d = false := by
    rw [Bool.eq_false_iff]
    intro isBlank
    rw [isNameChar_of_isBlank isBlank] at isName
    cases isName
  cases ts with
  | nil =>
    rw [blank d (List.mem_of_mem_head? (by simpa using head))] at notBlank
    cases notBlank
  | cons u us =>
    obtain ⟨⟨gap, continues, lexeme, -⟩, -⟩ := stand
    refine ⟨u, us, rfl, fun closes => ?_⟩
    have first : u.text.toList.head? = some d := by
      obtain ⟨c, tail, eq⟩ := lexeme.exists_cons
      rw [Token.toList_sourceOf_cons, eq] at head
      cases before : u.place.toList with
      | nil => simpa [before, eq] using head
      | cons e before' =>
        obtain rfl : e = d := by simpa [before] using head
        rw [gap e (by simp [before])] at notBlank
        cases notBlank
    rcases closes with closes | comma | ⟨word, member, isWord⟩
    · rw [closes] at lexeme
      generalize u.text.toList = cs at lexeme first
      cases lexeme
      cases first
      exact absurd isName (by decide)
    · rw [comma] at lexeme
      generalize u.text.toList = cs at lexeme first
      cases lexeme
      cases first
      exact absurd isName (by decide)
    · -- the words that close start with ASCII letters, which go on with a number
      have letters : ∀ word ∈ closingWords, word.toList.head?.all isNumberChar = true := by decide
      simp only [Token.isKeyword, Bool.and_eq_true] at isWord
      have heads := congrArg List.head? (sameName_iff.1 isWord.2)
      rw [List.head?_map, List.head?_map, first, eq_comm, Option.map_some,
        Option.map_eq_some_iff] at heads
      obtain ⟨c, head', eq⟩ := heads
      have isNumber := letters word member
      rw [head', Option.all_some, ← ignoresCase_isNumberChar, eq, ignoresCase_isNumberChar,
        notNumber] at isNumber
      cases isNumber

end Next

/-- How a token compares with its like in a text with names in another case. It changes before a
parenthesis only, or if it is a number that a name goes on after. -/
structure Token.RecasedBefore (t t' : Token Gap) (next : Option (Token Gap)) : Prop where
  gap : t'.place = t.place
  kind : t'.kind = t.kind
  word : sameName t.text t'.text = true
  changed : t'.text ≠ t.text →
    ∃ u, next = some u ∧ (u.kind = .openParen ∨ t.kind = .literal ∧ ¬u.Closes)

theorem Token.RecasedBefore.text_eq {t t' : Token Gap} {next : Option (Token Gap)}
    (h : t.RecasedBefore t' next) (closed : ∀ u ∈ next, u.Closes) : t'.text = t.text := by
  by_contra changed
  obtain ⟨u, eq, opens | ⟨-, goesOn⟩⟩ := h.changed changed
  · exact Token.not_closes_of_openParen opens (closed u eq)
  · exact goesOn (closed u eq)

theorem Recased.exists_tokens {ts : List (Token Gap)} {blanks cs' : List Char}
    (stand : StandBefore ts blanks) (blank : ∀ c ∈ blanks, isBlank c = true)
    (h : Recased ((Token.sourceOf ts).toList ++ blanks) cs') :
    ∃ ts', cs' = (Token.sourceOf ts').toList ++ blanks ∧ StandBefore ts' blanks ∧
      Compared Token.RecasedBefore none ts ts' := by
  induction ts generalizing cs' with
  | nil =>
    have h' : Recased (blanks ++ []) cs' := by simpa using h
    obtain ⟨ds, rfl, rest⟩ := h'.blanks blank
    cases rest
    exact ⟨[], by simp, trivial, .nil⟩
  | cons t ts ih =>
    obtain ⟨⟨gap, continues, lexeme, stop⟩, others⟩ := stand
    have source : (Token.sourceOf (t :: ts)).toList ++ blanks =
        t.place.toList ++ (t.text.toList ++ ((Token.sourceOf ts).toList ++ blanks)) := by
      simp [Token.toList_sourceOf_cons]
    rw [source] at h
    obtain ⟨_, rfl, within⟩ := h.blanks gap
    obtain ⟨ds, _, continues', rfl, after, lexeme', stop', same, unchanged⟩ :=
      within.exists_lexeme lexeme stop
    obtain ⟨ts', rfl, stand', compared⟩ := ih others after
    refine ⟨⟨t.place, t.kind, String.ofList ds⟩ :: ts', by simp [Token.toList_sourceOf_cons],
      ⟨⟨gap, continues', by simpa using lexeme', stop'⟩, stand'⟩, .cons ⟨rfl, rfl, ?_, ?_⟩ compared⟩
    · simpa [sameName_iff] using same
    · rw [Option.or_none]
      intro changed
      rcases unchanged with rfl | opens | ⟨isLiteral, d, head, isName, notNumber⟩
      · exact absurd String.ofList_toList changed
      · obtain ⟨p, us, rfl, isOpen⟩ := exists_of_opensCall others blank opens
        exact ⟨p, rfl, .inl isOpen⟩
      · obtain ⟨u, us, rfl, goesOn⟩ := exists_of_isNameChar others blank head isName notNumber
        exact ⟨u, rfl, .inr ⟨isLiteral, goesOn⟩⟩

theorem Recased.exists_scan {cs cs' : List Char} {ts : List (Token Gap)} {blanks : String}
    (h : Recased cs cs') (scanned : spacedScan cs = .ok (ts, blanks)) :
    ∃ ts', spacedScan cs' = .ok (ts', blanks) ∧ Compared Token.RecasedBefore none ts ts' := by
  obtain ⟨rfl, stand, blank⟩ := spacedScan_eq_ok_iff.1 scanned
  obtain ⟨ts', source, stand', compared⟩ := h.exists_tokens stand blank
  exact ⟨ts', spacedScan_eq_ok_iff.2 ⟨source, stand', blank⟩, compared⟩

end FilterSql.Filter
