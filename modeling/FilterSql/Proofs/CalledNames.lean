import FilterSql.Proofs.LoweredNames
import FilterSql.Proofs.PrintedText
import FilterSql.Proofs.SmallLetters

/-!
# The names of calls in small letters

Of a filter that can be read only the words before parentheses are lower-cased. In ASCII they stay the
same names, but functions may have any names. So the lower-cased filter is cut into the same tokens
with other names of calls, unless such a name is no word any more: the small form of one letter ends
with a mark that is in no word. Then the filter cannot be read.

## Main statements

* `lowerCalls_callName`: what a word before a parenthesis becomes.
* `scan_lowerCalls`, `followed_of_scan_lowerCalls`: the tokens of a lower-cased filter.
* `Expr.exists_parse_lowerFunctionNames`, `Expr.alike_of_parse_lowerFunctionNames`: what it is read as.
-/

namespace FilterSql.Filter

open Text

variable {known : List String}

/-! ## Words before a parenthesis -/

theorem lowers_loweredName (known : List String) (after : List Char) (name : String) :
    Lowers name.toList (loweredName known after name).toList := by
  unfold loweredName
  split
  · rw [toLower, String.toList_ofList]
    exact lowers_lowerAfter [] name.toList
  · exact lowers_refl _

/-- The part of a word that is looked up if a parenthesis follows: what comes after its slashes, from
the first letter on. -/
def lastPart (word : List Char) : List Char :=
  (word.reverse.takeWhile isNameChar).reverse.dropWhile (!startsName ·)

/-- The part before it. -/
def firstPart (word : List Char) : List Char :=
  (word.reverse.dropWhile isNameChar).reverse ++
    (word.reverse.takeWhile isNameChar).reverse.takeWhile (!startsName ·)

/-- The name of a call in a lower-cased filter. -/
def callName (known : List String) (name : String) : String :=
  let last := String.ofList (lastPart name.toList)
  String.ofList (firstPart name.toList) ++ if known.any (sameName · last) then toLower last else last

theorem firstPart_append_lastPart (word : List Char) : firstPart word ++ lastPart word = word := by
  rw [firstPart, lastPart, List.append_assoc, List.takeWhile_append_dropWhile, ← List.reverse_append,
    List.takeWhile_append_dropWhile, List.reverse_reverse]

theorem toList_callName (known : List String) (name : String) : (callName known name).toList =
    firstPart name.toList ++
      (loweredName known ['('] (String.ofList (lastPart name.toList))).toList := by
  rw [callName, String.toList_append, String.toList_ofList]
  rfl

theorem lowers_callName (known : List String) (name : String) :
    Lowers name.toList (callName known name).toList := by
  have last := lowers_loweredName known ['('] (String.ofList (lastPart name.toList))
  have both := (lowers_refl (firstPart name.toList)).append last
  rwa [String.toList_ofList, firstPart_append_lastPart, ← toList_callName] at both

theorem lowerCalls_firstPart {word : List Char} (inside : ∀ c ∈ word, endsToken c = false ∧ c ≠ '\'')
    (rest : List Char) :
    lowerCalls known false (firstPart word ++ rest) = firstPart word ++ lowerCalls known false rest := by
  rw [← firstPart_append_lastPart word] at inside
  have inside := (List.forall_mem_append.1 inside).1
  rw [firstPart] at inside ⊢
  obtain ⟨inBefore, inMiddle⟩ := List.forall_mem_append.1 inside
  have middle : ∀ c ∈ (word.reverse.takeWhile isNameChar).reverse.takeWhile (!startsName ·),
      c ≠ '\'' ∧ startsName c = false := fun c member =>
    ⟨(inMiddle c member).2, by simpa using List.all_eq_true.1 List.all_takeWhile c member⟩
  rw [List.append_assoc, List.append_assoc, ← lowerCalls_append middle rest]
  cases before : word.reverse.dropWhile isNameChar with
  | nil => rfl
  | cons d others =>
    -- no name goes on over the slash
    have notName : isNameChar d = false := stop_of_dropWhile d (by rw [before]; rfl)
    rw [before, List.reverse_cons] at inBefore
    obtain ⟨inOthers, inside⟩ := List.forall_mem_append.1 inBefore
    obtain ⟨inner, notQuote⟩ := inside d (List.mem_singleton_self d)
    have notStart : startsName d = false := by
      rw [Bool.eq_false_iff]
      intro starts
      rw [isNameChar_of_startsName starts] at notName
      cases notName
    rw [List.reverse_cons, List.append_assoc, List.append_assoc, List.singleton_append,
      List.singleton_append, lowerCalls_run_of_not_opensCall inOthers (by simpa using notName)
        (opensCall_cons inner _), lowerCalls_cons notQuote notStart]

section Called

variable {rest : List Char} (stop : ∀ d ∈ rest.head?, isNameChar d = false)
  (opens : opensCall rest = true)

include stop opens

theorem lowerCalls_lastPart (word : List Char) :
    lowerCalls known false (lastPart word ++ rest) =
      (loweredName known ['('] (String.ofList (lastPart word))).toList ++
        lowerCalls known false rest := by
  have nameChars : ∀ c ∈ lastPart word, isNameChar c = true := by
    intro c member
    have inSegment := List.mem_reverse.1 ((List.dropWhile_suffix _).subset member)
    exact List.all_eq_true.1 List.all_takeWhile c inSegment
  have starts : ∀ c ∈ (lastPart word).head?, startsName c = true := fun c head => by
    simpa using stop_of_dropWhile c head
  generalize lastPart word = last at nameChars starts
  cases last with
  | nil =>
    have lowers := lowers_loweredName known ['('] (String.ofList [])
    rw [String.toList_ofList] at lowers
    generalize (loweredName known ['('] (String.ofList [])).toList = cs at lowers
    cases lowers
    rfl
  | cons c run =>
    rw [List.cons_append, lowerCalls_name (starts c rfl) (List.forall_mem_cons.1 nameChars).2 stop,
      loweredName, loweredName, opens]
    rfl

/-- Before a parenthesis the last part of a word is looked up. -/
theorem lowerCalls_callName {name : String} (word : Literal.IsWord name) :
    lowerCalls known false (name.toList ++ rest) =
      (callName known name).toList ++ lowerCalls known false rest := by
  rw [toList_callName, List.append_assoc, ← lowerCalls_lastPart stop opens,
    ← lowerCalls_firstPart word.inside, ← List.append_assoc, firstPart_append_lastPart]

end Called

/-! ## The first character -/

theorem endsToken_of_isWordStart {c : Char} (h : isWordStart c = true) : endsToken c = false :=
  (endsToken_of_isWordChar (Literal.isWordChar_of_isWordStart h)).1

theorem isBlank_of_isWordStart {c : Char} (h : isWordStart c = true) : isBlank c = false := by
  have inner := endsToken_of_isWordStart h
  simp only [endsToken, Bool.or_eq_false_iff] at inner
  exact inner.1.1.1

/-- Lower-casing keeps the first character, or puts the start of a name in the place of another. -/
theorem head?_lowerCalls_cases (known : List String) (cs : List Char) :
    (lowerCalls known false cs).head? = cs.head? ∨
      ∃ c d, cs.head? = some c ∧ (lowerCalls known false cs).head? = some d ∧
        startsName c = true ∧ startsName d = true := by
  cases cs with
  | nil => exact .inl (by rw [lowerCalls_nil])
  | cons c rest =>
    by_cases isQuote : c = '\''
    · rw [isQuote, lowerCalls_open]
      exact .inl rfl
    · cases starts : startsName c with
      | false =>
        rw [lowerCalls_cons isQuote starts]
        exact .inl rfl
      | true =>
        obtain ⟨name, after, rfl, nameChars, nameEnds⟩ := exists_takeWhile isNameChar rest
        have lowers := lowers_loweredName known after (String.ofList (c :: name))
        rw [String.toList_ofList] at lowers
        obtain ⟨d, ds, eq, start⟩ := exists_of_lowers_cons lowers starts
        rw [lowerCalls_name starts nameChars nameEnds, eq]
        exact .inr ⟨c, d, rfl, rfl, starts, start⟩

theorem apart_lowerCalls {rest : List Char} (apart : Apart rest) :
    Apart (lowerCalls known false rest) := by
  rcases head?_lowerCalls_cases known rest with same | ⟨c, d, head, -, starts, -⟩
  · rw [Apart, same]
    exact apart
  · have inner := endsToken_of_isWordStart starts
    rw [apart c head] at inner
    cases inner

/-- Lower-casing puts no character first that would go on with the token before it. -/
theorem Lexeme.stop_lowerCalls {kind : TokenKind} {cs rest : List Char} {continues : Char → Bool}
    (lexeme : Lexeme kind cs continues) (stop : ∀ d ∈ rest.head?, continues d = false)
    (ends : kind = .literal → ∀ d ∈ rest.head?, isNumberChar d = false → isNameChar d = false) :
    ∀ d ∈ (lowerCalls known false rest).head?, continues d = false := by
  rcases head?_lowerCalls_cases known rest with same | ⟨c, d, head, head', starts, starts'⟩
  · rw [same]
    exact stop
  · rw [head']
    rintro _ ⟨⟩
    have isWord : isWordChar c = true := Literal.isWordChar_of_isWordStart starts
    have notWord := stop c head
    cases lexeme with
    | openParen | closeParen | comma => rfl
    | quoted | spatial =>
      rw [beq_eq_false_iff_ne]
      rintro rfl
      exact absurd starts' (by decide)
    | number =>
      -- no name goes on after a number
      have notName := ends rfl c head notWord
      rw [isNameChar_of_startsName starts] at notName
      cases notName
    | word | spatialName => simp [isWord] at notWord

/-! ## Token by token -/

/-- A token that no call follows is not changed. -/
theorem Lexeme.lowerCalls_of_not_opensCall {kind : TokenKind} {cs rest : List Char}
    {continues : Char → Bool} (lexeme : Lexeme kind cs continues)
    (stop : ∀ d ∈ rest.head?, continues d = false)
    (ends : kind = .literal → ∀ d ∈ rest.head?, isNumberChar d = false → isNameChar d = false)
    (plain : kind = .word ∨ kind = .literal → opensCall rest = false) :
    lowerCalls known false (cs ++ rest) = cs ++ lowerCalls known false rest := by
  cases lexeme with
  | openParen | closeParen | comma => exact lowerCalls_cons (by decide) (by decide) rest
  | quoted s =>
    have quoted := lowerCalls_literal known s (by simpa using stop)
    simpa using quoted
  | number text =>
    exact lowerCalls_run_of_not_opensCall text.inside
      (fun d head => ends rfl d head (stop d head)) (plain (.inr rfl))
  | word text =>
    exact lowerCalls_run_of_not_opensCall text.inside
      (fun d head => isNameChar_of_not_isWordChar (stop d head)) (plain (.inl rfl))
  | spatialName text =>
    simp only [Bool.or_eq_false_iff] at stop
    exact lowerCalls_run_of_not_opensCall text.inside
      (fun d head => isNameChar_of_not_isWordChar (stop d head).1) (plain (.inl rfl))
  | spatial s text => exact lowerCalls_spatial text s (by simpa using stop)

/-- The token is a word before a parenthesis. -/
def Token.isCalled (t : Token Gap) (next : Option (Token Gap)) : Bool :=
  t.kind == .word && next.any (·.kind == .openParen)

/-- The token in a lower-cased filter. -/
def Token.called (known : List String) (t : Token Gap) (next : Option (Token Gap)) : Token Gap :=
  if t.isCalled next then { t with text := callName known t.text } else t

/-- The tokens of a lower-cased filter. -/
def calledTokens (known : List String) : List (Token Gap) → List (Token Gap)
  | [] => []
  | t :: ts => t.called known ts.head? :: calledTokens known ts

/-- The token is a word in the lower-cased filter if it stands before a parenthesis. -/
def Token.CalledByWord (known : List String) (t : Token Gap) (next : Option (Token Gap)) : Prop :=
  t.isCalled next = true → Literal.IsWord (callName known t.text)

theorem Token.kind_called (known : List String) (t : Token Gap) (next : Option (Token Gap)) :
    (t.called known next).kind = t.kind := by
  unfold called
  split <;> rfl

theorem Token.gap_called (known : List String) (t : Token Gap) (next : Option (Token Gap)) :
    (t.called known next).place = t.place := by
  unfold called
  split <;> rfl

theorem Token.called_of_isCalled {t : Token Gap} {next : Option (Token Gap)}
    (h : t.isCalled next = true) :
    t.called known next = { t with text := callName known t.text } := by
  rw [called, if_pos h]

theorem Token.called_of_not_isCalled {t : Token Gap} {next : Option (Token Gap)}
    (h : t.isCalled next = false) : t.called known next = t := by
  rw [called, h]
  rfl

theorem Token.exists_of_isCalled {t : Token Gap} {ts : List (Token Gap)}
    (h : t.isCalled ts.head? = true) :
    t.kind = .word ∧ ∃ p us, ts = p :: us ∧ p.kind = .openParen := by
  cases ts with
  | nil => simp [isCalled] at h
  | cons p us =>
    simp only [isCalled, List.head?_cons, Option.any_some, Bool.and_eq_true, beq_iff_eq] at h
    exact ⟨h.1, p, us, rfl, h.2⟩

theorem apart_of_openParen {p : Token Gap} {ts : List (Token Gap)} {blanks : List Char}
    (stand : StandBefore (p :: ts) blanks) (opens : p.kind = .openParen) :
    Apart ((Token.sourceOf (p :: ts)).toList ++ blanks) := by
  obtain ⟨⟨gap, continues, lexeme, -⟩, -⟩ := stand
  rw [opens] at lexeme
  generalize text : p.text.toList = cs at lexeme
  cases lexeme
  rw [Token.toList_sourceOf_cons, text]
  cases before : p.place.toList with
  | nil => exact apart_cons (by decide)
  | cons c _ =>
    have isBlank := gap c (by simp [before])
    exact apart_cons (by simp [endsToken, isBlank])

section Tokens

variable {t : Token Gap} {ts : List (Token Gap)} {blanks : List Char}

theorem lowerCalls_text (stand : StandBefore (t :: ts) blanks)
    (blank : ∀ c ∈ blanks, isBlank c = true)
    (closed : t.kind = .literal → ∀ u ∈ ts.head?, u.Closes) :
    lowerCalls known false (t.text.toList ++ ((Token.sourceOf ts).toList ++ blanks)) =
      (t.called known ts.head?).text.toList ++
        lowerCalls known false ((Token.sourceOf ts).toList ++ blanks) := by
  obtain ⟨⟨-, continues, lexeme, stop⟩, others⟩ := stand
  cases isCalled : t.isCalled ts.head? with
  | true =>
    obtain ⟨isWord, p, us, rfl, opens⟩ := Token.exists_of_isCalled isCalled
    rw [isWord] at lexeme
    have notName : ∀ d ∈ ((Token.sourceOf (p :: us)).toList ++ blanks).head?, isNameChar d = false :=
      fun d head => isNameChar_of_not_isWordChar
        (isWordChar_of_endsToken (apart_of_openParen others opens d head))
    rw [Token.called_of_isCalled isCalled]
    exact lowerCalls_callName notName (opensCall_of_openParen others opens) lexeme.isWord
  | false =>
    rw [Token.called_of_not_isCalled isCalled]
    refine lexeme.lowerCalls_of_not_opensCall stop (ends_of_closes others blank closed) fun kind => ?_
    rw [Bool.eq_false_iff]
    intro call
    obtain ⟨p, us, rfl, opens⟩ := exists_of_opensCall others blank call
    rcases kind with isWord | isLiteral
    · simp [Token.isCalled, isWord, opens] at isCalled
    · exact Token.not_closes_of_openParen opens (closed isLiteral p rfl)

theorem lowerCalls_sourceOf_cons (stand : StandBefore (t :: ts) blanks)
    (blank : ∀ c ∈ blanks, isBlank c = true)
    (closed : t.kind = .literal → ∀ u ∈ ts.head?, u.Closes) :
    lowerCalls known false ((Token.sourceOf (t :: ts)).toList ++ blanks) =
      (t.called known ts.head?).place.toList ++ ((t.called known ts.head?).text.toList ++
        lowerCalls known false ((Token.sourceOf ts).toList ++ blanks)) := by
  rw [Token.toList_sourceOf_cons, List.append_assoc, List.append_assoc,
    lowerCalls_blanks stand.1.gap, lowerCalls_text stand blank closed, Token.gap_called]

/-- In a run of tokens only the words before parentheses are lower-cased. -/
theorem lowerCalls_sourceOf (stand : StandBefore ts blanks) (blank : ∀ c ∈ blanks, isBlank c = true)
    (fenced : Fenced none ts) :
    lowerCalls known false ((Token.sourceOf ts).toList ++ blanks) =
      (Token.sourceOf (calledTokens known ts)).toList ++ blanks := by
  induction ts with
  | nil =>
    have same : lowerCalls known false (blanks ++ []) = _ := lowerCalls_blanks blank []
    simpa [calledTokens] using same
  | cons t ts ih =>
    obtain ⟨closed, fenced⟩ := fenced
    rw [Option.or_none] at closed
    rw [lowerCalls_sourceOf_cons stand blank closed, ih stand.2 fenced, calledTokens,
      Token.toList_sourceOf_cons, List.append_assoc, List.append_assoc]

theorem standsBefore_called (stand : StandBefore (t :: ts) blanks)
    (blank : ∀ c ∈ blanks, isBlank c = true)
    (closed : t.kind = .literal → ∀ u ∈ ts.head?, u.Closes) (good : t.CalledByWord known ts.head?) :
    (t.called known ts.head?).StandsBefore
      (lowerCalls known false ((Token.sourceOf ts).toList ++ blanks)) := by
  obtain ⟨⟨gap, continues, lexeme, stop⟩, others⟩ := stand
  refine ⟨t.gap_called known _ ▸ gap, ?_⟩
  cases isCalled : t.isCalled ts.head? with
  | true =>
    obtain ⟨isWord, p, us, rfl, opens⟩ := Token.exists_of_isCalled isCalled
    obtain ⟨c, run, eq, text⟩ := good isCalled
    have apart : Apart (lowerCalls known false _) := apart_lowerCalls (apart_of_openParen others opens)
    obtain ⟨continues', lexeme'⟩ := text.exists_lexeme
    rw [Token.called_of_isCalled isCalled, isWord, eq]
    exact ⟨continues', lexeme', fun d head => lexeme'.continues_eq_false (apart d head)⟩
  | false =>
    rw [Token.called_of_not_isCalled isCalled]
    exact ⟨continues, lexeme, lexeme.stop_lowerCalls stop (ends_of_closes others blank closed)⟩

theorem standBefore_calledTokens (stand : StandBefore ts blanks)
    (blank : ∀ c ∈ blanks, isBlank c = true) (fenced : Fenced none ts)
    (good : Followed (Token.CalledByWord known) none ts) :
    StandBefore (calledTokens known ts) blanks := by
  induction ts with
  | nil => trivial
  | cons t ts ih =>
    obtain ⟨closed, fenced'⟩ := fenced
    obtain ⟨first, good⟩ := good
    rw [Option.or_none] at closed first
    have stands := standsBefore_called stand blank closed first
    rw [lowerCalls_sourceOf stand.2 blank fenced'] at stands
    exact ⟨stands, ih stand.2 fenced' good⟩

/-! ## What is read -/

/-- In lower-casing a word becomes a word, or a word and the mark for a dot, which is in no word. -/
theorem exists_of_not_isWord {name : String} (word : Literal.IsWord name)
    (bad : ¬Literal.IsWord (callName known name)) :
    ∃ c run after, (callName known name).toList = c :: run ++ '\u0307' :: after ∧ IsWordText c run := by
  have lowers := lowers_callName known name
  have chars := isWordChar_of_lowers lowers word.isWordChar
  obtain ⟨c, run, eq, text⟩ := word
  rw [eq] at lowers
  obtain ⟨c', cs', eq', starts⟩ := exists_of_lowers_cons lowers text.1
  obtain ⟨run', after, rfl, wordChars, stop⟩ := exists_takeWhile isWordChar cs'
  cases after with
  | nil => exact absurd ⟨c', run', by simpa using eq', starts, wordChars⟩ bad
  | cons d after =>
    have notWord := stop d rfl
    rcases chars d (by simp [eq']) with isWord | rfl
    · rw [isWord] at notWord
      cases notWord
    · exact ⟨c', run', after, by simpa using eq', starts, wordChars⟩

/-- A text whose first character starts no token cannot be read. -/
theorem exists_scan_error {c : Char} (notBlank : isBlank c = false)
    (stray : (['(', ')', ',', '\'', '+', '-'].contains c || c.isDigit || isWordStart c) = false)
    (rest : List Char) : ∃ e, spacedScan (c :: rest) = .error e := by
  have none : ∀ d ∈ ([] : List Char), isBlank d = true := nofun
  have read : tokenAt c rest = .error (.unexpectedToken (strayText c rest)) := by
    simp only [List.contains_eq_mem, List.mem_cons, List.not_mem_nil, or_false, Bool.or_eq_false_iff,
      decide_eq_false_iff_not, not_or] at stray
    simp [tokenAt, startsNumber, stray]
  exact ⟨_, spacedScan_error none notBlank read⟩

theorem exists_scan_dotted_error {gap run : List Char} {c : Char}
    (blank : ∀ d ∈ gap, isBlank d = true) (text : IsWordText c run) (rest : List Char) :
    ∃ e, spacedScan (gap ++ (c :: run ++ '\u0307' :: rest)) = .error e := by
  have stop : ∀ d ∈ ('\u0307' :: rest).head?, isWordChar d = false ∧ d ≠ '\'' := by
    intro d head
    cases head
    decide +kernel
  have read := tokenAt_word text (fun d head => (stop d head).1) fun _ d head => (stop d head).2
  obtain ⟨e, error⟩ : ∃ e, spacedScan ('\u0307' :: rest) = .error e :=
    exists_scan_error (by decide) (by decide +kernel) rest
  rw [List.cons_append, spacedScan_token blank (isBlank_of_isWordStart text.1) read,
    List.drop_left, error]
  exact ⟨e, rfl⟩

/-- The lower-cased filter is cut into the tokens with lower-cased names if these are words. -/
theorem scan_lowerCalls (stand : StandBefore ts blanks) (blank : ∀ c ∈ blanks, isBlank c = true)
    (fenced : Fenced none ts) (good : Followed (Token.CalledByWord known) none ts) :
    spacedScan (lowerCalls known false ((Token.sourceOf ts).toList ++ blanks)) =
      .ok (calledTokens known ts, String.ofList blanks) := by
  rw [lowerCalls_sourceOf stand blank fenced]
  exact spacedScan_of_standBefore (standBefore_calledTokens stand blank fenced good) blank

/-- Otherwise it cannot be read. -/
theorem followed_of_scan_lowerCalls {r : List (Token Gap) × String} (stand : StandBefore ts blanks)
    (blank : ∀ c ∈ blanks, isBlank c = true) (fenced : Fenced none ts)
    (scanned : spacedScan (lowerCalls known false ((Token.sourceOf ts).toList ++ blanks)) = .ok r) :
    Followed (Token.CalledByWord known) none ts := by
  induction ts generalizing r with
  | nil => trivial
  | cons t ts ih =>
    obtain ⟨closed, fenced⟩ := fenced
    rw [Option.or_none] at closed
    rw [lowerCalls_sourceOf_cons stand blank closed] at scanned
    have good : t.CalledByWord known ts.head? := by
      intro isCalled
      by_contra bad
      obtain ⟨⟨gap, continues, lexeme, -⟩, -⟩ := stand
      rw [(Token.exists_of_isCalled isCalled).1] at lexeme
      obtain ⟨c, run, after, eq, text⟩ := exists_of_not_isWord lexeme.isWord bad
      obtain ⟨e, error⟩ := exists_scan_dotted_error gap text
        (after ++ lowerCalls known false ((Token.sourceOf ts).toList ++ blanks))
      simp only [Token.called_of_isCalled isCalled, eq, List.append_assoc, List.cons_append]
        at scanned error
      rw [error] at scanned
      cases scanned
    refine ⟨by rwa [Option.or_none], ?_⟩
    rw [(standsBefore_called stand blank closed good).scan_eq] at scanned
    cases rest : spacedScan (lowerCalls known false ((Token.sourceOf ts).toList ++ blanks)) with
    | error e =>
      rw [rest] at scanned
      cases scanned
    | ok r => exact ih stand.2 fenced rest

theorem head?_of_dropName? {cs rest : List Char} (found : dropName? "$filter=".toList cs = some rest) :
    cs.head? = some '$' := by
  obtain ⟨before, rfl, eq⟩ := dropName?_eq_some found
  have name : "$filter=".toList.map Char.toLower = '$' :: "filter=".toList := by decide
  obtain ⟨c, _, rfl, dollar, -⟩ := List.map_eq_cons_iff.1 (eq.trans name)
  by_contra other
  exact toLower_ne_dollar (fun same => other (congrArg some same)) dollar

theorem dropFilterName_lowerFunctionNames_of_scan {text : String} {r : List (Token Gap) × String}
    (scanned : spacedScan (dropFilterName text).toList = .ok r) :
    dropFilterName (lowerFunctionNames known text) = lowerFunctionNames known (dropFilterName text) := by
  have stop : ∀ d ∈ (dropBlanks text.toList).head?, isBlank d = false := stop_of_dropWhile
  rcases head?_lowerCalls_cases known (dropBlanks text.toList) with same | ⟨c, d, -, head, -, starts⟩
  · refine dropFilterName_of_lowerCalls (same ▸ stop) fun noName => ?_
    -- a text with another name that starts with the same sign cannot be read
    rw [dropFilterName, noName, Option.getD_none, String.toList_ofList] at scanned
    cases found : dropName? "$filter=".toList (lowerCalls known false (dropBlanks text.toList)) with
    | none => rfl
    | some rest =>
      rw [head?_of_dropName? found, eq_comm, List.head?_eq_some_iff] at same
      obtain ⟨cs, eq⟩ := same
      obtain ⟨e, error⟩ : ∃ e, spacedScan ('$' :: cs) = .error e :=
        exists_scan_error (by decide) (by decide) cs
      rw [eq, error] at scanned
      cases scanned
  · refine dropFilterName_of_lowerCalls ?_ fun _ => ?_
    · rw [head]
      rintro _ ⟨⟩
      exact isBlank_of_isWordStart starts
    · cases found : dropName? "$filter=".toList (lowerCalls known false (dropBlanks text.toList)) with
      | none => rfl
      | some rest =>
        rw [head?_of_dropName? found] at head
        cases head
        exact absurd starts (by decide)

end Tokens

/-! ## Keywords and leaves -/

theorem keywords_plain : keywords.all (fun word => !word.toList.isEmpty && word.toList.all fun c =>
    isWordStart c && c.toLower.toNat.blt 0x80 && c.toLower != 'k') = true := by
  decide +kernel

theorem isWord_of_mem_keywords {word : String} (member : word ∈ keywords) : Literal.IsWord word := by
  have plain := List.all_eq_true.1 keywords_plain word member
  cases eq : word.toList with
  | nil => simp [eq] at plain
  | cons c run =>
    simp only [eq, List.all_cons, List.all_eq_true, Bool.and_eq_true] at plain
    exact ⟨c, run, eq, plain.2.1.1.1,
      fun d member => Literal.isWordChar_of_isWordStart (plain.2.2 d member).1.1⟩

/-- Lower-casing neither makes a word a keyword nor a keyword another word. -/
theorem sameName_of_lowers {s s' word : String} (lowers : Lowers s.toList s'.toList)
    (member : word ∈ keywords) : sameName s' word = sameName s word := by
  have plain : ∀ c ∈ word.toList.map Char.toLower, c.toNat < 0x80 ∧ c ≠ 'k' := by
    have all := List.all_eq_true.1 keywords_plain word member
    simp only [List.all_eq_true, Bool.and_eq_true, Nat.blt_eq, bne_iff_ne] at all
    rw [List.forall_mem_map]
    intro c inWord
    obtain ⟨⟨-, ascii⟩, notK⟩ := all.2 c inWord
    exact ⟨ascii, notK⟩
  rw [Bool.eq_iff_iff, sameName_iff, sameName_iff]
  exact lowers.map_toLower_eq_iff plain

theorem Literal.IsWord.of_sameName {s s' : String} (word : IsWord s) (same : sameName s s' = true) :
    IsWord s' := by
  obtain ⟨c, run, eq, text⟩ := word
  rw [sameName_iff, eq] at same
  obtain ⟨c', run', eq', -⟩ := List.map_eq_cons_iff.1 same.symm
  rw [eq'] at same
  exact ⟨c', run', eq', isWordText_of_map_toLower same text⟩

theorem Token.isCalled_of_closes (t : Token Gap) {next : Option (Token Gap)}
    (closed : ∀ u ∈ next, u.Closes) :
    t.isCalled next = false := by
  cases next with
  | none => simp [isCalled]
  | some p =>
    have notOpen : p.kind ≠ .openParen := fun opens => not_closes_of_openParen opens (closed p rfl)
    simp [isCalled, notOpen]

theorem phraseRules_calledByWord (known : List String) :
    PhraseRules (Token.CalledByWord known) fun name => Literal.IsWord (callName known name) where
  operand {t _} _ closed isCalled := by
    rw [t.isCalled_of_closes closed] at isCalled
    cases isCalled
  name _ _ isWord _ := isWord
  keyword {t next word} member isWord _ := by
    simp only [Token.isKeyword, Bool.and_eq_true] at isWord
    have same := (sameName_of_lowers (lowers_callName known t.text) member).trans isWord.2
    exact (isWord_of_mem_keywords member).of_sameName (sameName_symm same)
  mark notWord _ isCalled := by
    simp [Token.isCalled, notWord] at isCalled

/-- The second token is the first one in a lower-cased filter, where it is a word if it names a
call. -/
structure Token.CalledBefore (known : List String) (t t' : Token Gap)
    (next : Option (Token Gap)) : Prop where
  called : t' = t.called known next
  byWord : t.CalledByWord known next

theorem Token.CalledBefore.isKeyword_eq {t t' : Token Gap} {next : Option (Token Gap)}
    (h : t.CalledBefore known t' next) {word : String} (member : word ∈ keywords) :
    t'.isKeyword word = t.isKeyword word := by
  rw [h.called]
  cases isCalled : t.isCalled next with
  | false => rw [called_of_not_isCalled isCalled]
  | true =>
    rw [called_of_isCalled isCalled, isKeyword, isKeyword,
      sameName_of_lowers (lowers_callName known t.text) member]

/-- The second name is the first one in a lower-cased filter. -/
def CalledName (known : List String) (name name' : String) : Prop :=
  name' = callName known name ∧ Literal.IsWord name'

theorem correspondence_called (known : List String) :
    Correspondence (Token.CalledBefore known) (· = ·) (CalledName known) fun _ _ => True where
  kind h := by rw [h.called, Token.kind_called]
  keyword h member := h.isKeyword_eq member
  leaf {t _ _} h closed := by
    rw [h.called, Token.called_of_not_isCalled (t.isCalled_of_closes closed)]
  name {t _ p} h isWord opens := by
    have isCalled : t.isCalled (some p) = true := by simp [Token.isCalled, isWord, opens]
    rw [h.called, Token.called_of_isCalled isCalled]
    exact ⟨rfl, h.byWord isCalled⟩
  text _ := trivial

theorem compared_calledTokens {ts : List (Token Gap)}
    (good : Followed (Token.CalledByWord known) none ts) :
    Compared (Token.CalledBefore known) none ts (calledTokens known ts) := by
  induction ts with
  | nil => exact .nil
  | cons t ts ih => exact .cons ⟨by rw [Option.or_none], good.1⟩ (ih good.2)

/-! ## What a lower-cased filter is read as -/

namespace Expr

theorem scan_lowerFunctionNames {text : String} {ts : List (Token Gap)} {blanks : String}
    (scanned : spacedScan (dropFilterName text).toList = .ok (ts, blanks)) (known : List String) :
    spacedScan (dropFilterName (lowerFunctionNames known text)).toList =
      spacedScan (lowerCalls known false ((Token.sourceOf ts).toList ++ blanks.toList)) := by
  rw [dropFilterName_lowerFunctionNames_of_scan scanned, lowerFunctionNames, String.toList_ofList,
    (spacedScan_eq_ok_iff.1 scanned).1]

/-- A filter that can be read can be read with its function names in small letters, if they are words
then. -/
theorem exists_parse_lowerFunctionNames {text : String} {e : Expr} (parsed : parse text = .ok e)
    (words : ∀ name args raw, Subterm (.call name args raw) e → Literal.IsWord (callName known name)) :
    ∃ e', parse (lowerFunctionNames known text) = .ok e' := by
  obtain ⟨ts, blanks, scanned, phrase, nesting⟩ := parse_eq_ok_iff.1 parsed
  obtain ⟨-, stand, blank⟩ := spacedScan_eq_ok_iff.1 scanned
  have good := phrase.followed (phraseRules_calledByWord known) closes_of_mem_none words
  have scanned' := scan_lowerCalls stand blank (phrase.fenced closes_of_mem_none) good
  obtain ⟨e', phrase', alike⟩ := phrase.exists_corresponding (correspondence_called known)
    closes_of_mem_none (compared_calledTokens good)
  rw [← scan_lowerFunctionNames scanned] at scanned'
  exact ⟨e', parse_eq_ok_iff.2 ⟨_, _, scanned', phrase', alike.nesting_eq ▸ nesting⟩⟩

/-- Then it is read as the same tree with the new names. -/
theorem alike_of_parse_lowerFunctionNames {text : String} {e e' : Expr} (parsed : parse text = .ok e)
    (parsed' : parse (lowerFunctionNames known text) = .ok e') :
    Alike (· = ·) (CalledName known) (fun _ _ => True) e e' := by
  obtain ⟨ts, blanks, scanned, phrase, -⟩ := parse_eq_ok_iff.1 parsed
  obtain ⟨-, stand, blank⟩ := spacedScan_eq_ok_iff.1 scanned
  obtain ⟨ts', blanks', scanned', phrase', -⟩ := parse_eq_ok_iff.1 parsed'
  have fenced := phrase.fenced closes_of_mem_none
  rw [scan_lowerFunctionNames scanned] at scanned'
  have good := followed_of_scan_lowerCalls stand blank fenced scanned'
  rw [scan_lowerCalls stand blank fenced good] at scanned'
  cases scanned'
  obtain ⟨e'', phrase'', alike⟩ := phrase.exists_corresponding (correspondence_called known)
    closes_of_mem_none (compared_calledTokens good)
  rwa [phrase'.unique phrase'']

end Expr

end FilterSql.Filter
