import FilterSql.Filter.Token
import FilterSql.Proofs.Text

/-!
# Tokens and their text

A text is cut into tokens in one way, and nothing of it is lost: it is the source of its tokens, with
the blanks after them. The other way round, the source of some tokens is cut into these tokens if each
of them is read where it stands. What is read depends on the token and on one character after it; a
blank, a parenthesis or a comma ends every token.

## Main statements

* `Lexeme.tokenAt_eq`: a word of the language is read, unless the next character goes on with it.
* `spacedScan_eq_ok_iff`: the texts that are cut into given tokens.
-/

namespace FilterSql.Filter

open Text

/-! ## The end of a token -/

/-- A blank, a parenthesis or a comma: whatever token comes before it ends there. -/
def endsToken (c : Char) : Bool := isBlank c || c == '(' || c == ')' || c == ','

theorem forall_endsToken {P : Char → Prop} (blank : ∀ n ∈ blankCodes, P (Char.ofNat n))
    (opens : P '(') (closes : P ')') (comma : P ',') {c : Char} (h : endsToken c = true) : P c := by
  simp only [endsToken, Bool.or_eq_true, beq_iff_eq] at h
  rcases h with ((h | rfl) | rfl) | rfl
  · exact forall_isBlank blank h
  · exact opens
  · exact closes
  · exact comma

/-- The tables of letters and numbers hold no blank. -/
theorem isLetterOrNumber_of_isBlank {c : Char} (h : isBlank c = true) :
    isLetterOrNumber c = false :=
  forall_isBlank (P := fun c => isLetterOrNumber c = false) (by decide +kernel) h

theorem isWordStart_of_isBlank {c : Char} (h : isBlank c = true) : isWordStart c = false := by
  have noLetter := (Bool.or_eq_false_iff.1 (isLetterOrNumber_of_isBlank h)).1
  have mark : c ≠ '_' := forall_isBlank (P := (· ≠ '_')) (by decide) h
  simp [isWordStart, noLetter, mark]

theorem isWordChar_of_endsToken {c : Char} (h : endsToken c = true) : isWordChar c = false := by
  simp only [endsToken, Bool.or_eq_true, beq_iff_eq] at h
  rcases h with ((blank | rfl) | rfl) | rfl
  · have marks : c ≠ '_' ∧ c ≠ '/' :=
      forall_isBlank (P := fun c => c ≠ '_' ∧ c ≠ '/') (by decide) blank
    simp [isWordChar, isLetterOrNumber_of_isBlank blank, marks]
  · decide
  · decide
  · decide

theorem isNumberChar_of_endsToken {c : Char} (h : endsToken c = true) : isNumberChar c = false :=
  forall_endsToken (P := fun c => isNumberChar c = false) (by decide +kernel) (by decide) (by decide)
    (by decide) h

theorem ne_quote_of_endsToken {c : Char} (h : endsToken c = true) : c ≠ '\'' :=
  forall_endsToken (P := fun c => c ≠ '\'') (by decide +kernel) (by decide) (by decide) (by decide) h

/-- The text `rest'` starts like `rest`, or with the end of a token, or it is empty. -/
def StartsLike (rest rest' : List Char) : Prop :=
  ∀ d ∈ rest'.head?, rest.head? = some d ∨ endsToken d = true

/-- The text is empty or starts with the end of a token. -/
def Apart (rest : List Char) : Prop := ∀ d ∈ rest.head?, endsToken d = true

theorem apart_nil : Apart [] := nofun

theorem apart_cons {c : Char} {cs : List Char} (h : endsToken c = true) : Apart (c :: cs) := by
  intro d head
  cases head
  exact h

theorem StartsLike.stop {rest rest' : List Char} (h : StartsLike rest rest') {p : Char → Bool}
    (ends : ∀ c, endsToken c = true → p c = false) (stop : ∀ d ∈ rest.head?, p d = false) :
    ∀ d ∈ rest'.head?, p d = false := by
  intro d head
  rcases h d head with same | isEnd
  · exact stop d same
  · exact ends d isEnd

/-! ## Quoted texts -/

/-- The text with its single quotes written twice. -/
def doubled : List Char → List Char
  | [] => []
  | c :: cs => if c = '\'' then '\'' :: '\'' :: doubled cs else c :: doubled cs

theorem quotedLength?_doubled (s : List Char) {rest : List Char}
    (stop : ∀ d ∈ rest.head?, d ≠ '\'') :
    quotedLength? (doubled s ++ '\'' :: rest) = some ((doubled s).length + 1) := by
  induction s with
  | nil =>
    cases rest with
    | nil => rfl
    | cons d rest => simp [doubled, quotedLength?, stop d rfl]
  | cons c s ih =>
    by_cases quote : c = '\''
    · simp [doubled, quote, quotedLength?, ih]
    · -- the next character is that of the rest or the closing quote
      obtain ⟨d, ds, eq⟩ : ∃ d ds, doubled s ++ '\'' :: rest = d :: ds :=
        List.exists_cons_of_ne_nil (by simp)
      rw [eq] at ih
      simp [doubled, quote, quotedLength?, eq, ih]

/-- A quoted text goes on to the first quote that is not doubled. -/
theorem exists_doubled_of_quotedLength? {cs : List Char} {n : Nat} (h : quotedLength? cs = some n) :
    ∃ s rest, cs = doubled s ++ '\'' :: rest ∧ n = (doubled s).length + 1 ∧
      ∀ d ∈ rest.head?, d ≠ '\'' := by
  fun_induction quotedLength? cs generalizing n with
  | case1 => cases h
  | case2 c quote =>
    cases h
    obtain rfl : c = '\'' := by simpa using quote
    exact ⟨[], [], rfl, rfl, nofun⟩
  | case3 => cases h
  | case4 c d cs quote quote' ih =>
    obtain ⟨m, inner, rfl⟩ := Option.map_eq_some_iff.1 h
    obtain ⟨s, rest, rfl, rfl, stop⟩ := ih inner
    obtain rfl : c = '\'' := by simpa using quote
    obtain rfl : d = '\'' := by simpa using quote'
    exact ⟨'\'' :: s, rest, by simp [doubled], by simp [doubled], stop⟩
  | case5 c d cs quote noQuote =>
    cases h
    obtain rfl : c = '\'' := by simpa using quote
    exact ⟨[], d :: cs, rfl, rfl, fun e head => by cases head; simpa using noQuote⟩
  | case6 c d cs noQuote ih =>
    obtain ⟨m, inner, rfl⟩ := Option.map_eq_some_iff.1 h
    obtain ⟨s, rest, eq, rfl, stop⟩ := ih inner
    have plain : c ≠ '\'' := by simpa using noQuote
    exact ⟨c :: s, rest, by simp [doubled, plain, eq], by simp [doubled, plain], stop⟩

/-! ## The words of the language -/

/-- The name in front of the quotes of a spatial literal. -/
def isSpatialName (cs : List Char) : Bool :=
  sameName (String.ofList cs) "geography" || sameName (String.ofList cs) "geometry"

/-- A digit, or a sign in front of one, with more characters of a number. -/
def IsNumberText (c : Char) (run : List Char) : Prop :=
  startsNumber c run = true ∧ (∀ d ∈ run, isNumberChar d = true) ∧
    Literal.isLiteral (String.ofList (c :: run)) = true

/-- A letter or an underscore with more characters of a word. -/
def IsWordText (c : Char) (run : List Char) : Prop :=
  isWordStart c = true ∧ ∀ d ∈ run, isWordChar d = true

/-- The texts of tokens, each with the characters that would go on with the token. -/
inductive Lexeme : TokenKind → List Char → (Char → Bool) → Prop
  | openParen : Lexeme .openParen ['('] fun _ => false
  | closeParen : Lexeme .closeParen [')'] fun _ => false
  | comma : Lexeme .comma [','] fun _ => false
  | quoted (s : List Char) : Lexeme .literal ('\'' :: (doubled s ++ ['\''])) (· == '\'')
  | number {c : Char} {run : List Char} : IsNumberText c run →
    Lexeme .literal (c :: run) isNumberChar
  | word {c : Char} {run : List Char} : IsWordText c run → isSpatialName (c :: run) = false →
    Lexeme .word (c :: run) isWordChar
  | spatialName {c : Char} {run : List Char} : IsWordText c run → isSpatialName (c :: run) = true →
    Lexeme .word (c :: run) fun d => isWordChar d || d == '\''
  | spatial {c : Char} {run : List Char} (s : List Char) : IsWordText c run →
    isSpatialName (c :: run) = true →
    Lexeme .literal (c :: (run ++ '\'' :: (doubled s ++ ['\'']))) (· == '\'')

theorem IsWordText.exists_lexeme {c : Char} {run : List Char} (h : IsWordText c run) :
    ∃ continues, Lexeme .word (c :: run) continues := by
  cases spatial : isSpatialName (c :: run) with
  | false => exact ⟨_, .word h spatial⟩
  | true => exact ⟨_, .spatialName h spatial⟩

theorem Lexeme.continues_eq_false {kind : TokenKind} {cs : List Char} {continues : Char → Bool}
    (h : Lexeme kind cs continues) {d : Char} (isEnd : endsToken d = true) :
    continues d = false := by
  have word := isWordChar_of_endsToken isEnd
  have quote := ne_quote_of_endsToken isEnd
  cases h with
  | openParen | closeParen | comma => rfl
  | quoted | spatial => simpa using quote
  | number => exact isNumberChar_of_endsToken isEnd
  | word => exact word
  | spatialName => simpa [word] using quote

theorem IsWordText.not_startsNumber {c : Char} {run : List Char} (h : IsWordText c run)
    (rest : List Char) : startsNumber c rest = false := by
  have digit : c.isDigit = false := by
    rw [Bool.eq_false_iff]
    intro isDigit
    have notStart := forall_isDigit (P := fun c => isWordStart c = false) (by decide) isDigit
    rw [h.1] at notStart
    cases notStart
  have minus : c ≠ '-' := by
    rintro rfl
    exact absurd h.1 (by decide)
  have plus : c ≠ '+' := by
    rintro rfl
    exact absurd h.1 (by decide)
  simp [startsNumber, digit, minus, plus]

theorem quotedToken_eq_ok {before : Nat} {cs : List Char} {kind : TokenKind} {n : Nat}
    (h : quotedToken before cs = .ok (kind, n)) :
    ∃ s rest, kind = .literal ∧ cs = doubled s ++ '\'' :: rest ∧
      n = before + ((doubled s).length + 1) ∧ ∀ d ∈ rest.head?, d ≠ '\'' := by
  unfold quotedToken at h
  split at h
  · next m found =>
    cases h
    obtain ⟨s, rest, rfl, rfl, stop⟩ := exists_doubled_of_quotedLength? found
    exact ⟨s, rest, rfl, rfl, rfl, stop⟩
  · cases h

/-- Whether a number starts here shows in the run that it would be. -/
theorem startsNumber_takeWhile {c : Char} {cs : List Char} (starts : startsNumber c cs = true) :
    startsNumber c (cs.takeWhile isNumberChar) = true := by
  cases cs with
  | nil => exact starts
  | cons d cs =>
    cases digit : d.isDigit with
    | true => simpa [startsNumber, isNumberChar, Char.isAlphanum, digit] using starts
    | false => simp_all [startsNumber]

/-- A token is one of the words of the language, and what comes after it does not go on with it. -/
theorem lexeme_of_tokenAt {c : Char} {cs : List Char} {kind : TokenKind} {n : Nat}
    (h : tokenAt c cs = .ok (kind, n)) :
    ∃ tail rest continues, cs = tail ++ rest ∧ n = tail.length ∧ Lexeme kind (c :: tail) continues ∧
      ∀ d ∈ rest.head?, continues d = false := by
  unfold tokenAt at h
  split at h
  · next isOpen =>
    cases h
    obtain rfl : c = '(' := by simpa using isOpen
    exact ⟨[], cs, _, rfl, rfl, .openParen, fun _ _ => rfl⟩
  split at h
  · next isClose =>
    cases h
    obtain rfl : c = ')' := by simpa using isClose
    exact ⟨[], cs, _, rfl, rfl, .closeParen, fun _ _ => rfl⟩
  split at h
  · next isComma =>
    cases h
    obtain rfl : c = ',' := by simpa using isComma
    exact ⟨[], cs, _, rfl, rfl, .comma, fun _ _ => rfl⟩
  split at h
  · next isQuote =>
    obtain rfl : c = '\'' := by simpa using isQuote
    obtain ⟨s, rest, rfl, rfl, rfl, stop⟩ := quotedToken_eq_ok h
    exact ⟨doubled s ++ ['\''], rest, _, by simp, by simp, .quoted s, by simpa using stop⟩
  split at h
  · next starts =>
    dsimp only at h
    split at h
    · next isLiteral =>
      cases h
      refine ⟨cs.takeWhile isNumberChar, cs.dropWhile isNumberChar, _,
        List.takeWhile_append_dropWhile.symm, rfl, .number ⟨?_, ?_, isLiteral⟩, ?_⟩
      · exact startsNumber_takeWhile starts
      · exact fun d member => List.all_eq_true.1 List.all_takeWhile d member
      · exact stop_of_dropWhile
    · cases h
  split at h
  · next starts =>
    have word : IsWordText c (cs.takeWhile isWordChar) :=
      ⟨starts, fun d member => List.all_eq_true.1 List.all_takeWhile d member⟩
    have parts : cs = cs.takeWhile isWordChar ++ cs.dropWhile isWordChar :=
      List.takeWhile_append_dropWhile.symm
    have stop : ∀ d ∈ (cs.dropWhile isWordChar).head?, isWordChar d = false := stop_of_dropWhile
    dsimp only at h
    split at h
    · next after eq =>
      split at h
      · next spatial =>
        obtain ⟨s, rest, rfl, rfl, rfl, noQuote⟩ := quotedToken_eq_ok h
        refine ⟨cs.takeWhile isWordChar ++ '\'' :: (doubled s ++ ['\'']), rest, _, ?_, ?_,
          .spatial s word spatial, by simpa using noQuote⟩
        · rw [eq] at parts
          simpa using parts
        · simp
          omega
      · next plain =>
        cases h
        exact ⟨_, _, _, parts, rfl, .word word (by simpa [isSpatialName] using plain), stop⟩
    · next noQuote =>
      cases h
      cases spatial : isSpatialName (c :: cs.takeWhile isWordChar) with
      | false => exact ⟨_, _, _, parts, rfl, .word word spatial, stop⟩
      | true =>
        refine ⟨_, _, _, parts, rfl, .spatialName word spatial, fun d head => ?_⟩
        have notQuote : d ≠ '\'' := by
          rintro rfl
          obtain ⟨after, eq⟩ := List.head?_eq_some_iff.1 head
          exact noQuote after eq
        simpa [stop d head] using notQuote
  · cases h

theorem ne_mark {p : Char → Bool} {c : Char} (holds : p c = true)
    (marks : ['(', ')', ',', '\''].any p = false) :
    c ≠ '(' ∧ c ≠ ')' ∧ c ≠ ',' ∧ c ≠ '\'' := by
  have ne : ∀ d ∈ ['(', ')', ',', '\''], c ≠ d := by
    rintro d member rfl
    exact List.any_eq_false.1 marks c member holds
  exact ⟨ne _ (by simp), ne _ (by simp), ne _ (by simp), ne _ (by simp)⟩

theorem quotedToken_doubled (before : Nat) (s : List Char) {rest : List Char}
    (stop : ∀ d ∈ rest.head?, d ≠ '\'') :
    quotedToken before (doubled s ++ '\'' :: rest) =
      .ok (.literal, before + ((doubled s).length + 1)) := by
  simp only [quotedToken, quotedLength?_doubled s stop]

theorem IsWordText.ne_mark {c : Char} {run : List Char} (text : IsWordText c run) :
    c ≠ '(' ∧ c ≠ ')' ∧ c ≠ ',' ∧ c ≠ '\'' :=
  Filter.ne_mark text.1 (by decide)

theorem tokenAt_word {c : Char} {run rest : List Char} (text : IsWordText c run)
    (stop : ∀ d ∈ rest.head?, isWordChar d = false)
    (plain : isSpatialName (c :: run) = true → ∀ d ∈ rest.head?, d ≠ '\'') :
    tokenAt c (run ++ rest) = .ok (.word, run.length) := by
  obtain ⟨ne₁, ne₂, ne₃, ne₄⟩ := text.ne_mark
  have run' := takeWhile_append_eq_left text.2 stop
  have after := dropWhile_append_eq_right text.2 stop
  simp only [tokenAt, beq_iff_eq, ne₁, ne₂, ne₃, ne₄, text.not_startsNumber, text.1, run', after,
    if_false, if_true, Bool.false_eq_true]
  split
  · next after =>
    split
    · next spatial => exact absurd rfl (plain spatial '\'' rfl)
    · rfl
  · rfl

theorem tokenAt_spatial {c : Char} {run after : List Char} (text : IsWordText c run)
    (spatial : isSpatialName (c :: run) = true) :
    tokenAt c (run ++ '\'' :: after) = quotedToken (run.length + 1) after := by
  obtain ⟨ne₁, ne₂, ne₃, ne₄⟩ := text.ne_mark
  have quote : ∀ d ∈ ('\'' :: after).head?, isWordChar d = false := by
    intro d head
    cases head
    decide
  have run' := takeWhile_append_eq_left text.2 quote
  have after' := dropWhile_append_eq_right text.2 quote
  simp only [isSpatialName] at spatial
  simp only [tokenAt, beq_iff_eq, ne₁, ne₂, ne₃, ne₄, text.not_startsNumber, text.1, run', after',
    spatial, if_false, if_true, Bool.false_eq_true]

theorem tokenAt_number {c : Char} {run rest : List Char} (text : IsNumberText c run)
    (stop : ∀ d ∈ rest.head?, isNumberChar d = false) :
    tokenAt c (run ++ rest) = .ok (.literal, run.length) := by
  obtain ⟨starts, all, isLiteral⟩ := text
  obtain ⟨ne₁, ne₂, ne₃, ne₄⟩ :=
    Filter.ne_mark (p := (startsNumber · run)) starts (by simp [startsNumber])
  have starts' : startsNumber c (run ++ rest) = true := by
    cases run with
    | nil =>
      have digit : c.isDigit = true := by simpa [startsNumber] using starts
      simp [startsNumber, digit]
    | cons d run => exact starts
  have run' := takeWhile_append_eq_left all stop
  simp only [tokenAt, beq_iff_eq, ne₁, ne₂, ne₃, ne₄, starts', run', isLiteral, if_false, if_true]

/-- A word of the language is read, if what comes after it does not go on with it. -/
theorem Lexeme.tokenAt_eq {kind : TokenKind} {c : Char} {tail rest : List Char}
    {continues : Char → Bool} (h : Lexeme kind (c :: tail) continues)
    (stop : ∀ d ∈ rest.head?, continues d = false) :
    tokenAt c (tail ++ rest) = .ok (kind, tail.length) := by
  cases h with
  | openParen | closeParen | comma => rfl
  | quoted s =>
    have read : quotedToken 0 (doubled s ++ '\'' :: rest) = _ :=
      quotedToken_doubled 0 s (by simpa using stop)
    simpa [tokenAt] using read
  | number text => exact tokenAt_number text stop
  | word text plain =>
    refine tokenAt_word text stop fun spatial => ?_
    rw [plain] at spatial
    cases spatial
  | spatialName text _ =>
    simp only [Bool.or_eq_false_iff, beq_eq_false_iff_ne] at stop
    exact tokenAt_word text (fun d head => (stop d head).1) fun _ d head => (stop d head).2
  | @spatial _ run s text spatial =>
    have read : quotedToken (run.length + 1) (doubled s ++ '\'' :: rest) = _ :=
      quotedToken_doubled (run.length + 1) s (by simpa using stop)
    have eq : run ++ '\'' :: (doubled s ++ ['\'']) ++ rest =
        run ++ '\'' :: (doubled s ++ '\'' :: rest) := by simp
    have length : (run ++ '\'' :: (doubled s ++ ['\''])).length =
        run.length + 1 + ((doubled s).length + 1) := by
      simp only [List.length_append, List.length_cons, List.length_nil]
      omega
    rw [eq, tokenAt_spatial text spatial, read, length]

theorem Lexeme.exists_cons {kind : TokenKind} {cs : List Char} {continues : Char → Bool}
    (h : Lexeme kind cs continues) : ∃ c tail, cs = c :: tail := by
  cases h <;> exact ⟨_, _, rfl⟩

/-- A closing parenthesis is a token by itself. -/
theorem Lexeme.continues_closeParen {cs : List Char} {continues : Char → Bool}
    (h : Lexeme .closeParen cs continues) (d : Char) : continues d = false := by
  cases h
  rfl

theorem Lexeme.isBlank_eq_false {kind : TokenKind} {c : Char} {tail : List Char}
    {continues : Char → Bool} (h : Lexeme kind (c :: tail) continues) : isBlank c = false := by
  rw [Bool.eq_false_iff]
  intro blank
  have number : ∀ run, startsNumber c run = false := fun run =>
    forall_isBlank (P := fun c => startsNumber c run = false)
      (by simp [blankCodes, startsNumber]) blank
  have word : isWordStart c = false := isWordStart_of_isBlank blank
  cases h with
  | openParen | closeParen | comma | quoted => cases blank
  | number text => simp [IsNumberText, number] at text
  | word text | spatialName text | spatial _ text => simp [IsWordText, word] at text

/-! ## Runs of tokens -/

/-- The blanks in front of a token. -/
abbrev Gap := String

namespace Token

/-- The text that a run of tokens was read from, with the blanks in front of it. -/
def sourceOf (ts : List (Token Gap)) : String :=
  "".intercalate (ts.map fun t => t.place ++ t.text)

theorem toList_sourceOf (ts : List (Token Gap)) :
    (sourceOf ts).toList = ts.flatMap fun t => t.place.toList ++ t.text.toList := by
  induction ts with
  | nil => rfl
  | cons t ts ih =>
    simp only [sourceOf, String.toList_intercalate, List.map_cons] at ih ⊢
    cases ts with
    | nil => simp [List.intercalate]
    | cons u us => simpa [List.intercalate_cons_cons] using ih

@[simp] theorem sourceOf_nil : sourceOf [] = "" := rfl

theorem toList_sourceOf_cons (t : Token Gap) (ts : List (Token Gap)) :
    (sourceOf (t :: ts)).toList = t.place.toList ++ (t.text.toList ++ (sourceOf ts).toList) := by
  simp [toList_sourceOf]

theorem toList_sourceOf_append (ts us : List (Token Gap)) :
    (sourceOf (ts ++ us)).toList = (sourceOf ts).toList ++ (sourceOf us).toList := by
  simp [toList_sourceOf]

theorem sourceOf_cons (t : Token Gap) (ts : List (Token Gap)) :
    sourceOf (t :: ts) = t.place ++ t.text ++ sourceOf ts := by
  simp [← String.toList_inj, toList_sourceOf_cons]

theorem sourceOf_append (ts us : List (Token Gap)) :
    sourceOf (ts ++ us) = sourceOf ts ++ sourceOf us := by
  simp [← String.toList_inj, toList_sourceOf_append]

/-- The token is read where it stands, if `rest` comes after it. -/
structure StandsBefore (t : Token Gap) (rest : List Char) : Prop where
  gap : ∀ c ∈ t.place.toList, isBlank c = true
  lexeme : ∃ continues, Lexeme t.kind t.text.toList continues ∧
    ∀ d ∈ rest.head?, continues d = false

end Token

/-- Each of the tokens is read where it stands, if `rest` comes after the last one. -/
def StandBefore : List (Token Gap) → List Char → Prop
  | [], _ => True
  | t :: ts, rest => t.StandsBefore ((Token.sourceOf ts).toList ++ rest) ∧ StandBefore ts rest

/-- The text of a run starts with its first token. -/
instance : Place Gap where
  textOf
    | [] => ""
    | t :: ts => t.text ++ Token.sourceOf ts

@[simp]
theorem textOf_cons (t : Token Gap) (ts : List (Token Gap)) :
    Place.textOf (t :: ts) = t.text ++ Token.sourceOf ts :=
  rfl

/-- The tokens of a text, each with the blanks in front of it, and the blanks after the last one. -/
def spacedScan (cs : List Char) : Except SyntaxError (List (Token Gap) × String) :=
  let gap := String.ofList (cs.takeWhile isBlank)
  match _rest : cs.dropWhile isBlank with
  | [] => .ok ([], gap)
  | c :: rest =>
    match tokenAt c rest with
    | .error e => .error e
    | .ok (kind, n) =>
      match spacedScan (rest.drop n) with
      | .error e => .error e
      | .ok (ts, blanks) => .ok (⟨gap, kind, String.ofList (c :: rest.take n)⟩ :: ts, blanks)
termination_by cs.length
decreasing_by
  have := (List.dropWhile_suffix (l := cs) isBlank).length_le
  rw [_rest] at this
  simp only [List.length_cons, List.length_drop] at *
  omega

/-- The tokens of a text, each with the blanks in front of it. -/
def spacedTokens (text : String) : Except SyntaxError (List (Token Gap)) :=
  (spacedScan text.toList).map (·.1)

theorem exists_scan_of_spacedTokens {text : String} {ts : List (Token Gap)}
    (h : spacedTokens text = .ok ts) : ∃ blanks, spacedScan text.toList = .ok (ts, blanks) := by
  unfold spacedTokens at h
  rcases scanned : spacedScan text.toList with err | ⟨ts', blanks⟩
  · rw [scanned] at h
    cases h
  · rw [scanned] at h
    cases h
    exact ⟨blanks, rfl⟩

theorem spacedScan_blank {cs : List Char} (blank : ∀ c ∈ cs, isBlank c = true) :
    spacedScan cs = .ok ([], String.ofList cs) := by
  have stop : ∀ d ∈ ([] : List Char).head?, isBlank d = false := nofun
  have drop : cs.dropWhile isBlank = [] := by simpa using dropWhile_append_eq_right blank stop
  have take : cs.takeWhile isBlank = cs := by simpa using takeWhile_append_eq_left blank stop
  rw [spacedScan]
  split
  · rw [take]
  · next eq => simp [drop] at eq

theorem spacedScan_token {gap cs : List Char} {c : Char} {kind : TokenKind} {n : Nat}
    (blank : ∀ d ∈ gap, isBlank d = true) (notBlank : isBlank c = false)
    (read : tokenAt c cs = .ok (kind, n)) :
    spacedScan (gap ++ c :: cs) = (spacedScan (cs.drop n)).map fun r =>
      (⟨String.ofList gap, kind, String.ofList (c :: cs.take n)⟩ :: r.1, r.2) := by
  have stop : ∀ d ∈ (c :: cs).head?, isBlank d = false := by
    intro d head
    cases head
    exact notBlank
  have take := takeWhile_append_eq_left blank stop
  have drop := dropWhile_append_eq_right blank stop
  rw [spacedScan, take]
  split
  · next eq => simp [drop] at eq
  · next c' cs' eq =>
    rw [drop] at eq
    cases eq
    rw [read]
    dsimp only
    cases spacedScan (cs.drop n) <;> rfl

theorem spacedScan_error {gap cs : List Char} {c : Char} {e : SyntaxError}
    (blank : ∀ d ∈ gap, isBlank d = true) (notBlank : isBlank c = false)
    (read : tokenAt c cs = .error e) : spacedScan (gap ++ c :: cs) = .error e := by
  have stop : ∀ d ∈ (c :: cs).head?, isBlank d = false := by
    intro d head
    cases head
    exact notBlank
  have drop := dropWhile_append_eq_right blank stop
  rw [spacedScan]
  split
  · next eq => simp [drop] at eq
  · next c' cs' eq =>
    rw [drop] at eq
    cases eq
    rw [read]

/-- Induction over the tokens of a text: blanks, then its end, or something that is no token, or a token
with the rest of the text after it. -/
theorem token_induction {P : List Char → Prop}
    (done : ∀ gap, (∀ d ∈ gap, isBlank d = true) → P gap)
    (stray : ∀ gap c cs e, (∀ d ∈ gap, isBlank d = true) → isBlank c = false →
      tokenAt c cs = .error e → P (gap ++ c :: cs))
    (token : ∀ gap c tail rest kind, (∀ d ∈ gap, isBlank d = true) → isBlank c = false →
      tokenAt c (tail ++ rest) = .ok (kind, tail.length) → P rest → P (gap ++ c :: (tail ++ rest)))
    (cs : List Char) : P cs := by
  -- a token takes its first character at least, so the rest after it is shorter
  induction length : cs.length using Nat.strongRecOn generalizing cs with
  | _ n ih =>
    obtain ⟨gap, after, rfl, blank, stop⟩ := exists_takeWhile isBlank cs
    cases after with
    | nil =>
      rw [List.append_nil]
      exact done gap blank
    | cons c cs =>
      rcases read : tokenAt c cs with e | ⟨kind, n⟩
      · exact stray gap c cs e blank (stop c rfl) read
      · obtain ⟨tail, rest, -, rfl, rfl, -⟩ := lexeme_of_tokenAt read
        simp only [List.length_append, List.length_cons] at length
        exact token gap c tail rest kind blank (stop c rfl) read (ih rest.length (by omega) rest rfl)

theorem Token.StandsBefore.scan_eq {t : Token Gap} {rest : List Char} (h : t.StandsBefore rest) :
    spacedScan (t.place.toList ++ (t.text.toList ++ rest)) =
      (spacedScan rest).map fun r => (t :: r.1, r.2) := by
  obtain ⟨gapBlank, continues, lexeme, stop⟩ := h
  obtain ⟨c, tail, eq⟩ := lexeme.exists_cons
  rw [eq] at lexeme
  rw [eq, List.cons_append, spacedScan_token gapBlank lexeme.isBlank_eq_false (lexeme.tokenAt_eq stop),
    List.drop_left, List.take_left, ← eq, String.ofList_toList, String.ofList_toList]

theorem spacedScan_of_standBefore {ts : List (Token Gap)} {rest : List Char}
    (h : StandBefore ts rest) (blank : ∀ c ∈ rest, isBlank c = true) :
    spacedScan ((Token.sourceOf ts).toList ++ rest) = .ok (ts, String.ofList rest) := by
  induction ts with
  | nil => exact spacedScan_blank blank
  | cons t ts ih =>
    obtain ⟨stands, others⟩ := h
    rw [Token.toList_sourceOf_cons, List.append_assoc, List.append_assoc, stands.scan_eq, ih others]
    rfl

theorem standBefore_of_spacedScan {cs : List Char} {ts : List (Token Gap)} {blanks : String}
    (h : spacedScan cs = .ok (ts, blanks)) :
    cs = (Token.sourceOf ts).toList ++ blanks.toList ∧ StandBefore ts blanks.toList ∧
      ∀ c ∈ blanks.toList, isBlank c = true := by
  fun_induction spacedScan cs generalizing ts blanks with
  | case1 cs gap =>
    have nothing : cs.dropWhile isBlank = [] := by assumption
    have whole : cs.takeWhile isBlank = cs := by
      have parts := List.takeWhile_append_dropWhile (p := isBlank) (l := cs)
      rwa [nothing, List.append_nil] at parts
    cases h
    refine ⟨by simp [gap, whole], trivial, fun c member => ?_⟩
    rw [String.toList_ofList] at member
    exact List.all_eq_true.1 List.all_takeWhile c member
  | case2 => cases h
  | case3 => cases h
  | case4 cs gap c rest first kind n read ts' blanks' scanned =>
    rename_i ih
    have parts := List.takeWhile_append_dropWhile (p := isBlank) (l := cs)
    cases h
    obtain ⟨source, stand, blank⟩ := ih scanned
    obtain ⟨tail, rest', continues, rfl, rfl, lexeme, stop⟩ := lexeme_of_tokenAt read
    rw [List.drop_left] at source
    subst source
    refine ⟨?_, ⟨⟨fun d member => ?_, continues, ?_, stop⟩, stand⟩, blank⟩
    · rw [← parts, first]
      simp [gap, Token.toList_sourceOf]
    · simp only [gap, String.toList_ofList] at member
      exact List.all_eq_true.1 List.all_takeWhile d member
    · simpa using lexeme

/-- The texts that are cut into the given tokens, with blanks at the end. -/
theorem spacedScan_eq_ok_iff {cs : List Char} {ts : List (Token Gap)} {blanks : String} :
    spacedScan cs = .ok (ts, blanks) ↔
      cs = (Token.sourceOf ts).toList ++ blanks.toList ∧ StandBefore ts blanks.toList ∧
        ∀ c ∈ blanks.toList, isBlank c = true := by
  constructor
  · exact standBefore_of_spacedScan
  · rintro ⟨rfl, stand, blank⟩
    rw [spacedScan_of_standBefore stand blank, String.ofList_toList]

/-! ## Parts of a run -/

theorem standBefore_append {ts us : List (Token Gap)} {rest : List Char} :
    StandBefore (ts ++ us) rest ↔
      StandBefore ts ((Token.sourceOf us).toList ++ rest) ∧ StandBefore us rest := by
  induction ts with
  | nil => simp [StandBefore]
  | cons t ts ih =>
    have source : (Token.sourceOf (ts ++ us)).toList ++ rest =
        (Token.sourceOf ts).toList ++ ((Token.sourceOf us).toList ++ rest) := by
      simp [Token.toList_sourceOf]
    simp only [List.cons_append, StandBefore, ih, source, and_assoc]

theorem Token.StandsBefore.of_startsLike {t : Token Gap} {rest rest' : List Char}
    (h : t.StandsBefore rest) (follows : StartsLike rest rest') : t.StandsBefore rest' := by
  obtain ⟨gap, continues, lexeme, stop⟩ := h
  exact ⟨gap, continues, lexeme,
    follows.stop (fun c isEnd => lexeme.continues_eq_false isEnd) stop⟩

end FilterSql.Filter
