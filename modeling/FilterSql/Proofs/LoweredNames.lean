import FilterSql.Proofs.PlacedTokens
import FilterSql.Proofs.RecasedTokens

/-!
# Filters with function names in small letters

Lower-casing the names of known functions keeps the meaning of a filter: it can be read exactly if the
filter can, and the trees differ in the case of function names only.

In a filter that can be read every literal is followed by a token that closes it. So no name goes on
after a number, and every token is lower-cased by itself.

## Main statements

* `Expr.parse_lowerFunctionNames`: what a filter is read as, before and after.
-/

namespace FilterSql.Filter

open FilterSql.Parser (Separated separated_cons_iff separated_single_iff)
open Text

variable {known : List String}

/-! ## The leading name -/

theorem dropName?_eq_none_congr {name cs cs' : List Char}
    (same : cs.map Char.toLower = cs'.map Char.toLower) (h : dropName? name cs = none) :
    dropName? name cs' = none := by
  have folded := dropName?_map_toLower name cs
  rw [same, dropName?_map_toLower, h, Option.map_none, Option.map_eq_none_iff] at folded
  exact folded

theorem lowerCalls_filterName {name : List Char}
    (isName : name.map Char.toLower = '$' :: ("filter".toList ++ ['='])) (body : List Char) :
    lowerCalls known false (name ++ body) = name ++ lowerCalls known false body := by
  obtain ⟨c, _, rfl, dollar, isName⟩ := List.map_eq_cons_iff.1 isName
  obtain ⟨word, _, rfl, isWord, isName⟩ := List.map_eq_append_iff.1 isName
  obtain ⟨d, _, rfl, equals, isName⟩ := List.map_eq_cons_iff.1 isName
  obtain rfl := List.map_eq_nil_iff.1 isName
  obtain rfl : c = '$' := (toLower_eq_iff (ignoresCase_of_capitals (by decide))).1 dollar
  obtain rfl : d = '=' := (toLower_eq_iff (ignoresCase_of_capitals (by decide))).1 equals
  have inside : ∀ c ∈ word, endsToken c = false ∧ c ≠ '\'' := by
    have small : "filter".toList.map Char.toLower = word.map Char.toLower := by
      rw [isWord]
      decide
    have ignores : IgnoresCase fun c => !endsToken c && c != '\'' :=
      ignoresCase_of_capitals (by decide +kernel)
    have filter : ∀ c ∈ "filter".toList, (!endsToken c && c != '\'') = true :=
      List.all_eq_true.1 (by decide +kernel)
    have all := forall_mem_of_map_toLower ignores small filter
    simpa using all
  have stop : ∀ d ∈ ('=' :: body).head?, isNameChar d = false := by
    intro d head
    cases head
    decide
  have parts : '$' :: (word ++ ['=']) ++ body = '$' :: (word ++ '=' :: body) := by simp
  rw [parts, lowerCalls_cons (by decide) (by decide),
    lowerCalls_run_of_not_opensCall inside stop (opensCall_cons (by decide) body),
    lowerCalls_cons (by decide) (by decide)]
  simp

/-- The leading name is dropped before or after lower-casing, if lower-casing neither puts a blank
first nor makes such a name. -/
theorem dropFilterName_of_lowerCalls {text : String}
    (first : ∀ d ∈ (lowerCalls known false (dropBlanks text.toList)).head?, isBlank d = false)
    (other : dropName? "$filter=".toList (dropBlanks text.toList) = none →
      dropName? "$filter=".toList (lowerCalls known false (dropBlanks text.toList)) = none) :
    dropFilterName (lowerFunctionNames known text) = lowerFunctionNames known (dropFilterName text) := by
  obtain ⟨blanks, body, eq, blank, stop⟩ := exists_takeWhile isBlank text.toList
  have start : dropBlanks text.toList = body := by
    rw [eq, dropBlanks, dropWhile_append_eq_right blank stop]
  rw [start] at first other
  have start' : dropBlanks (lowerFunctionNames known text).toList = lowerCalls known false body := by
    rw [lowerFunctionNames, String.toList_ofList, eq, lowerCalls_blanks blank, dropBlanks,
      dropWhile_append_eq_right blank first]
  have dropped : (dropName? "$filter=".toList (lowerCalls known false body)).getD
      (lowerCalls known false body) =
        lowerCalls known false ((dropName? "$filter=".toList body).getD body) := by
    cases found : dropName? "$filter=".toList body with
    | none => rw [other found, Option.getD_none, Option.getD_none]
    | some rest =>
      obtain ⟨name, rfl, isName⟩ := dropName?_eq_some found
      rw [lowerCalls_filterName (isName.trans (by decide)), dropName?_append isName,
        Option.getD_some, Option.getD_some]
  rw [dropFilterName, start', dropped, dropFilterName, start, lowerFunctionNames]
  simp only [String.toList_ofList]

theorem dropFilterName_lowerFunctionNames (ascii : ∀ name ∈ known, isAscii name = true)
    (text : String) : dropFilterName (lowerFunctionNames known text) =
      lowerFunctionNames known (dropFilterName text) := by
  have recased := recased_lowerCalls ascii (dropBlanks text.toList)
  exact dropFilterName_of_lowerCalls (recased.stop ignoresCase_isBlank stop_of_dropWhile)
    (dropName?_eq_none_congr recased.map_toLower)

/-! ## Tokens with those that follow them -/

/-- `P` holds of each token of the run with the token after it, which for the last one is `next`. -/
def Followed (P : Token Gap → Option (Token Gap) → Prop) (next : Option (Token Gap)) : List
    (Token Gap) → Prop
  | [] => True
  | t :: ts => P t (ts.head?.or next) ∧ Followed P next ts

/-- What holds of the tokens of a phrase with those that follow them, if `Q` holds of the names of
calls. -/
structure PhraseRules (P : Token Gap → Option (Token Gap) → Prop) (Q : String → Prop) : Prop where
  operand : ∀ {t next}, t.kind = .word ∨ t.kind = .literal → (∀ u ∈ next, u.Closes) → P t next
  name : ∀ {t p}, t.kind = .word → p.kind = .openParen → Q t.text → P t (some p)
  keyword : ∀ {t next word}, word ∈ keywords → t.isKeyword word = true → P t next
  mark : ∀ {t next}, t.kind ≠ .word → t.kind ≠ .literal → P t next

section Followed

variable {P : Token Gap → Option (Token Gap) → Prop} {Q : String → Prop} {next : Option (Token Gap)}

theorem followed_append {us vs : List (Token Gap)} :
    Followed P next (us ++ vs) ↔ Followed P (vs.head?.or next) us ∧ Followed P next vs := by
  induction us with
  | nil => simp [Followed]
  | cons u us ih =>
    rw [List.cons_append, Followed, Followed, ih, List.head?_append, Option.or_assoc, and_assoc]

theorem PhraseRules.paren (h : PhraseRules P Q) {t : Token Gap} {ts : List (Token Gap)}
    (kind : t.kind = .openParen ∨ t.kind = .closeParen ∨ t.kind = .comma) (others : Followed P next ts) :
    Followed P next (t :: ts) := by
  refine ⟨h.mark ?_ ?_, others⟩ <;> rcases kind with kind | kind | kind <;> simp [kind]

theorem Separated.followed {α : Type} {item : List (Token Gap) → α → Prop} {a : α} {as : List α}
    {ts : List (Token Gap)} (h : PhraseRules P Q) (phrases : Separated isComma item ts (a, as))
    (each : ∀ b ∈ a :: as, ∀ us next, item us b → (∀ u ∈ next, u.Closes) → Followed P next us)
    (closed : ∀ u ∈ next, u.Closes) : Followed P next ts := by
  induction as generalizing a ts with
  | nil => exact each a (by simp) ts next (separated_single_iff.1 phrases) closed
  | cons b as ih =>
    obtain ⟨us, t, vs, rfl, phrase, comma, others⟩ := separated_cons_iff.1 phrases
    have kind : t.kind = .comma := by simpa [isComma] using comma
    refine followed_append.2 ⟨each a (by simp) us _ phrase ?_, h.paren (.inr (.inr kind)) ?_⟩
    · simpa using closes_of_isComma comma
    · exact ih others fun c member => each c (List.mem_cons_of_mem a member)

/-- The tokens of a phrase keep the rules. -/
theorem IsExpr.followed (h : PhraseRules P Q) {e : Expr} {ts : List (Token Gap)}
    (phrase : IsExpr ts e) (closed : ∀ u ∈ next, u.Closes)
    (names : ∀ name args raw, Expr.Subterm (.call name args raw) e → Q name) :
    Followed P next ts := by
  induction e generalizing ts next with
  | primary s =>
    obtain ⟨t, rfl, -, kind⟩ := isExpr_primary_iff.1 phrase
    exact ⟨h.operand (kind.imp_left (·.word)) closed, trivial⟩
  | call f args raw ih =>
    obtain ⟨t, p, us, q, rfl, isName, rfl, opens, closes, -, phrases⟩ := isExpr_call_iff.1 phrase
    have closed' : ∀ u ∈ [q].head?.or next, u.Closes := by simpa using .inl closes
    refine ⟨h.name isName.word opens (names _ _ _ .self), h.paren (.inl opens) ?_⟩
    refine followed_append.2 ⟨?_, h.paren (.inr (.inl closes)) trivial⟩
    rcases phrases with ⟨rfl, -⟩ | ⟨arg, others, rfl, phrases⟩
    · trivial
    · refine Separated.followed h phrases (fun e member us next phrase closed => ?_) closed'
      exact ih e member phrase closed fun name args raw sub => names name args raw (.argument member sub)
  | not e ih =>
    obtain ⟨t, us, rfl, isNot, inner, -⟩ := isExpr_not_iff.1 phrase
    exact ⟨h.keyword (by decide) isNot,
      ih inner closed fun name args raw sub => names name args raw (.negated sub)⟩
  | group e ih =>
    obtain ⟨p, us, q, rfl, opens, inner, closes⟩ := isExpr_group_iff.1 phrase
    have closed' : ∀ u ∈ [q].head?.or next, u.Closes := by simpa using .inl closes
    refine h.paren (.inl opens) (followed_append.2 ⟨?_, h.paren (.inr (.inl closes)) trivial⟩)
    exact ih inner closed' fun name args raw sub => names name args raw (.grouped sub)
  | comparison op l r ihl ihr =>
    obtain ⟨us, t, vs, rfl, member, isOp, ⟨left, -⟩, right, -⟩ := isExpr_comparison_iff.1 phrase
    have closed' : ∀ u ∈ (t :: vs).head?.or next, u.Closes := by
      simpa using closes_of_isKeyword isOp (List.mem_append_left _ member)
    exact followed_append.2
      ⟨ihl left closed' fun name args raw sub => names name args raw (.compareLeft sub),
        h.keyword (List.mem_append_left _ member) isOp,
        ihr right closed fun name args raw sub => names name args raw (.compareRight sub)⟩
  | logical op l r ihl ihr =>
    obtain ⟨us, t, vs, rfl, isOp, ⟨left, -⟩, right, -⟩ := isExpr_logical_iff.1 phrase
    have closed' : ∀ u ∈ (t :: vs).head?.or next, u.Closes := by
      simpa using closes_of_isKeyword isOp (by cases op <;> decide)
    exact followed_append.2
      ⟨ihl left closed' fun name args raw sub => names name args raw (.connectLeft sub),
        h.keyword (by cases op <;> decide) isOp,
        ihr right closed fun name args raw sub => names name args raw (.connectRight sub)⟩
  | inList l values ih =>
    obtain ⟨us, t, p, vs, q, value, others, rfl, ⟨left, -⟩, isIn, opens, closes, rfl, phrases⟩ :=
      isExpr_inList_iff.1 phrase
    have closedl : ∀ u ∈ (t :: p :: (vs ++ [q])).head?.or next, u.Closes := by
      simpa using closes_of_isKeyword isIn (by decide)
    have closed' : ∀ u ∈ [q].head?.or next, u.Closes := by simpa using .inl closes
    refine followed_append.2
      ⟨ih left closedl fun name args raw sub => names name args raw (.listed sub),
        h.keyword (by decide) isIn, h.paren (.inl opens) (followed_append.2
          ⟨Separated.followed h phrases (fun v _ us next phrase closed => ?_) closed',
            h.paren (.inr (.inl closes)) trivial⟩)⟩
    obtain ⟨t, rfl, -, kind⟩ := isListValue_iff.1 phrase
    exact ⟨h.operand kind closed, trivial⟩

end Followed

/-- Every literal of the run is followed by a token that closes it, or by nothing. -/
def Fenced : Option (Token Gap) → List (Token Gap) → Prop :=
  Followed fun t next => t.kind = .literal → ∀ u ∈ next, u.Closes

theorem phraseRules_fenced :
    PhraseRules (fun t next => t.kind = .literal → ∀ u ∈ next, u.Closes) fun _ => True where
  operand _ closed _ := closed
  name isWord _ _ := by simp [isWord]
  keyword _ isWord := by simp [Token.kind_of_isKeyword isWord]
  mark _ notLiteral isLiteral := absurd isLiteral notLiteral

theorem IsExpr.fenced {e : Expr} {ts : List (Token Gap)} {next : Option (Token Gap)}
    (phrase : IsExpr ts e) (closed : ∀ u ∈ next, u.Closes) : Fenced next ts :=
  phrase.followed phraseRules_fenced closed fun _ _ _ _ => trivial

/-! ## Token by token -/

theorem lowerCalls_word (ascii : ∀ name ∈ known, isAscii name = true) {c : Char}
    {run rest : List Char} (text : IsWordText c run)
    (stop : ∀ d ∈ rest.head?, isNameChar d = false) :
    ∃ cs', lowerCalls known false (c :: run ++ rest) = cs' ++ lowerCalls known false rest ∧
      cs'.length = (c :: run).length ∧
      ('/' ∉ c :: run → cs' = (loweredName known rest (String.ofList (c :: run))).toList) := by
  by_cases slash : '/' ∈ c :: run
  · obtain ⟨cs', eq, -, same⟩ := lowerCalls_run known text.inside stop
    exact ⟨cs', eq, by simpa using congrArg List.length (same ascii), fun no => absurd slash no⟩
  · have nameChars : ∀ d ∈ run, isNameChar d = true := by
      intro d member
      have notSlash : d ≠ '/' := by
        rintro rfl
        exact slash (List.mem_cons_of_mem c member)
      simpa [isWordChar, isNameChar, notSlash] using text.2 d member
    have same := sameName_loweredName ascii rest (String.ofList (c :: run))
    rw [sameName_iff, String.toList_ofList] at same
    exact ⟨_, lowerCalls_name text.1 nameChars stop, by simpa using congrArg List.length same.symm,
      fun _ => rfl⟩

theorem lowerCalls_spatial {c : Char} {run rest : List Char} (text : IsWordText c run) (s : List Char)
    (stop : ∀ d ∈ rest.head?, d ≠ '\'') :
    lowerCalls known false (c :: (run ++ '\'' :: (doubled s ++ ['\''])) ++ rest) =
      c :: (run ++ '\'' :: (doubled s ++ ['\''])) ++ lowerCalls known false rest := by
  have stop' : ∀ d ∈ ('\'' :: (doubled s ++ '\'' :: rest)).head?, isNameChar d = false := by
    intro d head
    cases head
    decide
  have name : lowerCalls known false (c :: run ++ '\'' :: (doubled s ++ '\'' :: rest)) = _ :=
    lowerCalls_run_of_not_opensCall text.inside stop' (opensCall_cons (by decide) _)
  rw [lowerCalls_literal known s stop] at name
  simpa using name

/-- A token is lower-cased by itself, if no name goes on after it. -/
theorem Lexeme.lowerCalls_eq (ascii : ∀ name ∈ known, isAscii name = true) {kind : TokenKind}
    {cs rest : List Char} {continues : Char → Bool} (lexeme : Lexeme kind cs continues)
    (stop : ∀ d ∈ rest.head?, continues d = false)
    (ends : kind = .literal → ∀ d ∈ rest.head?, isNumberChar d = false → isNameChar d = false) :
    ∃ cs', lowerCalls known false (cs ++ rest) = cs' ++ lowerCalls known false rest ∧
      cs'.length = cs.length ∧
      (kind = .word → '/' ∉ cs → cs' = (loweredName known rest (String.ofList cs)).toList) := by
  cases lexeme with
  | openParen => exact ⟨_, lowerCalls_cons (by decide) (by decide) rest, rfl, nofun⟩
  | closeParen => exact ⟨_, lowerCalls_cons (by decide) (by decide) rest, rfl, nofun⟩
  | comma => exact ⟨_, lowerCalls_cons (by decide) (by decide) rest, rfl, nofun⟩
  | quoted s =>
    have quoted := lowerCalls_literal known s (by simpa using stop)
    exact ⟨'\'' :: (doubled s ++ ['\'']), by simpa using quoted, rfl, nofun⟩
  | number text =>
    obtain ⟨cs', eq, -, same⟩ := lowerCalls_run known text.inside
      fun d head => ends rfl d head (stop d head)
    exact ⟨cs', eq, by simpa using congrArg List.length (same ascii), nofun⟩
  | word text plain =>
    obtain ⟨cs', eq, length, lowered⟩ := lowerCalls_word ascii text
      fun d head => isNameChar_of_not_isWordChar (stop d head)
    exact ⟨cs', eq, length, fun _ => lowered⟩
  | spatialName text spatial =>
    simp only [Bool.or_eq_false_iff] at stop
    obtain ⟨cs', eq, length, lowered⟩ := lowerCalls_word ascii text
      fun d head => isNameChar_of_not_isWordChar (stop d head).1
    exact ⟨cs', eq, length, fun _ => lowered⟩
  | spatial s text =>
    exact ⟨_, lowerCalls_spatial text s (by simpa using stop), rfl, nofun⟩

theorem opensCall_of_openParen {p : Token Gap} {ts : List (Token Gap)} {blanks : List Char}
    (stand : StandBefore (p :: ts) blanks) (opens : p.kind = .openParen) :
    opensCall ((Token.sourceOf (p :: ts)).toList ++ blanks) = true := by
  obtain ⟨⟨gap, continues, lexeme, -⟩, -⟩ := stand
  rw [opens] at lexeme
  generalize text : p.text.toList = cs at lexeme
  cases lexeme
  have stop : ∀ d ∈ ('(' :: ((Token.sourceOf ts).toList ++ blanks)).head?, isBlank d = false := by
    intro d head
    cases head
    decide
  have source : (Token.sourceOf (p :: ts)).toList ++ blanks =
      p.place.toList ++ '(' :: ((Token.sourceOf ts).toList ++ blanks) := by
    simp [Token.toList_sourceOf_cons, text]
  rw [source, opensCall, dropBlanks, dropWhile_append_eq_right gap stop]
  rfl

/-- No name goes on after a literal that is followed by a token that closes it. -/
theorem ends_of_closes {t : Token Gap} {ts : List (Token Gap)} {blanks : List Char}
    (stand : StandBefore ts blanks) (blank : ∀ c ∈ blanks, isBlank c = true)
    (closed : t.kind = .literal → ∀ u ∈ ts.head?, u.Closes) :
    t.kind = .literal → ∀ d ∈ ((Token.sourceOf ts).toList ++ blanks).head?,
      isNumberChar d = false → isNameChar d = false := by
  intro isLiteral d head notNumber
  rw [Bool.eq_false_iff]
  intro isName
  obtain ⟨u, us, rfl, goesOn⟩ := exists_of_isNameChar stand blank head isName notNumber
  exact goesOn (closed isLiteral u rfl)

/-- How a token compares with its like where the names of known functions are lower-cased. -/
structure Token.LoweredBefore (known : List String) (t t' : Token Gap)
    (next : Option (Token Gap)) : Prop
    extends t.RecasedBefore t' next where
  lowered : ∀ p, next = some p → p.kind = .openParen → t.kind = .word → '/' ∉ t.text.toList →
    known.any (sameName · t.text) = true → t'.text = toLower t.text

theorem compared_lowerCalls (ascii : ∀ name ∈ known, isAscii name = true)
    {ts ts' : List (Token Gap)}
    {blanks : List Char} (stand : StandBefore ts blanks) (blank : ∀ c ∈ blanks, isBlank c = true)
    (fenced : Fenced none ts) (compared : Compared Token.RecasedBefore none ts ts')
    (source : lowerCalls known false ((Token.sourceOf ts).toList ++ blanks) =
      (Token.sourceOf ts').toList ++ blanks) :
    Compared (Token.LoweredBefore known) none ts ts' := by
  induction compared with
  | nil => exact .nil
  | @cons t t' ts ts' recased _ ih =>
    obtain ⟨⟨gap, continues, lexeme, stop⟩, others⟩ := stand
    obtain ⟨closed, fenced⟩ := fenced
    rw [Option.or_none] at closed
    obtain ⟨cs', eq, length, lowered⟩ :=
      lexeme.lowerCalls_eq ascii stop (ends_of_closes others blank closed)
    -- both sides start with the gap and a token of the same length
    have sides : cs' ++ lowerCalls known false ((Token.sourceOf ts).toList ++ blanks) =
        t'.text.toList ++ ((Token.sourceOf ts').toList ++ blanks) := by
      rw [Token.toList_sourceOf_cons, Token.toList_sourceOf_cons, List.append_assoc,
        List.append_assoc, lowerCalls_blanks gap, List.append_assoc, List.append_assoc, eq,
        recased.gap] at source
      exact List.append_cancel_left source
    have sameLength : cs'.length = t'.text.toList.length := by
      simpa [length] using congrArg List.length (sameName_iff.1 recased.word)
    obtain ⟨rfl, rest⟩ := List.append_inj sides sameLength
    refine .cons ⟨recased, fun p next opens isWord noSlash isKnown => ?_⟩ (ih others fenced rest)
    rw [Option.or_none] at next
    obtain ⟨us, rfl⟩ := List.head?_eq_some_iff.1 next
    have call := opensCall_of_openParen others opens
    rw [← String.toList_inj, lowered isWord noSlash, loweredName]
    simp [call, isKnown]

/-! ## What a filter is read as -/

theorem sameName_sourceOf {ts ts' : List (Token Gap)} {next : Option (Token Gap)}
    (h : Compared Token.RecasedBefore next ts ts') :
    sameName (Token.sourceOf ts) (Token.sourceOf ts') = true := by
  induction h with
  | nil => exact sameName_refl _
  | cons recased _ ih =>
    rw [sameName_iff] at ih ⊢
    rw [Token.toList_sourceOf_cons, Token.toList_sourceOf_cons, recased.gap]
    simp [sameName_iff.1 recased.word, ih]

/-- The second name has the same letters, and a known one without a slash is in small letters. -/
def LoweredName (known : List String) (name name' : String) : Prop :=
  sameName name name' = true ∧
    ('/' ∉ name.toList → known.any (sameName · name) = true → name' = toLower name)

theorem comparison_recased : Comparison Token.RecasedBefore (· = ·) (sameName · · = true)
    (sameName · · = true) where
  kind h := h.kind
  word h := h.word
  leaf h closed := (h.text_eq closed).symm
  name h _ _ := h.word
  text h := by
    cases h with
    | cons first others => exact sameName_append first.word (sameName_sourceOf others)

theorem comparison_lowered : Comparison (Token.LoweredBefore known) (· = ·) (LoweredName known)
    (sameName · · = true) where
  kind h := h.kind
  word h := h.word
  leaf h closed := (h.text_eq closed).symm
  name h isWord opens := ⟨h.word, h.lowered _ rfl opens isWord⟩
  text h := comparison_recased.text (h.mono fun h => h.toRecasedBefore)

/-- A filter with names in another case is read as the same tree with names in another case. -/
theorem Expr.parse_of_recased {text text' : String} {e : Expr} (parsed : parse text = .ok e)
    (recased : Recased (dropFilterName text).toList (dropFilterName text').toList) :
    ∃ e', parse text' = .ok e' ∧ Alike (· = ·) (sameName · · = true) (sameName · · = true) e e' := by
  obtain ⟨ts, blanks, scanned, phrase, nesting⟩ := parse_eq_ok_iff.1 parsed
  obtain ⟨ts', scanned', compared⟩ := recased.exists_scan scanned
  obtain ⟨e', phrase', alike⟩ := phrase.exists_alike comparison_recased closes_of_mem_none compared
  exact ⟨e', parse_eq_ok_iff.2 ⟨ts', blanks, scanned', phrase', alike.nesting_eq ▸ nesting⟩, alike⟩

theorem recased_dropFilterName (ascii : ∀ name ∈ known, isAscii name = true) (text : String) :
    Recased (dropFilterName text).toList
      (dropFilterName (lowerFunctionNames known text)).toList := by
  rw [dropFilterName_lowerFunctionNames ascii, lowerFunctionNames, String.toList_ofList]
  exact recased_lowerCalls ascii _

/-- A filter can be read exactly if it can be read with known function names lower-cased. The trees
have the same shape, leaves, values and operators; names and texts of calls differ in case only, and
known names are in small letters in the second tree. -/
theorem Expr.parse_lowerFunctionNames (ascii : ∀ name ∈ known, isAscii name = true) (text : String) :
    ((∃ e, parse text = .ok e) ↔ ∃ e', parse (lowerFunctionNames known text) = .ok e') ∧
      ∀ e e', parse text = .ok e → parse (lowerFunctionNames known text) = .ok e' →
        Alike (· = ·) (LoweredName known) (sameName · · = true) e e' := by
  have recased := recased_dropFilterName ascii text
  refine ⟨⟨?_, ?_⟩, fun e e' parsed parsed' => ?_⟩
  · rintro ⟨e, parsed⟩
    obtain ⟨e', parsed', -⟩ := parse_of_recased parsed recased
    exact ⟨e', parsed'⟩
  · rintro ⟨e', parsed'⟩
    obtain ⟨e, parsed, -⟩ := parse_of_recased parsed' recased.symm
    exact ⟨e, parsed⟩
  · obtain ⟨ts, blanks, scanned, phrase, -⟩ := parse_eq_ok_iff.1 parsed
    obtain ⟨ts', scanned', compared⟩ := recased.exists_scan scanned
    obtain ⟨source, stand, blank⟩ := spacedScan_eq_ok_iff.1 scanned
    have source' := (spacedScan_eq_ok_iff.1 scanned').1
    rw [dropFilterName_lowerFunctionNames ascii, lowerFunctionNames, String.toList_ofList,
      source] at source'
    have lowered := compared_lowerCalls ascii stand blank (phrase.fenced closes_of_mem_none) compared
      source'
    obtain ⟨e'', phrase'', alike⟩ :=
      phrase.exists_alike comparison_lowered closes_of_mem_none lowered
    obtain ⟨us, blanks', scannedAgain, phrase', -⟩ := parse_eq_ok_iff.1 parsed'
    rw [scanned'] at scannedAgain
    cases scannedAgain
    rwa [phrase'.unique phrase'']

theorem Expr.parse_lowerFunctionNames_trim :
    ∃ raw, parse (lowerFunctionNames standardFunctions "TRIM( Name ) eq 'Trim(x)'") =
        .ok (.comparison "eq" (.call "trim" [.primary "Name"] raw) (.primary "'Trim(x)'")) ∧
      sameName "TRIM( Name )" raw = true := by
  have ascii : ∀ name ∈ standardFunctions, isAscii name = true := by decide +kernel
  have tokens : spacedTokens (dropFilterName "TRIM( Name ) eq 'Trim(x)'") =
      .ok [⟨"", .word, "TRIM"⟩, ⟨"", .openParen, "("⟩, ⟨" ", .word, "Name"⟩, ⟨" ", .closeParen, ")"⟩,
        ⟨" ", .word, "eq"⟩, ⟨" ", .literal, "'Trim(x)'"⟩] := eq_ok_of_toOption (by decide +kernel)
  have call : IsExpr [⟨"", .word, "TRIM"⟩, ⟨"", .openParen, "("⟩, ⟨" ", .word, "Name"⟩,
      ⟨" ", .closeParen, ")"⟩] (.call "TRIM" [.primary "Name"] "TRIM( Name )") :=
    isExpr_call_one ⟨rfl, by decide⟩ rfl (isExpr_word _ (by decide)) rfl (by decide +kernel)
  have parsed : parse "TRIM( Name ) eq 'Trim(x)'" = .ok (.comparison "eq"
      (.call "TRIM" [.primary "Name"] "TRIM( Name )") (.primary "'Trim(x)'")) :=
    parse_of_isExpr tokens (isExpr_comparison_iff.2 ⟨_, _, _, rfl, by decide, by decide,
      ⟨call, rfl⟩, isExpr_literal _ _, rfl⟩) (by decide)
  obtain ⟨readable, alike⟩ := parse_lowerFunctionNames ascii "TRIM( Name ) eq 'Trim(x)'"
  obtain ⟨e', parsed'⟩ := readable.1 ⟨_, parsed⟩
  cases alike _ _ parsed parsed' with
  | comparison left right =>
    cases left with
    | call name arguments text =>
      cases right with
      | primary same =>
        cases arguments with
        | cons first others =>
          cases first with
          | primary same' =>
            cases others
            cases same
            cases same'
            cases name.2 (by decide) (by decide +kernel)
            have small : toLower "TRIM" = "trim" := by decide +kernel
            rw [small] at parsed'
            exact ⟨_, parsed', text⟩

end FilterSql.Filter
