import FilterSql.Proofs.Literals
import FilterSql.Proofs.Printing
import Mathlib.Data.List.Forall2

/-!
# The texts of tokens

The tokens of a text stand one after the other in it, with nothing but blanks before, between and
after them. Each token has its span of bytes, which starts and ends between characters, and so does a
run of tokens: the text of a call is cut out of the filter from its name to its closing parenthesis.

Each round of the scan takes at least one character. It ends at the end of the text, or at something
that is no token and that is a part of the text as well.

Texts and quoted tokens correspond to each other: a text is quoted in one way, and a quoted token
stands for one text. The name of a spatial type in front of the quotes changes nothing.

## Main statements

* `quote_tokens_correspond`: quoted tokens and the texts that they stand for.
* `tokenize_tiles`: the tokens of a text tile it.
-/

namespace FilterSql.Filter

open Text
open Literal (quote unquote isLiteral toList_quote)

/-! ## Quoted tokens -/

theorem Token.standsBefore_quote {gap : String} (blank : ∀ c ∈ gap.toList, isBlank c = true)
    (s : String) {rest : List Char} (stop : ∀ d ∈ rest.head?, d ≠ '\'') :
    Token.StandsBefore ⟨gap, .literal, quote s⟩ rest := by
  refine ⟨blank, (· == '\''), ?_, by simpa using stop⟩
  rw [toList_quote]
  exact .quoted s.toList

theorem spacedTokens_of_standsBefore {t : Token Gap} {rest : String}
    (h : t.StandsBefore rest.toList) :
    spacedTokens (t.place ++ t.text ++ rest) = (spacedTokens rest).map (t :: ·) := by
  have chars : (t.place ++ t.text ++ rest).toList =
      t.place.toList ++ (t.text.toList ++ rest.toList) := by simp
  rw [spacedTokens, chars, h.scan_eq, spacedTokens]
  cases spacedScan rest.toList <;> rfl

/-- The token in another text, where so many more bytes stand in front. -/
def Token.movedBy {text : String} (n : Nat) (text' : String) (t : Token (Span text)) :
    Token (Span text') :=
  ⟨⟨n + t.place.start, n + t.place.stop⟩, t.kind, t.text⟩

theorem placedFrom_add (text text' : String) (n offset : Nat) (ts : List (Token Gap)) :
    placedFrom text' (n + offset) ts = (placedFrom text offset ts).map (Token.movedBy n text') := by
  induction ts generalizing offset with
  | nil => rfl
  | cons t ts ih => simp [placedFrom, Token.movedBy, Nat.add_assoc, ← ih]

/-- A literal token is quoted, or quoted after the name of a spatial type, or it is a number, a
date or a timestamp. -/
theorem Token.IsRead.literal_cases {t : Token Gap} (h : t.IsRead) (literal : t.kind = .literal) :
    (∃ s, t.text = quote s) ∨
    (∃ name s, isSpatialName name = true ∧ t.text = String.ofList name ++ quote s) ∨
    ∃ c run, t.text.toList = c :: run ∧ IsNumberText c run := by
  obtain ⟨-, continues, lexeme⟩ := h
  rw [literal] at lexeme
  generalize text : t.text.toList = cs at lexeme
  cases lexeme with
  | quoted s => exact .inl ⟨String.ofList s, by simp [← String.toList_inj, text, toList_quote]⟩
  | number isNumber => exact .inr (.inr ⟨_, _, rfl, isNumber⟩)
  | @spatial c run s _ spatial =>
    refine .inr (.inl ⟨c :: run, String.ofList s, spatial, ?_⟩)
    simp [← String.toList_inj, text, toList_quote]

theorem Token.IsRead.eq_quote_unquote {t : Token Gap} (h : t.IsRead) (literal : t.kind = .literal)
    (quoted : t.text.toList.head? = some '\'') : t.text = quote (unquote t.text) := by
  rcases h.literal_cases literal with ⟨s, eq⟩ | ⟨name, s, spatial, eq⟩ | ⟨c, run, eq, starts, -⟩
  · rw [eq, Literal.unquote_quote]
  · obtain ⟨c, cs, rfl, small⟩ := Literal.exists_cons_of_isSpatialName spatial
    simp only [eq, String.toList_append, String.toList_ofList, List.cons_append, List.head?_cons,
      Option.some.injEq] at quoted
    rw [quoted] at small
    exact absurd small (by decide)
  · rw [eq, List.head?_cons, Option.some.injEq] at quoted
    rw [quoted] at starts
    exact absurd starts (by simp [startsNumber])

theorem toLower_ne_of_startsNumber {c : Char} {run : List Char} (h : startsNumber c run = true) :
    c.toLower ≠ 'g' := by
  simp only [startsNumber, Bool.or_eq_true, Bool.and_eq_true, beq_iff_eq] at h
  rcases h with digit | ⟨rfl | rfl, -⟩
  · rw [toLower_of_isDigit digit]
    rintro rfl
    cases digit
  · decide
  · decide

theorem Token.IsRead.eq_spatial_quote_unquote {t : Token Gap} (h : t.IsRead)
    (literal : t.kind = .literal) {name part : String} (spatial : isSpatialName name.toList = true)
    (eq : t.text = name ++ part) : t.text = name ++ quote (unquote t.text) := by
  obtain ⟨c, cs, isName, small⟩ := Literal.exists_cons_of_isSpatialName spatial
  have first : t.text.toList.head? = some c := by simp [eq, isName]
  rcases h.literal_cases literal with ⟨s, same⟩ | ⟨name', s, spatial', same⟩ |
    ⟨d, run, same, starts, -⟩
  · rw [same, toList_quote, List.head?_cons, Option.some.injEq] at first
    rw [← first] at small
    exact absurd small (by decide)
  · -- a text starts with one such name at most, so this is the name that the token was read with
    have chars := congrArg String.toList (eq.symm.trans same)
    simp only [String.toList_append, String.toList_ofList] at chars
    have names := (Literal.append_inj_of_isSpatialName spatial spatial' chars).1
    have inside : unquote t.text = s := by
      refine Literal.unquote_of_quotedPart ?_
      rw [same, String.toList_append, String.toList_ofList, Literal.quotedPart_spatial spatial']
    rw [inside, same, ← names, String.ofList_toList]
  · rw [same, List.head?_cons, Option.some.injEq] at first
    rw [first] at starts
    exact absurd small (toLower_ne_of_startsNumber starts)

/-- A quoted text is read as one literal token, which stands for the text, and a literal token in
quotes is what it stands for, quoted. -/
theorem quote_tokens_correspond :
    (∀ gap s rest : String, (∀ c ∈ gap.toList, isBlank c = true) →
      (∀ d ∈ rest.toList.head?, d ≠ '\'') →
      tokenize (gap ++ quote s ++ rest) = (tokenize rest).map fun ts =>
        ⟨⟨gap.utf8ByteSize, (gap ++ quote s).utf8ByteSize⟩, .literal, quote s⟩ ::
          ts.map (Token.movedBy (gap ++ quote s).utf8ByteSize _)) ∧
    (∀ s, unquote (quote s) = s) ∧
    ∀ text ts, tokenize text = .ok ts → ∀ t ∈ ts, t.kind = .literal →
      (t.text.toList.head? = some '\'' → t.text = quote (unquote t.text)) ∧
      ∀ name part, sameName name "geography" = true ∨ sameName name "geometry" = true →
        t.text = name ++ part → t.text = name ++ quote (unquote t.text) := by
  refine ⟨fun gap s rest blank stop => ?_, Literal.unquote_quote,
    fun text ts read t member literal => ⟨fun quoted => ?_, fun name part spatial eq => ?_⟩⟩
  · have first := spacedTokens_of_standsBefore (Token.standsBefore_quote blank s stop)
    rw [tokenize_eq, first, tokenize_eq]
    cases spacedTokens rest with
    | error => rfl
    | ok us =>
      have moved := placedFrom_add rest (gap ++ quote s ++ rest) (gap ++ quote s).utf8ByteSize 0 us
      simp only [Nat.add_zero, String.utf8ByteSize_append] at moved
      simp only [Except.map, placedFrom, Nat.zero_add, moved, String.utf8ByteSize_append]
  · exact (isRead_of_tokenize read t member).eq_quote_unquote literal quoted
  · refine (isRead_of_tokenize read t member).eq_spatial_quote_unquote literal ?_ eq
    simpa [isSpatialName] using spatial

/-- Runs of quotes are paired from the left, at both ends of the quoted text as well as inside. -/
theorem quote_tokens_correspond_runs :
    tokenize ("  " ++ quote "'l''été" ++ ")") = (tokenize ")").map (fun ts =>
      ⟨⟨2, 16⟩, .literal, quote "'l''été"⟩ :: ts.map (Token.movedBy 16 _)) ∧
    unquote (quote "'l''été") = "'l''été" ∧
    tokenize "GeoMetry'it''s' eq ''''" =
      .ok [⟨⟨0, 15⟩, .literal, "GeoMetry'it''s'"⟩, ⟨⟨16, 18⟩, .word, "eq"⟩,
        ⟨⟨19, 23⟩, .literal, "''''"⟩] ∧
    "GeoMetry'it''s'" = "GeoMetry" ++ quote (unquote "GeoMetry'it''s'") ∧
    "''''" = quote (unquote "''''") := by
  have read : tokenize "GeoMetry'it''s' eq ''''" =
      .ok [⟨⟨0, 15⟩, .literal, "GeoMetry'it''s'"⟩, ⟨⟨16, 18⟩, .word, "eq"⟩,
        ⟨⟨19, 23⟩, .literal, "''''"⟩] :=
    eq_ok_of_toOption (by decide +kernel)
  obtain ⟨quoted, inside, literal⟩ := quote_tokens_correspond
  have spatial := literal _ _ read _ List.mem_cons_self rfl
  have plain := literal _ _ read ⟨⟨19, 23⟩, .literal, "''''"⟩ (by simp) rfl
  have accents := quoted "  " "'l''été" ")" (List.all_eq_true.1 (by decide)) fun d head => by
    cases head
    decide
  have size : ("  " ++ quote "'l''été").utf8ByteSize = 16 := by decide +kernel
  rw [size] at accents
  exact ⟨accents, inside _, read, spatial.2 "GeoMetry" "'it''s'" (.inr (by decide)) (by decide),
    plain.1 (by decide)⟩

/-! ## Tiles -/

/-- The spans before, between and after tokens, from the offset to the end of the text. -/
def gapsFrom (text : String) (offset : Nat) : List (Token (Span text)) → List (Span text)
  | [] => [⟨offset, text.utf8ByteSize⟩]
  | t :: ts => ⟨offset, t.place.start⟩ :: gapsFrom text t.place.stop ts

/-- The tokens and what the gaps around them cut out of the text, one after the other. -/
def rebuildFrom (text : String) (offset : Nat) : List (Token (Span text)) → String
  | [] => (⟨offset, text.utf8ByteSize⟩ : Span text).cut
  | t :: ts =>
    (⟨offset, t.place.start⟩ : Span text).cut ++ t.text ++ rebuildFrom text t.place.stop ts

/-- The tokens stand in the text one after the other, with nothing but blanks around them. -/
structure Tiles (text : String) (ts : List (Token (Span text))) : Prop where
  cut : ∀ t ∈ ts, t.place.start < t.place.stop ∧ t.place.Holds t.text
  apart : ts.Pairwise fun t u => t.place.stop ≤ u.place.start
  gaps : ∀ gap ∈ gapsFrom text 0 ts,
    ∃ blanks, gap.Holds blanks ∧ ∀ c ∈ blanks.toList, isBlank c = true
  whole : rebuildFrom text 0 ts = text
  literals : ∀ t ∈ ts, t.kind = .literal → isLiteral t.text = true
  words : ∀ t ∈ ts, t.kind = .word →
    t.text.toList.head?.any isWordStart = true ∧ t.text.toList.all isWordChar = true

section Placed

variable {text before after : String} {t : Token Gap} {ts : List (Token Gap)}

/-- Where the gap of the first token, its text and the rest of a run are. -/
theorem append_of_sourceOf_cons (h : text = before ++ Token.sourceOf (t :: ts) ++ after) :
    text = before ++ t.place ++ (t.text ++ (Token.sourceOf ts ++ after)) ∧
      text = before ++ t.place ++ t.text ++ (Token.sourceOf ts ++ after) ∧
      text = before ++ t.place ++ t.text ++ Token.sourceOf ts ++ after := by
  simp [h, Token.sourceOf_cons, String.append_assoc]

theorem placedFrom_holds (h : text = before ++ Token.sourceOf ts ++ after)
    (nonempty : ∀ t ∈ ts, 0 < t.text.utf8ByteSize) :
    ∀ t ∈ placedFrom text before.utf8ByteSize ts,
      t.place.start < t.place.stop ∧ t.place.Holds t.text := by
  induction ts generalizing before with
  | nil => simp [placedFrom]
  | cons t ts ih =>
    obtain ⟨-, here, others⟩ := append_of_sourceOf_cons h
    have holds := Span.holds_of_eq_append here
    have following := ih others (List.forall_mem_cons.1 nonempty).2
    simp only [String.utf8ByteSize_append] at holds following
    exact List.forall_mem_cons.2
      ⟨⟨Nat.lt_add_of_pos_right (nonempty t List.mem_cons_self), holds⟩, following⟩

theorem pairwise_placedFrom (text : String) (offset : Nat) (ts : List (Token Gap)) :
    (∀ t ∈ placedFrom text offset ts, offset ≤ t.place.start) ∧
      (placedFrom text offset ts).Pairwise fun t u => t.place.stop ≤ u.place.start := by
  induction ts generalizing offset with
  | nil => simp [placedFrom]
  | cons t ts ih =>
    obtain ⟨later, apart⟩ := ih (offset + t.place.utf8ByteSize + t.text.utf8ByteSize)
    refine ⟨?_, List.pairwise_cons.2 ⟨later, apart⟩⟩
    simp only [placedFrom, List.mem_cons]
    rintro u (rfl | member)
    · exact Nat.le_add_right ..
    · have := later u member
      omega

theorem Span.holds_to_end (h : text = before ++ after) :
    Holds (⟨before.utf8ByteSize, text.utf8ByteSize⟩ : Span text) after := by
  have holds := holds_of_eq_append (h.trans (String.append_empty).symm)
  rwa [← h] at holds

/-- The gaps around the tokens hold the blanks that the scan has skipped. -/
theorem gapsFrom_placedFrom (h : text = before ++ Token.sourceOf ts ++ after) :
    ∀ gap ∈ gapsFrom text before.utf8ByteSize (placedFrom text before.utf8ByteSize ts),
      ∃ skipped ∈ ts.map Token.place ++ [after], gap.Holds skipped := by
  induction ts generalizing before with
  | nil => simpa [placedFrom, gapsFrom] using Span.holds_to_end (by simpa using h)
  | cons t ts ih =>
    obtain ⟨gap, -, others⟩ := append_of_sourceOf_cons h
    have holds := Span.holds_of_eq_append gap
    have following := ih others
    simp only [String.utf8ByteSize_append] at holds following
    refine List.forall_mem_cons.2 ⟨⟨t.place, List.mem_cons_self, holds⟩, fun gap member => ?_⟩
    obtain ⟨skipped, member', holds⟩ := following gap member
    exact ⟨skipped, List.mem_cons_of_mem _ member', holds⟩

theorem rebuildFrom_placedFrom (h : text = before ++ Token.sourceOf ts ++ after) :
    rebuildFrom text before.utf8ByteSize (placedFrom text before.utf8ByteSize ts) =
      Token.sourceOf ts ++ after := by
  induction ts generalizing before with
  | nil =>
    rw [Token.sourceOf_nil, String.empty_append]
    exact (Span.holds_to_end (by simpa using h)).cut_eq
  | cons t ts ih =>
    obtain ⟨gap, -, others⟩ := append_of_sourceOf_cons h
    have cut := (Span.holds_of_eq_append gap).cut_eq
    have following := ih others
    simp only [String.utf8ByteSize_append] at cut following
    simp only [placedFrom, rebuildFrom, cut, following, Token.sourceOf_cons, String.append_assoc]

theorem drop_placedFrom (text : String) (offset n : Nat) (ts : List (Token Gap)) :
    (placedFrom text offset ts).drop n =
      placedFrom text (offset + (Token.sourceOf (ts.take n)).utf8ByteSize) (ts.drop n) := by
  induction ts generalizing offset n with
  | nil => simp [placedFrom]
  | cons t ts ih =>
    cases n with
    | zero => simp
    | succ n => simp [placedFrom, ih, Token.sourceOf_cons, Nat.add_assoc]

end Placed

theorem Token.IsRead.isLiteral_text {t : Token Gap} (h : t.IsRead) (literal : t.kind = .literal) :
    isLiteral t.text = true := by
  rcases h.literal_cases literal with ⟨s, eq⟩ | ⟨name, s, spatial, eq⟩ | ⟨c, run, eq, number⟩
  · rw [eq]
    exact Literal.isLiteral_of_isQuoted (Literal.isQuoted_quote s)
  · refine Literal.isLiteral_of_isQuoted (Literal.isQuoted_of_quotedPart (s := s) ?_)
    rw [eq, String.toList_append, String.toList_ofList, Literal.quotedPart_spatial spatial]
  · rw [← String.ofList_toList (s := t.text), eq]
    exact number.2.2

theorem Token.IsRead.word_text {t : Token Gap} (h : t.IsRead) (word : t.kind = .word) :
    t.text.toList.head?.any isWordStart = true ∧ t.text.toList.all isWordChar = true := by
  obtain ⟨-, continues, lexeme⟩ := h
  rw [word] at lexeme
  generalize t.text.toList = cs at lexeme
  cases lexeme with
  | word text | spatialName text =>
    exact ⟨text.1, List.all_eq_true.2 (List.forall_mem_cons.2
      ⟨Literal.isWordChar_of_isWordStart text.1, text.2⟩)⟩

theorem Token.IsRead.utf8ByteSize_pos {t : Token Gap} (h : t.IsRead) : 0 < t.text.utf8ByteSize := by
  obtain ⟨-, continues, lexeme⟩ := h
  obtain ⟨c, tail, eq⟩ := lexeme.exists_cons
  rw [Nat.pos_iff_ne_zero, ne_eq, String.utf8ByteSize_eq_zero_iff]
  rintro empty
  simp [empty] at eq

/-- A text is made of what the scan has read and skipped. -/
theorem exists_source_of_tokenize {text : String} {ts : List (Token (Span text))}
    (h : tokenize text = .ok ts) :
    ∃ us blanks, placedFrom text 0 us = ts ∧ text = "" ++ Token.sourceOf us ++ blanks ∧
      (∀ t ∈ us, t.IsRead) ∧ ∀ c ∈ blanks.toList, isBlank c = true := by
  obtain ⟨us, spaced, placed⟩ := tokenize_eq_ok_iff.1 h
  obtain ⟨blanks, scanned⟩ := exists_scan_of_spacedTokens spaced
  obtain ⟨chars, -, blank⟩ := standBefore_of_spacedScan scanned
  exact ⟨us, blanks, placed, by simp [← String.toList_inj, chars], isRead_of_spacedTokens spaced,
    blank⟩

theorem tiles_of_tokenize {text : String} {ts : List (Token (Span text))}
    (h : tokenize text = .ok ts) : Tiles text ts := by
  have placed := isRead_of_tokenize h
  obtain ⟨us, blanks, rfl, source, isRead, blank⟩ := exists_source_of_tokenize h
  exact {
    cut := placedFrom_holds source fun t member => (isRead t member).utf8ByteSize_pos
    apart := (pairwise_placedFrom text 0 us).2
    gaps := by
      intro gap member
      obtain ⟨skipped, member, holds⟩ := gapsFrom_placedFrom source gap member
      refine ⟨skipped, holds, ?_⟩
      rcases List.mem_append.1 member with member | member
      · obtain ⟨t, read, rfl⟩ := List.mem_map.1 member
        exact (isRead t read).gap
      · rwa [List.mem_singleton.1 member]
    whole := by
      have rebuilt := rebuildFrom_placedFrom source
      rw [String.empty_append] at source
      exact rebuilt.trans source.symm
    literals := fun t member => (placed t member).isLiteral_text
    words := fun t member => (placed t member).word_text }

/-- A run of tokens is cut out from the start of its first token to the end of its last one. -/
theorem textOf_holds {text : String} {ts us : List (Token (Span text))} {t q : Token (Span text)}
    (h : tokenize text = .ok ts) (run : t :: us <:+: ts) (last : (t :: us).getLast? = some q) :
    (⟨t.place.start, q.place.stop⟩ : Span text).Holds (Place.textOf (t :: us)) := by
  obtain ⟨ws, blanks, rfl, source, -⟩ := exists_source_of_tokenize h
  obtain ⟨before, after, eq⟩ := run
  have taken : t :: us = ((placedFrom text 0 ws).drop before.length).take (us.length + 1) := by
    simp [← eq]
  rw [drop_placedFrom, take_placedFrom, Nat.zero_add] at taken
  generalize part : (ws.drop before.length).take (us.length + 1) = vs at taken
  cases vs with
  | nil => cases taken
  | cons w vs =>
    have around : text = Token.sourceOf (ws.take before.length) ++ Token.sourceOf (w :: vs) ++
        (Token.sourceOf ((ws.drop before.length).drop (us.length + 1)) ++ blanks) := by
      have parts : Token.sourceOf ws = Token.sourceOf (ws.take before.length) ++
          (Token.sourceOf (w :: vs) ++
            Token.sourceOf ((ws.drop before.length).drop (us.length + 1))) := by
        rw [← part, ← Token.sourceOf_append, ← Token.sourceOf_append, List.take_append_drop,
          List.take_append_drop]
      refine source.trans ?_
      rw [parts]
      simp only [String.empty_append, String.append_assoc]
    have nonempty := taken ▸ List.cons_ne_nil t us
    have holds := Span.holds_placedFrom around nonempty
    rw [taken, List.getLast?_eq_some_getLast nonempty, Option.some.injEq] at last
    rw [last] at holds
    rwa [taken, textOf_placedFrom around, (List.cons.inj taken).1]

/-! ## The rounds of the scan -/

/-- The scan from a point ends with a result after so many rounds. -/
inductive Ends (text : String) :
    Nat → Cursor → Except SyntaxError (List (Token (Span text))) → Prop
  | done {k start : Cursor} : Cursor.skipBlanks k.offset k.rest = start → start.rest = [] →
    Ends text 0 k (.ok [])
  | stray {k start : Cursor} {c : Char} {cs : List Char} {e : SyntaxError} :
    Cursor.skipBlanks k.offset k.rest = start → start.rest = c :: cs → tokenAt c cs = .error e →
    Ends text 0 k (.error e)
  | token {k start stop : Cursor} {c : Char} {cs : List Char} {kind : TokenKind} {n rounds : Nat}
    {result : Except SyntaxError (List (Token (Span text)))} :
    Cursor.skipBlanks k.offset k.rest = start → start.rest = c :: cs →
    tokenAt c cs = .ok (kind, n) → start.bumps (n + 1) = stop → Ends text rounds stop result →
    Ends text (rounds + 1) k (result.map
      (⟨⟨start.offset, stop.offset⟩, kind, (⟨start.offset, stop.offset⟩ : Span text).cut⟩ :: ·))

theorem exists_ends_scan (text : String) (k : Cursor) :
    ∃ rounds ≤ k.rest.length, Ends text rounds k (scan text k) := by
  -- a token takes its first character at least, so the rest after it is shorter
  induction length : k.rest.length using Nat.strongRecOn generalizing k with
  | _ m ih =>
    generalize skipped : Cursor.skipBlanks k.offset k.rest = start
    have shorter := Cursor.length_skipBlanks k.offset k.rest
    rw [scan_of_skipBlanks skipped]
    rw [skipped] at shorter
    cases rest : start.rest with
    | nil => exact ⟨0, Nat.zero_le _, .done skipped rest⟩
    | cons c cs =>
      dsimp only
      rcases read : tokenAt c cs with e | ⟨kind, n⟩
      · exact ⟨0, Nat.zero_le _, .stray skipped rest read⟩
      · have stopped := Cursor.length_bumps start (n + 1)
        simp only [rest, List.length_cons] at shorter stopped
        obtain ⟨rounds, few, ends⟩ := ih _ (by omega) (start.bumps (n + 1)) rfl
        exact ⟨rounds + 1, by omega, .token skipped rest read rfl ends⟩

theorem quotedToken_eq_error {before : Nat} {cs : List Char} {e : SyntaxError}
    (h : quotedToken before cs = .error e) :
    e = .unexpectedToken (String.ofList ('\'' :: cs)) := by
  unfold quotedToken at h
  split at h
  · cases h
  · cases h
    rfl

/-- What is no token is a part of the text. -/
theorem infix_of_tokenAt_eq_error {c : Char} {cs : List Char} {e : SyntaxError}
    (h : tokenAt c cs = .error e) :
    ∃ stray, stray ≠ [] ∧ stray <:+: c :: cs ∧ e = .unexpectedToken (String.ofList stray) := by
  have start (p : Char → Bool) : c :: cs.takeWhile p <:+: c :: cs :=
    ((List.prefix_cons_inj c).2 (List.takeWhile_prefix p)).isInfix
  unfold tokenAt at h
  split at h
  · cases h
  split at h
  · cases h
  split at h
  · cases h
  split at h
  · next isQuote =>
    obtain rfl : c = '\'' := by simpa using isQuote
    exact ⟨_, List.cons_ne_nil _ _, List.infix_refl _, quotedToken_eq_error h⟩
  split at h
  · dsimp only at h
    split at h
    · cases h
    · cases h
      exact ⟨_, List.cons_ne_nil _ _, start _, rfl⟩
  split at h
  · dsimp only at h
    split at h
    · next after rest =>
      split at h
      · refine ⟨_, List.cons_ne_nil _ _, ?_, quotedToken_eq_error h⟩
        rw [← rest]
        exact ((List.dropWhile_suffix isWordChar).trans (List.suffix_cons c cs)).isInfix
      · cases h
    · cases h
  · cases h
    exact ⟨_, List.cons_ne_nil _ _, start _, rfl⟩

theorem Cursor.suffix_skipBlanks (offset : Nat) (cs : List Char) :
    (skipBlanks offset cs).rest <:+ cs := by
  rw [skipBlanks_eq]
  exact List.dropWhile_suffix isBlank

theorem Cursor.suffix_bumps (k : Cursor) (n : Nat) : (k.bumps n).rest <:+ k.rest := by
  rw [bumps_eq]
  exact List.drop_suffix n k.rest

theorem Ends.infix_of_error {text : String} {rounds : Nat} {k : Cursor}
    {result : Except SyntaxError (List (Token (Span text)))} (h : Ends text rounds k result)
    {e : SyntaxError} (fails : result = .error e) :
    ∃ stray, stray ≠ [] ∧ stray <:+: k.rest ∧ e = .unexpectedToken (String.ofList stray) := by
  induction h with
  | done => cases fails
  | @stray k start _ _ _ skipped rest read =>
    cases fails
    obtain ⟨stray, nonempty, inside, eq⟩ := infix_of_tokenAt_eq_error read
    rw [← rest, ← skipped] at inside
    exact ⟨stray, nonempty, inside.trans (Cursor.suffix_skipBlanks _ _).isInfix, eq⟩
  | @token k start _ _ _ _ n _ result skipped _ _ stopped _ ih =>
    cases result with
    | ok => cases fails
    | error =>
      cases fails
      obtain ⟨stray, nonempty, inside, eq⟩ := ih rfl
      rw [← stopped] at inside
      have suffix := (start.suffix_bumps (n + 1)).trans
        (skipped ▸ Cursor.suffix_skipBlanks k.offset k.rest)
      exact ⟨stray, nonempty, inside.trans suffix.isInfix, eq⟩

theorem Span.exists_holds_of_infix {text : String} {part : List Char} (nonempty : part ≠ [])
    (h : part <:+: text.toList) :
    ∃ span : Span text, span.start < span.stop ∧ span.Holds (String.ofList part) := by
  obtain ⟨before, after, eq⟩ := h
  have parts : text = String.ofList before ++ String.ofList part ++ String.ofList after := by
    simp [← String.toList_inj, ← eq]
  refine ⟨_, ?_, Span.holds_of_eq_append parts⟩
  have size : (String.ofList part).utf8ByteSize ≠ 0 := by
    rw [ne_eq, String.utf8ByteSize_eq_zero_iff]
    simpa using nonempty
  simp only [String.utf8ByteSize_append]
  omega

/-- The tokens of a text tile it, and the text of each call among them is cut out of it from the name
to the closing parenthesis. If there are no tokens, it is for a part of the text that is none. In
either case the scan ends, after at most one round for each character. -/
theorem tokenize_tiles (text : String) :
    (∀ ts, tokenize text = .ok ts → Tiles text ts ∧
      ∀ e, Expr.ofTokens ts = .ok e → ∀ name args raw, Expr.Subterm (.call name args raw) e →
        ∃ t us q, t :: (us ++ [q]) <:+: ts ∧ t.text = name ∧ q.kind = .closeParen ∧
          (⟨t.place.start, q.place.stop⟩ : Span text).Holds raw) ∧
    (∀ e, tokenize text = .error e → ∃ stray, e = .unexpectedToken stray ∧
      ∃ span : Span text, span.start < span.stop ∧ span.Holds stray) ∧
    ∃ rounds ≤ text.length, Ends text rounds ⟨0, text.toList⟩ (tokenize text) := by
  obtain ⟨rounds, few, ends⟩ := exists_ends_scan text ⟨0, text.toList⟩
  refine ⟨fun ts read => ⟨tiles_of_tokenize read, fun e parsed name args raw sub => ?_⟩,
    fun e fails => ?_, rounds, few, ends⟩
  · obtain ⟨us, part, phrase⟩ := (Expr.ofTokens_eq_ok_iff.1 parsed).1.holdsPhrase_of_subterm sub
    obtain ⟨t, p, vs, q, rfl, -, named, -, closes, rfl, -⟩ := isExpr_call_iff.1 phrase
    have last : (t :: p :: (vs ++ [q])).getLast? = some q := by
      rw [← List.cons_append, ← List.cons_append, List.getLast?_concat]
    exact ⟨t, p :: vs, q, part, named, closes, textOf_holds read part last⟩
  · obtain ⟨stray, nonempty, inside, rfl⟩ := ends.infix_of_error fails
    exact ⟨_, rfl, Span.exists_holds_of_infix nonempty inside⟩

/-- Letters of two bytes, in a word and in a quoted text. -/
theorem tokenize_tiles_accents :
    tokenize "été eq  'ü'\t" =
      .ok [⟨⟨0, 5⟩, .word, "été"⟩, ⟨⟨6, 8⟩, .word, "eq"⟩, ⟨⟨10, 14⟩, .literal, "'ü'"⟩] ∧
    Tiles "été eq  'ü'\t"
      [⟨⟨0, 5⟩, .word, "été"⟩, ⟨⟨6, 8⟩, .word, "eq"⟩, ⟨⟨10, 14⟩, .literal, "'ü'"⟩] := by
  have read : tokenize "été eq  'ü'\t" =
      .ok [⟨⟨0, 5⟩, .word, "été"⟩, ⟨⟨6, 8⟩, .word, "eq"⟩, ⟨⟨10, 14⟩, .literal, "'ü'"⟩] :=
    eq_ok_of_toOption (by decide +kernel)
  exact ⟨read, ((tokenize_tiles _).1 _ read).1⟩

end FilterSql.Filter
