import FilterSql.Proofs.Phrases
import FilterSql.Proofs.PlacedTokens

/-!
# Printing an expression and reading it again

Every part of an expression was read from a run of tokens of the whole text. Its own text has one
blank around each operator and no other, except within calls, which keep the text that they were read
from. So the tokens of the text are the tokens of the run with other gaps, and they are read again:
each of them ends before a blank, a parenthesis or a comma, or it is a parenthesis itself.

## Main statements

* `IsExpr.exists_prints`: the text of an expression is the source of a phrase of it.
* `Expr.parse_text_of_subterm`: the text of a part of a filter is read as that part.
-/

namespace FilterSql.Filter

open Text
open FilterSql.Parser (Separated separated_cons_iff separated_single_iff)

/-! ## Parts of an expression -/

theorem Expr.Subterm.nesting_le {u e : Expr} (h : Subterm u e) : u.nesting ≤ e.nesting := by
  induction h with
  | self => exact Nat.le_refl _
  | @argument _ _ args arg member _ ih =>
    have below : arg.nesting ≤ nestingOf args := nestingOf_le_iff.1 (Nat.le_refl _) arg member
    simp only [nesting]
    omega
  | negated _ ih | grouped _ ih | compareLeft _ ih | compareRight _ ih | connectLeft _ ih
  | connectRight _ ih | listed _ ih =>
    simp only [nesting]
    omega

theorem exists_of_separated {τ α : Type} {separator : τ → Bool} {item : List τ → α → Prop}
    {ts : List τ} {a : α} {as : List α}
    (h : Separated separator item ts (a, as)) {b : α} (member : b ∈ a :: as) :
    ∃ us, us <:+: ts ∧ item us b := by
  obtain @⟨us, vs, _, _, first, others⟩ := h
  rcases List.mem_cons.1 member with rfl | member
  · exact ⟨us, (List.prefix_append us vs).isInfix, first⟩
  suffices found : ∃ ws, ws <:+: vs ∧ item ws b by
    obtain ⟨ws, within, phrase⟩ := found
    exact ⟨ws, within.trans (List.suffix_append us vs).isInfix, phrase⟩
  clear first
  induction others with
  | nil => cases member
  | @cons t ws ws' c cs _ phrase _ ih =>
    rcases List.mem_cons.1 member with rfl | member
    · exact ⟨ws, ⟨[t], ws', by simp⟩, phrase⟩
    · obtain ⟨found, within, phrase⟩ := ih (List.mem_cons_of_mem _ member) member
      exact ⟨found, within.trans (List.suffix_append (t :: ws) ws').isInfix, phrase⟩

section Parts

variable {π : Type} [Place π]

/-- The run holds a phrase of the expression. -/
def HoldsPhrase (e : Expr) (ts : List (Token π)) : Prop := ∃ us, us <:+: ts ∧ IsExpr us e

theorem HoldsPhrase.within {e : Expr} {ts us : List (Token π)} (h : HoldsPhrase e us)
    (part : us <:+: ts) : HoldsPhrase e ts := by
  obtain ⟨vs, within, phrase⟩ := h
  exact ⟨vs, within.trans part, phrase⟩

/-- A part of an expression has a phrase within the phrase of the whole. -/
theorem IsExpr.holdsPhrase_of_subterm {u e : Expr} (sub : Expr.Subterm u e) {ts : List (Token π)}
    (h : IsExpr ts e) : HoldsPhrase u ts := by
  induction sub generalizing ts with
  | self => exact ⟨ts, List.infix_refl ts, h⟩
  | argument member _ ih =>
    obtain ⟨t, p, us, q, rfl, -, -, -, -, -, ⟨-, rfl⟩ | ⟨first, others, rfl, phrases⟩⟩ :=
      isExpr_call_iff.1 h
    · cases member
    · obtain ⟨vs, within, phrase⟩ := exists_of_separated phrases member
      exact (ih phrase).within (within.trans ⟨[t, p], [q], by simp⟩)
  | negated _ ih =>
    obtain ⟨t, us, rfl, -, inner, -⟩ := isExpr_not_iff.1 h
    exact (ih inner).within (List.suffix_cons t us).isInfix
  | grouped _ ih =>
    obtain ⟨p, us, q, rfl, -, inner, -⟩ := isExpr_group_iff.1 h
    exact (ih inner).within ⟨[p], [q], by simp⟩
  | compareLeft _ ih =>
    obtain ⟨us, t, vs, rfl, -, -, ⟨left, -⟩, -⟩ := isExpr_comparison_iff.1 h
    exact (ih left).within (List.prefix_append us (t :: vs)).isInfix
  | compareRight _ ih =>
    obtain ⟨us, t, vs, rfl, -, -, -, right, -⟩ := isExpr_comparison_iff.1 h
    exact (ih right).within ⟨us ++ [t], [], by simp⟩
  | connectLeft _ ih =>
    obtain ⟨us, t, vs, rfl, -, ⟨left, -⟩, -⟩ := isExpr_logical_iff.1 h
    exact (ih left).within (List.prefix_append us (t :: vs)).isInfix
  | connectRight _ ih =>
    obtain ⟨us, t, vs, rfl, -, -, right, -⟩ := isExpr_logical_iff.1 h
    exact (ih right).within ⟨us ++ [t], [], by simp⟩
  | listed _ ih =>
    obtain ⟨us, t, p, vs, q, value, others, rfl, ⟨left, -⟩, -⟩ := isExpr_inList_iff.1 h
    exact (ih left).within (List.prefix_append us _).isInfix

end Parts

/-! ## Tokens in a new place -/

theorem StandBefore.of_infix {ts us : List (Token Gap)} {rest : List Char} (h : StandBefore ts rest)
    (part : us <:+: ts) : ∃ rest', StandBefore us rest' := by
  obtain ⟨vs, ws, rfl⟩ := part
  have first := (standBefore_append.1 h).1
  exact ⟨_, (standBefore_append.1 first).2⟩

/-- What comes after a closing parenthesis does not matter. -/
theorem standBefore_of_closeParen {ts : List (Token Gap)} {q : Token Gap} {rest : List Char}
    (closes : q.kind = .closeParen) (h : StandBefore (ts ++ [q]) rest) (rest' : List Char) :
    StandBefore (ts ++ [q]) rest' := by
  induction ts with
  | nil =>
    obtain ⟨⟨gap, continues, lexeme, -⟩, -⟩ := h
    refine ⟨⟨gap, continues, lexeme, fun d _ => ?_⟩, trivial⟩
    rw [closes] at lexeme
    exact lexeme.continues_closeParen d
  | cons t ts ih =>
    rw [List.cons_append, StandBefore] at h ⊢
    obtain ⟨first, others⟩ := h
    refine ⟨first.of_startsLike fun d head => .inl ?_, ih others⟩
    -- the source of the other tokens is not empty, so the next character is one of theirs
    obtain ⟨⟨-, _, lexeme, -⟩, -⟩ := (standBefore_append.1 others).2
    obtain ⟨c, tail, eq⟩ := lexeme.exists_cons
    obtain ⟨d', ds, source⟩ : ∃ d ds, (Token.sourceOf (ts ++ [q])).toList = d :: ds :=
      List.exists_cons_of_ne_nil (by simp [Token.toList_sourceOf, eq])
    rw [source] at head ⊢
    exact head

/-- The token is read where it stands, if it ends there. -/
structure Token.IsRead (t : Token Gap) : Prop where
  gap : ∀ c ∈ t.place.toList, isBlank c = true
  lexeme : ∃ continues, Lexeme t.kind t.text.toList continues

theorem Token.StandsBefore.isRead {t : Token Gap} {rest : List Char} (h : t.StandsBefore rest) :
    t.IsRead := by
  obtain ⟨gap, continues, lexeme, -⟩ := h
  exact ⟨gap, continues, lexeme⟩

/-- The token ends the token before it. -/
def Token.Breaks (t : Token Gap) : Prop :=
  ∃ c cs, t.place.toList ++ t.text.toList = c :: cs ∧ endsToken c = true

theorem Token.breaks_of_gap {t : Token Gap} (h : t.place = " ") : t.Breaks :=
  ⟨' ', t.text.toList, by simp [h], by decide⟩

theorem Starts.apart {us : List (Token Gap)} (h : Starts Token.Breaks us) (rest : List Char) :
    Apart ((Token.sourceOf us).toList ++ rest) := by
  obtain ⟨t, vs, rfl, c, cs, first, ends⟩ := h
  simp only [Token.toList_sourceOf, List.flatMap_cons, first]
  exact apart_cons ends

/-- The tokens are read where they stand, if the last of them ends there. -/
def Stand (ts : List (Token Gap)) : Prop := ∀ rest, Apart rest → StandBefore ts rest

theorem stand_single {t : Token Gap} (h : t.IsRead) : Stand [t] := by
  intro rest apart
  obtain ⟨gap, continues, lexeme⟩ := h
  exact ⟨⟨gap, continues, lexeme, fun d head => lexeme.continues_eq_false (apart d head)⟩, trivial⟩

theorem Stand.append {ts us : List (Token Gap)} (h : Stand ts) (others : Stand us)
    (breaks : Starts Token.Breaks us) : Stand (ts ++ us) := by
  intro rest apart
  exact standBefore_append.2 ⟨h _ (breaks.apart rest), others rest apart⟩

theorem Stand.enclosed {ts : List (Token Gap)} (h : Stand ts) {gap : String}
    (blank : ∀ c ∈ gap.toList, isBlank c = true) :
    Stand (⟨gap, .openParen, "("⟩ :: (ts ++ [⟨"", .closeParen, ")"⟩])) := by
  have closing : Stand [⟨"", .closeParen, ")"⟩] := stand_single ⟨nofun, _, .closeParen⟩
  have breaks : Starts Token.Breaks [⟨"", .closeParen, ")"⟩] :=
    ⟨_, [], rfl, ')', [], rfl, by decide⟩
  have opening : Lexeme .openParen "(".toList fun _ => false := .openParen
  intro rest apart
  exact ⟨⟨blank, _, opening, fun _ _ => rfl⟩, h.append closing breaks rest apart⟩

/-- A word that is no name of a spatial type. -/
def isPlainWord : List Char → Bool
  | [] => false
  | c :: run => isWordStart c && run.all isWordChar && !isSpatialName (c :: run)

theorem isRead_of_isPlainWord {w : String} (h : isPlainWord w.toList = true) {gap : String}
    (blank : ∀ c ∈ gap.toList, isBlank c = true) : Token.IsRead ⟨gap, .word, w⟩ := by
  refine ⟨blank, isWordChar, ?_⟩
  cases eq : w.toList with
  | nil => simp [eq, isPlainWord] at h
  | cons c run =>
    simp only [eq, isPlainWord, Bool.and_eq_true, Bool.not_eq_true', List.all_eq_true] at h
    exact .word ⟨h.1.1, h.1.2⟩ h.2

theorem Stand.operator {ts us : List (Token Gap)} (h : Stand ts) {w : String}
    (isWord : isPlainWord w.toList = true) (others : Stand us) (first : Starts (·.place = " ") us) :
    Stand (ts ++ ⟨" ", .word, w⟩ :: us) := by
  have word : Stand [⟨" ", .word, w⟩] :=
    stand_single (isRead_of_isPlainWord isWord isBlank_of_mem_space)
  obtain ⟨t, vs, rfl, gap⟩ := first
  exact h.append (word.append others ⟨t, vs, rfl, Token.breaks_of_gap gap⟩)
    ⟨_, _, rfl, Token.breaks_of_gap rfl⟩

/-! ## The tokens of a printed expression -/

/-- The tokens are a phrase of the expression, and they spell its text after the gap. -/
structure Prints (gap : String) (e : Expr) (ts : List (Token Gap)) : Prop where
  phrase : IsExpr ts e
  source : (Token.sourceOf ts).toList = gap.toList ++ e.text.toList
  stand : Stand ts
  first : Starts (·.place = gap) ts

theorem isKeyword_self (gap w : String) : Token.isKeyword ⟨gap, .word, w⟩ w = true := by
  simp [Token.isKeyword, sameName]

theorem isPlainWord_of_mem {op : String} (h : op ∈ comparisonOperators) :
    isPlainWord op.toList = true := by
  have all : ∀ op ∈ comparisonOperators, isPlainWord op.toList = true := by decide +kernel
  exact all op h

theorem isPlainWord_connective (op : Connective) : isPlainWord op.text.toList = true := by
  cases op <;> decide +kernel

/-- The values of a list are read again if they are written without blanks. -/
theorem StandBefore.exists_listTokens {vs : List (Token Gap)} {value : String}
    {others : List String} {rest : List Char} (h : StandBefore vs rest)
    (phrases : Separated isComma IsListValue vs (value, others)) :
    ∃ ts, Separated isComma IsListValue ts (value, others) ∧ Stand ts ∧
      (Token.sourceOf ts).toList = (",".intercalate (value :: others)).toList := by
  have lexeme : Lexeme .comma ",".toList fun _ => false := .comma
  induction others generalizing vs value with
  | nil =>
    obtain ⟨t, rfl, rfl, kind⟩ := isListValue_iff.1 (separated_single_iff.1 phrases)
    have isRead : Token.IsRead ⟨"", t.kind, t.text⟩ := ⟨nofun, h.1.isRead.lexeme⟩
    refine ⟨[⟨"", t.kind, t.text⟩], separated_single_iff.2 ?_, stand_single isRead, ?_⟩
    · exact isListValue_iff.2 ⟨_, rfl, rfl, kind⟩
    · simp [Token.toList_sourceOf_cons]
  | cons value' others ih =>
    obtain ⟨us, c, ws, rfl, item, -, following⟩ := separated_cons_iff.1 phrases
    obtain ⟨t, rfl, rfl, kind⟩ := isListValue_iff.1 item
    obtain ⟨first, -, standBefore⟩ := h
    obtain ⟨ts, phrases, stand, source⟩ := ih standBefore following
    have isRead : Token.IsRead ⟨"", t.kind, t.text⟩ := ⟨nofun, first.isRead.lexeme⟩
    have others : Stand (⟨"", .comma, ","⟩ :: ts) := fun rest apart =>
      ⟨⟨nofun, _, lexeme, fun _ _ => rfl⟩, stand rest apart⟩
    refine ⟨[⟨"", t.kind, t.text⟩] ++ ⟨"", .comma, ","⟩ :: ts, separated_cons_iff.2 ?_,
      (stand_single isRead).append others ⟨_, ts, rfl, ',', [], rfl, by decide⟩, ?_⟩
    · exact ⟨_, _, ts, rfl, isListValue_iff.2 ⟨_, rfl, rfl, kind⟩, rfl, phrases⟩
    · simp only [Token.toList_sourceOf_append, Token.toList_sourceOf_cons, source,
        String.toList_intercalate, List.map_cons, List.intercalate_cons_cons]
      simp

theorem prints_primary {text gap : String} {ts : List (Token Gap)} {rest : List Char}
    (h : IsExpr ts (.primary text)) (stand : StandBefore ts rest)
    (blank : ∀ c ∈ gap.toList, isBlank c = true) : ∃ us, Prints gap (.primary text) us := by
  obtain ⟨t, rfl, rfl, kind⟩ := isExpr_primary_iff.1 h
  have kind' : Token.IsName ⟨gap, t.kind, t.text⟩ ∨ t.kind = .literal :=
    kind.imp_left fun isName => ⟨isName.word, isName.notReserved⟩
  have isRead : Token.IsRead ⟨gap, t.kind, t.text⟩ := ⟨blank, stand.1.isRead.lexeme⟩
  exact ⟨_, isExpr_primary_iff.2 ⟨⟨gap, t.kind, t.text⟩, rfl, rfl, kind'⟩,
    by simp [Token.toList_sourceOf, Expr.text], stand_single isRead, _, _, rfl, rfl⟩

/-- A call is printed by the tokens that it was read from. -/
theorem prints_call {name raw gap : String} {args : List Expr} {ts : List (Token Gap)}
    {rest : List Char} (h : IsExpr ts (.call name args raw)) (stand : StandBefore ts rest)
    (blank : ∀ c ∈ gap.toList, isBlank c = true) : ∃ us, Prints gap (.call name args raw) us := by
  obtain ⟨t, p, us, q, rfl, isName, rfl, opens, closes, rfl, phrases⟩ := isExpr_call_iff.1 h
  have isName' : Token.IsName ⟨gap, t.kind, t.text⟩ := ⟨isName.word, isName.notReserved⟩
  refine ⟨⟨gap, t.kind, t.text⟩ :: p :: (us ++ [q]), isExpr_call_iff.2
    ⟨_, p, us, q, rfl, isName', rfl, opens, closes, rfl, phrases⟩, ?_, fun rest' _ => ?_,
    _, _, rfl, rfl⟩
  · simp [Token.toList_sourceOf, Expr.text]
  · have stand' : StandBefore (t :: p :: us ++ [q]) rest' :=
      standBefore_of_closeParen closes stand rest'
    obtain ⟨⟨-, lexeme⟩, others⟩ := stand'
    exact ⟨⟨blank, lexeme⟩, others⟩

theorem IsExpr.exists_prints {e : Expr} {ts : List (Token Gap)} {rest : List Char} (h : IsExpr ts e)
    (stand : StandBefore ts rest) {gap : String} (blank : ∀ c ∈ gap.toList, isBlank c = true) :
    ∃ us, Prints gap e us := by
  have noBlank : ∀ c ∈ "".toList, isBlank c = true := nofun
  have oneBlank : ∀ c ∈ " ".toList, isBlank c = true := isBlank_of_mem_space
  induction e generalizing ts rest gap with
  | primary text => exact prints_primary h stand blank
  | call name args raw _ => exact prints_call h stand blank
  | not e ih =>
    obtain ⟨t, us, rfl, -, inner, rank⟩ := isExpr_not_iff.1 h
    obtain ⟨vs, phrase, source, stand, first⟩ := ih inner stand.2 oneBlank
    have word : Stand [⟨gap, .word, "not"⟩] :=
      stand_single (isRead_of_isPlainWord (by decide +kernel) blank)
    refine ⟨_, isExpr_not_iff.2 ⟨⟨gap, .word, "not"⟩, vs, rfl, isKeyword_self _ _, phrase, rank⟩,
      ?_, word.append stand ?_, _, _, rfl, rfl⟩
    · simp [Token.toList_sourceOf_cons, source, Expr.text]
    · obtain ⟨t, vs, rfl, gap⟩ := first
      exact ⟨t, vs, rfl, Token.breaks_of_gap gap⟩
  | group e ih =>
    obtain ⟨p, us, q, rfl, -, inner, -⟩ := isExpr_group_iff.1 h
    obtain ⟨vs, phrase, source, stand, -⟩ :=
      ih inner (standBefore_append.1 stand.2).1 noBlank
    refine ⟨_, isExpr_group_iff.2 ⟨⟨gap, .openParen, "("⟩, vs, ⟨"", .closeParen, ")"⟩, rfl, rfl,
      phrase, rfl⟩, ?_, stand.enclosed blank, _, _, rfl, rfl⟩
    simp [Token.toList_sourceOf_cons, Token.toList_sourceOf_append, source, Expr.text]
  | comparison op l r ihl ihr =>
    obtain ⟨us, t, vs, rfl, member, -, ⟨left, rankl⟩, right, rankr⟩ := isExpr_comparison_iff.1 h
    obtain ⟨standl, -, standr⟩ := standBefore_append.1 stand
    obtain ⟨us', phrasel, sourcel, standl, firstl⟩ := ihl left standl blank
    obtain ⟨vs', phraser, sourcer, standr, firstr⟩ := ihr right standr oneBlank
    refine ⟨us' ++ ⟨" ", .word, op⟩ :: vs', isExpr_comparison_iff.2 ⟨us', _, vs', rfl, member,
      isKeyword_self _ _, ⟨phrasel, rankl⟩, phraser, rankr⟩, ?_,
      standl.operator (isPlainWord_of_mem member) standr firstr, firstl.append _⟩
    simp [Token.toList_sourceOf_cons, Token.toList_sourceOf_append, sourcel, sourcer, Expr.text]
  | logical op l r ihl ihr =>
    obtain ⟨us, t, vs, rfl, -, ⟨left, rankl⟩, right, rankr⟩ := isExpr_logical_iff.1 h
    obtain ⟨standl, -, standr⟩ := standBefore_append.1 stand
    obtain ⟨us', phrasel, sourcel, standl, firstl⟩ := ihl left standl blank
    obtain ⟨vs', phraser, sourcer, standr, firstr⟩ := ihr right standr oneBlank
    refine ⟨us' ++ ⟨" ", .word, op.text⟩ :: vs', isExpr_logical_iff.2 ⟨us', _, vs', rfl,
      isKeyword_self _ _, ⟨phrasel, rankl⟩, phraser, rankr⟩, ?_,
      standl.operator (isPlainWord_connective op) standr firstr, firstl.append _⟩
    simp [Token.toList_sourceOf_cons, Token.toList_sourceOf_append, sourcel, sourcer, Expr.text]
  | inList l values ih =>
    obtain ⟨us, t, p, vs, q, value, others, rfl, ⟨left, rank⟩, -, -, -, rfl, phrases⟩ :=
      isExpr_inList_iff.1 h
    obtain ⟨standl, -, -, standr⟩ := standBefore_append.1 stand
    obtain ⟨us', phrase, sourcel, standl, first⟩ := ih left standl blank
    obtain ⟨vs', phrases, standr, sourcer⟩ :=
      (standBefore_append.1 standr).1.exists_listTokens phrases
    refine ⟨us' ++ ⟨" ", .word, "in"⟩ :: ⟨" ", .openParen, "("⟩ :: (vs' ++ [⟨"", .closeParen, ")"⟩]),
      isExpr_inList_iff.2 ⟨us', _, _, vs', _, value, others, rfl, ⟨phrase, rank⟩,
        isKeyword_self _ _, rfl, rfl, rfl, phrases⟩, ?_,
      standl.operator (by decide +kernel) (standr.enclosed oneBlank) ⟨_, _, rfl, rfl⟩,
      first.append _⟩
    simp [Token.toList_sourceOf_cons, Token.toList_sourceOf_append, sourcel, sourcer, Expr.text]

/-! ## Reading it again -/

theorem toLower_ne_dollar {c : Char} (h : c ≠ '$') : c.toLower ≠ '$' := by
  intro eq
  unfold Char.toLower at eq
  split at eq
  · next upper =>
    have low : 65 ≤ c.val.toNat := upper.1
    have high : c.val.toNat ≤ 90 := upper.2
    have code : (c.val + 32).toNat = 36 := congrArg (·.val.toNat) eq
    have offset : (32 : UInt32).toNat = 32 := rfl
    rw [UInt32.toNat_add, offset] at code
    omega
  · exact h eq

theorem Lexeme.ne_dollar {kind : TokenKind} {c : Char} {tail : List Char}
    {continues : Char → Bool} (h : Lexeme kind (c :: tail) continues) : c ≠ '$' := by
  rintro rfl
  have word : isWordStart '$' = false := by decide
  cases h with
  | number text => simp [IsNumberText, startsNumber] at text
  | word text | spatialName text | spatial _ text => simp [IsWordText, word] at text

theorem dropFilterName_eq_self {text : String}
    (first : ∀ c ∈ text.toList.head?, isBlank c = false ∧ c ≠ '$') : dropFilterName text = text := by
  have blanks : ([] ++ text.toList).dropWhile isBlank = text.toList :=
    dropWhile_append_eq_right nofun fun c head => (first c head).1
  have name : dropName? "$filter=".toList text.toList = none := by
    have chars : "$filter=".toList = '$' :: "filter=".toList := rfl
    rw [chars]
    cases eq : text.toList with
    | nil => rfl
    | cons c rest =>
      have other : '$'.toLower ≠ c.toLower := (toLower_ne_dollar (first c (by simp [eq])).2).symm
      exact if_neg (by simpa using other)
  rw [List.nil_append] at blanks
  simp only [dropFilterName, dropBlanks, blanks, name, Option.getD_none, String.ofList_toList]

theorem Prints.dropFilterName_eq {e : Expr} {ts : List (Token Gap)} (h : Prints "" e ts) :
    dropFilterName e.text = e.text := by
  obtain ⟨-, source, stand, t, us, rfl, gap⟩ := h
  obtain ⟨⟨-, continues, lexeme, -⟩, -⟩ := stand [] apart_nil
  obtain ⟨c, tail, eq⟩ := lexeme.exists_cons
  rw [eq] at lexeme
  have text : e.text.toList = c :: (tail ++ (Token.sourceOf us).toList) := by
    simpa [Token.toList_sourceOf_cons, gap, eq] using source.symm
  refine dropFilterName_eq_self fun d head => ?_
  obtain rfl : c = d := by simpa [text] using head
  exact ⟨lexeme.isBlank_eq_false, lexeme.ne_dollar⟩

theorem Prints.parse_eq {e : Expr} {ts : List (Token Gap)} (h : Prints "" e ts)
    (nesting : e.nesting ≤ maxDepth) : Expr.parse e.text = .ok e := by
  have stand : StandBefore ts [] := h.stand [] apart_nil
  have scanned : spacedScan e.text.toList = .ok (ts, "") :=
    spacedScan_eq_ok_iff.2 ⟨by simpa using h.source.symm, stand, nofun⟩
  exact Expr.parse_eq_ok_iff.2 ⟨ts, "", h.dropFilterName_eq.symm ▸ scanned, h.phrase, nesting⟩

theorem isRead_of_spacedTokens {text : String} {ts : List (Token Gap)}
    (h : spacedTokens text = .ok ts) : ∀ t ∈ ts, t.IsRead := by
  obtain ⟨blanks, scanned⟩ := exists_scan_of_spacedTokens h
  have stand := (standBefore_of_spacedScan scanned).2.1
  clear scanned h
  generalize blanks.toList = rest at stand
  induction ts with
  | nil => simp
  | cons t ts ih => exact List.forall_mem_cons.2 ⟨stand.1.isRead, ih stand.2⟩

theorem isRead_of_tokenize {text : String} {ts : List (Token (Span text))}
    (h : tokenize text = .ok ts) : ∀ t ∈ ts, Token.IsRead ⟨"", t.kind, t.text⟩ := by
  intro t member
  obtain ⟨us, spaced, rfl⟩ := tokenize_eq_ok_iff.1 h
  obtain ⟨u, member', kind, text⟩ := exists_mem_of_mem_placedFrom member
  rw [← kind, ← text]
  exact ⟨nofun, (isRead_of_spacedTokens spaced u member').lexeme⟩

theorem Expr.exists_phrase_of_parse {text : String} {e : Expr} (h : parse text = .ok e) :
    ∃ ts rest, IsExpr ts e ∧ StandBefore ts rest ∧ e.nesting ≤ maxDepth := by
  obtain ⟨ts, blanks, scanned, phrase, nesting⟩ := parse_eq_ok_iff.1 h
  exact ⟨ts, _, phrase, (standBefore_of_spacedScan scanned).2.1, nesting⟩

/-- Every part of a filter, printed and read again, is the same expression. -/
theorem Expr.parse_text_of_subterm {text : String} {e u : Expr} (parsed : parse text = .ok e)
    (sub : Subterm u e) : parse u.text = .ok u := by
  obtain ⟨ts, rest, phrase, stand, nesting⟩ := exists_phrase_of_parse parsed
  obtain ⟨us, part, phrase'⟩ := phrase.holdsPhrase_of_subterm sub
  obtain ⟨rest', stand'⟩ := stand.of_infix part
  have noBlank : ∀ c ∈ "".toList, isBlank c = true := nofun
  obtain ⟨vs, prints⟩ := phrase'.exists_prints stand' noBlank
  exact prints.parse_eq (Nat.le_trans sub.nesting_le nesting)

/-- Printing drops the blanks around the values of a list, and keeps those within a call. -/
theorem Expr.parse_text_of_subterm_list :
    parse "f( x ) in (1,'a b')" =
      .ok (.inList (.call "f" [.primary "x"] "f( x )") ["1", "'a b'"]) := by
  have tokens : spacedTokens (dropFilterName "$filter=NOT f( x )  IN ( 1 , 'a b' )") =
      .ok [⟨"", .word, "NOT"⟩, ⟨" ", .word, "f"⟩, ⟨"", .openParen, "("⟩, ⟨" ", .word, "x"⟩,
        ⟨" ", .closeParen, ")"⟩, ⟨"  ", .word, "IN"⟩, ⟨" ", .openParen, "("⟩, ⟨" ", .literal, "1"⟩,
        ⟨" ", .comma, ","⟩, ⟨" ", .literal, "'a b'"⟩, ⟨" ", .closeParen, ")"⟩] :=
    eq_ok_of_toOption (by decide +kernel)
  have call : IsExpr [⟨" ", .word, "f"⟩, ⟨"", .openParen, "("⟩, ⟨" ", .word, "x"⟩,
      ⟨" ", .closeParen, ")"⟩] (.call "f" [.primary "x"] "f( x )") :=
    isExpr_call_one ⟨rfl, by decide⟩ rfl (isExpr_word _ (by decide)) rfl (by decide)
  have listed : IsExpr [⟨" ", .word, "f"⟩, ⟨"", .openParen, "("⟩, ⟨" ", .word, "x"⟩,
      ⟨" ", .closeParen, ")"⟩, ⟨"  ", .word, "IN"⟩, ⟨" ", .openParen, "("⟩, ⟨" ", .literal, "1"⟩,
      ⟨" ", .comma, ","⟩, ⟨" ", .literal, "'a b'"⟩, ⟨" ", .closeParen, ")"⟩]
      (.inList (.call "f" [.primary "x"] "f( x )") ["1", "'a b'"]) :=
    isExpr_inList_two call rfl (by decide) rfl rfl rfl rfl rfl
  have phrase := isExpr_not_iff.2 ⟨⟨"", .word, "NOT"⟩, _, rfl, by decide, listed, by decide⟩
  have parsed : parse "$filter=NOT f( x )  IN ( 1 , 'a b' )" =
      .ok (.not (.inList (.call "f" [.primary "x"] "f( x )") ["1", "'a b'"])) :=
    parse_of_isExpr tokens phrase (by decide)
  have printed : (inList (.call "f" [.primary "x"] "f( x )") ["1", "'a b'"]).text =
      "f( x ) in (1,'a b')" := by decide +kernel
  rw [← printed]
  exact parse_text_of_subterm parsed (.negated .self)

end FilterSql.Filter
