import FilterSql.Proofs.AlikeTokens
import FilterSql.Proofs.LocatedErrors

/-!
# Where a filter is refused

A run of tokens is viable if a filter starts with it. A text that has tokens and is not a filter is
refused at the end of its longest viable run, and the error says how: the text ends there, a list is
closed where it opens, the next token is nested too deeply, or it does not fit.

## Main statements

* `Expr.parse_eq_error_of_tokens`: the error of a text by its longest viable run.
-/

namespace FilterSql.Filter

open Text

section Runs

variable {π π' : Type} [Place π] [Place π'] {n : Nat} {ts : List (Token π)} {us : List (Token π')}

/-! ## Places do not matter -/

omit [Place π] [Place π'] in
theorem forall₂_like_of_lexeme (h : us.map Token.lexeme = ts.map Token.lexeme) :
    List.Forall₂ Token.Like ts us := by
  have same : List.Forall₂ (fun (t : Token π) (u : Token π') => t.lexeme = u.lexeme) ts us := by
    rw [← List.forall₂_map_right_iff, ← List.forall₂_map_left_iff, List.forall₂_eq_eq_eq]
    exact h.symm
  refine same.imp fun t u eq => ?_
  obtain ⟨kind, text⟩ := Prod.mk.inj eq
  exact ⟨kind.symm, text ▸ sameName_refl t.text⟩

theorem Within.exists_of_lexeme {e : Expr} (h : Within n IsExpr ts e)
    (same : us.map Token.lexeme = ts.map Token.lexeme) :
    ∃ e', Within n IsExpr us e' ∧
      e.Alike (fun _ _ => True) (fun _ _ => True) (fun _ _ => True) e' := by
  have read := (exprOver_reads (unary_reads n)).complete h (Parser.before_nil AfterExpr)
  rw [List.append_nil] at read
  have outcome := exprOver_inStep correspond_like (unary_inStep correspond_like n)
    (forall₂_like_of_lexeme same)
  rw [read] at outcome
  obtain ⟨⟨e', rest⟩, read', alike, rests⟩ := outcome.of_ok
  obtain rfl : rest = [] := by
    cases rests
    rfl
  obtain ⟨taken, eq, phrase⟩ := (exprOver_reads (unary_reads n)).sound read'
  rw [List.append_nil] at eq
  exact ⟨e', eq ▸ phrase, alike⟩

theorem OpensList.of_lexeme (h : OpensList ts) (same : us.map Token.lexeme = ts.map Token.lexeme) :
    OpensList us := by
  obtain ⟨before, operand, e, t, p, rfl, phrase, isIn, opens⟩ := h
  simp only [List.map_append, List.map_cons, List.map_nil] at same
  obtain ⟨before', others, rfl, -, others'⟩ := List.map_eq_append_iff.1 same
  obtain ⟨operand', ends, rfl, sameOperand, last⟩ := List.map_eq_append_iff.1 others'
  obtain ⟨t', _, rfl, sameIn, last⟩ := List.map_eq_cons_iff.1 last
  obtain ⟨p', _, rfl, sameParen, last⟩ := List.map_eq_cons_iff.1 last
  obtain rfl := List.map_eq_nil_iff.1 last
  obtain ⟨isExpr, rank⟩ := isPrimary_iff_rank.1 phrase
  have within : Within e.nesting IsExpr operand e := ⟨isExpr, Nat.le_refl _⟩
  obtain ⟨e', ⟨isExpr', -⟩, alike⟩ := within.exists_of_lexeme sameOperand
  have isPrimary := isPrimary_iff_rank.2 ⟨isExpr', alike.rank_eq.trans rank⟩
  refine ⟨before', operand', e', t', p', rfl, isPrimary, ?_, ?_⟩
  · obtain ⟨kind, text⟩ := Prod.mk.inj sameIn
    rwa [Token.isKeyword, kind, text]
  · exact (Prod.mk.inj sameParen).1.trans opens

/-! ## Viable runs -/

omit [Place π] in
/-- The run is the start of the tokens of a filter with at most `n` levels of negations, groups and
calls. Places do not matter. -/
def Viable (n : Nat) (ts : List (Token π)) : Prop :=
  ∃ (text : String) (us more : List (Token (Span (dropFilterName text)))) (e : Expr),
    tokenize (dropFilterName text) = .ok (us ++ more) ∧
    us.map Token.lexeme = ts.map Token.lexeme ∧ IsExpr (us ++ more) e ∧ e.nesting ≤ n

omit [Place π] in
theorem Viable.mono {m : Nat} (h : Viable n ts) (le : n ≤ m) : Viable m ts := by
  obtain ⟨text, us, more, e, tokens, same, phrase, nesting⟩ := h
  exact ⟨text, us, more, e, tokens, same, phrase, Nat.le_trans nesting le⟩

omit [Place π] [Place π'] in
theorem Viable.of_lexeme (h : Viable n ts) (same : us.map Token.lexeme = ts.map Token.lexeme) :
    Viable n us := by
  obtain ⟨text, vs, more, e, tokens, same', filter⟩ := h
  exact ⟨text, vs, more, e, tokens, same'.trans same.symm, filter⟩

/-- The first `k` tokens are viable, and no more of them are. -/
structure LongestViable (ts : List (Token π)) (k : Nat) : Prop where
  le : k ≤ ts.length
  viable : Viable maxDepth (ts.take k)
  longest : ∀ j, k < j → j ≤ ts.length → ¬Viable maxDepth (ts.take j)

omit [Place π] [Place π'] in
theorem LongestViable.of_lexeme {k : Nat} (h : LongestViable ts k)
    (same : us.map Token.lexeme = ts.map Token.lexeme) : LongestViable us k := by
  have length : us.length = ts.length := by simpa using congrArg List.length same
  have taken (j : Nat) : (us.take j).map Token.lexeme = (ts.take j).map Token.lexeme := by
    rw [List.map_take, List.map_take, same]
  refine ⟨length ▸ h.le, h.viable.of_lexeme (taken k), fun j lt le viable => ?_⟩
  exact h.longest j lt (length ▸ le) (viable.of_lexeme (taken j).symm)

end Runs

/-- A viable run can be completed, whatever its places are. -/
theorem Viable.exists_readFilter {n : Nat} {ts : List (Token Gap)} (h : Viable n ts) :
    ∃ more e, readFilter n (ts ++ more) = .ok (e, []) := by
  obtain ⟨text, us, more, e, -, same, phrase⟩ := h
  let more' : List (Token Gap) := more.map fun t => ⟨"", t.kind, t.text⟩
  have same' : (ts ++ more').map Token.lexeme = (us ++ more).map Token.lexeme := by
    simp [more', same, Token.lexeme]
  obtain ⟨e', phrase', -⟩ := Within.exists_of_lexeme phrase same'
  have read := (exprOver_reads (unary_reads n)).complete phrase' (Parser.before_nil AfterExpr)
  rw [List.append_nil] at read
  exact ⟨more', e', readFilter_eq_ok_iff.2 read⟩

/-! ## Writing tokens -/

theorem Spaced.stand {ts : List (Token Gap)} (h : Spaced ts) : Stand ts := by
  induction ts with
  | nil => exact fun _ _ => trivial
  | cons t ts ih =>
    obtain ⟨first, others⟩ := List.forall_mem_cons.1 h
    cases ts with
    | nil => exact stand_single first.1
    | cons u us =>
      have next := others u (by simp)
      exact (stand_single first.1).append (ih others) ⟨u, us, rfl, Token.breaks_of_gap next.2⟩

theorem dropFilterName_append (text : String) : dropFilterName ("$filter=" ++ text) = text := by
  have blanks : dropBlanks ("$filter=".toList ++ text.toList) = "$filter=".toList ++ text.toList :=
    List.dropWhile_cons_of_neg (by decide)
  simp only [dropFilterName, String.toList_append, blanks, dropName?_append rfl, Option.getD_some,
    String.ofList_toList]

/-- The token with one blank before it. -/
def Token.spaced (t : Token Gap) : Token Gap := { t with place := " " }

/-- The start of a phrase is viable, if its tokens can be written at all. -/
theorem viable_of_completes {n : Nat} {ts : List (Token Gap)} (isRead : ∀ t ∈ ts, t.IsRead)
    (h : Completes (fun m => Within m IsExpr) n ts) : Viable n ts := by
  obtain ⟨more, e, spaced, phrase⟩ := h
  let us := ts.map Token.spaced ++ more
  have written : Spaced us := by
    refine List.forall_mem_append.2 ⟨fun u member => ?_, spaced⟩
    obtain ⟨t, written, rfl⟩ := List.mem_map.1 member
    exact ⟨⟨isBlank_of_mem_space, (isRead t written).lexeme⟩, rfl⟩
  have scanned : spacedScan (Token.sourceOf us).toList = .ok (us, "") :=
    spacedScan_eq_ok_iff.2 ⟨by simp, written.stand [] apart_nil, by simp⟩
  have body := dropFilterName_append (Token.sourceOf us)
  have tokens : tokenize (dropFilterName ("$filter=" ++ Token.sourceOf us)) =
      .ok (placedFrom _ 0 us) := by
    rw [tokenize_eq, spacedTokens, body, scanned]
    rfl
  have same : (placedFrom (dropFilterName ("$filter=" ++ Token.sourceOf us)) 0 us).map Token.lexeme =
      (ts ++ more).map Token.lexeme := by
    simp [us, Token.lexeme, Token.spaced]
  obtain ⟨e', ⟨phrase', nesting⟩, -⟩ := Within.exists_of_lexeme phrase same
  rw [← List.take_append_drop ts.length (placedFrom _ 0 us)] at tokens phrase'
  refine ⟨_, _, _, e', tokens, ?_, phrase', nesting⟩
  rw [List.map_take, same, List.map_append, List.take_left' (by simp)]

/-! ## The error of a text -/

theorem not_viable_of_fails {n : Nat} {taken rest : List (Token Gap)} {t : Token Gap}
    {err : SyntaxError} (fails : ∀ rest, readFilter n (taken ++ t :: rest) = .error err) :
    ¬Viable n (taken ++ t :: rest) := by
  intro viable
  obtain ⟨more, e, read⟩ := viable.exists_readFilter
  rw [List.append_assoc, List.cons_append, fails] at read
  cases read

theorem longestViable_of_fails {taken rest : List (Token Gap)} {t : Token Gap} {err : SyntaxError}
    (viable : Viable maxDepth taken)
    (fails : ∀ rest, readFilter maxDepth (taken ++ t :: rest) = .error err) :
    LongestViable (taken ++ t :: rest) taken.length where
  le := by simp
  viable := by rwa [List.take_left]
  longest j lt _ := by
    obtain ⟨d, rfl⟩ : ∃ d, j = taken.length + (d + 1) := ⟨j - taken.length - 1, by omega⟩
    rw [List.take_length_add_append, List.take_succ_cons]
    exact not_viable_of_fails fails

theorem Expr.ofTokens_eq_error {ts : List (Token Gap)} {err : SyntaxError}
    (isRead : ∀ t ∈ ts, t.IsRead) (failed : ofTokens ts = .error err) :
    ∃ k, LongestViable ts k ∧ (k = ts.length → err = .failedToParse) ∧
      ∀ t, ts[k]? = some t →
        (t.kind = .closeParen ∧ OpensList (ts.take k) → err = .failedToParse) ∧
        (¬(t.kind = .closeParen ∧ OpensList (ts.take k)) →
          ((∃ n, Viable n (ts.take (k + 1))) → err = .tooDeep maxDepth) ∧
          ((¬∃ n, Viable n (ts.take (k + 1))) → err = .unexpectedToken t.text)) := by
  cases ofTokens_fault failed with
  | ended start =>
    refine ⟨ts.length, ⟨Nat.le_refl _, ?_, fun j lt le => by omega⟩, fun _ => rfl, ?_⟩
    · rw [List.take_length]
      exact viable_of_completes isRead start
    · intro t found
      simp at found
  | @misfit taken rest t err start misfit fails =>
    have viable := viable_of_completes (fun t member => isRead t (by simp [member])) start
    have never : ¬∃ n, Viable n (taken ++ [t]) := by
      rintro ⟨n, viable⟩
      have le : maxDepth ≤ max n maxDepth := Nat.le_max_right _ _
      exact not_viable_of_fails (fails _ le) (viable.mono (Nat.le_max_left n maxDepth))
    refine ⟨taken.length, longestViable_of_fails viable (fails maxDepth (Nat.le_refl _)), by simp,
      ?_⟩
    intro u found
    obtain rfl : t = u := by simpa using found
    rw [List.take_left, List.take_length_add_append, List.take_succ_cons, List.take_zero]
    cases misfit with
    | stray closable =>
      have notEmpty : ¬(t.kind = .closeParen ∧ OpensList taken) := by
        rintro ⟨closes, opened⟩
        exact closable closes [] awaitsExpr_nil opened.endsOpen
      exact ⟨fun empty => absurd empty notEmpty, fun _ => ⟨fun viable => absurd viable never,
        fun _ => rfl⟩⟩
    | emptyList closes opened =>
      exact ⟨fun _ => rfl, fun notEmpty => absurd ⟨closes, opened⟩ notEmpty⟩
  | @tooDeep taken rest t m start notClose fails le deeper =>
    have viable := viable_of_completes (fun t member => isRead t (by simp [member])) start
    have viable' : Viable m (taken ++ [t]) := by
      refine viable_of_completes (fun u member => isRead u ?_) deeper
      rw [List.append_cons]
      exact List.mem_append_left rest member
    refine ⟨taken.length, longestViable_of_fails viable fails, by simp, ?_⟩
    intro u found
    obtain rfl : t = u := by simpa using found
    rw [List.take_left, List.take_length_add_append, List.take_succ_cons, List.take_zero]
    exact ⟨fun empty => absurd empty.1 notClose, fun _ => ⟨fun _ => rfl,
      fun never => absurd ⟨m, viable'⟩ never⟩⟩

/-- A text that has tokens and is not a filter is refused at the end of its longest viable run.
Nothing is quoted if that is the end of the text, or if the next token closes a list where the list
opens. Any other token is nested too deeply if it is viable with more levels, and quoted if it is
not. -/
theorem Expr.parse_eq_error_of_tokens {text : String}
    {ts : List (Token (Span (dropFilterName text)))} {err : SyntaxError}
    (tokens : tokenize (dropFilterName text) = .ok ts) (failed : parse text = .error err) :
    ∃ k, LongestViable ts k ∧ (k = ts.length → err = .failedToParse) ∧
      ∀ t, ts[k]? = some t →
        (t.kind = .closeParen ∧ OpensList (ts.take k) → err = .failedToParse) ∧
        (¬(t.kind = .closeParen ∧ OpensList (ts.take k)) →
          ((∃ n, Viable n (ts.take (k + 1))) → err = .tooDeep maxDepth) ∧
          ((¬∃ n, Viable n (ts.take (k + 1))) → err = .unexpectedToken t.text)) := by
  obtain ⟨us, spaced, rfl⟩ := tokenize_eq_ok_iff.1 tokens
  rw [parse_eq, spaced] at failed
  obtain ⟨k, longest, whole, next⟩ := ofTokens_eq_error (isRead_of_spacedTokens spaced) failed
  generalize eq : placedFrom (dropFilterName text) 0 us = ts
  have same : ts.map Token.lexeme = us.map Token.lexeme := by
    rw [← eq, map_lexeme_placedFrom]
  have taken (j : Nat) : (ts.take j).map Token.lexeme = (us.take j).map Token.lexeme := by
    rw [List.map_take, List.map_take, same]
  have viable (n j : Nat) : Viable n (ts.take j) ↔ Viable n (us.take j) :=
    ⟨fun h => h.of_lexeme (taken j).symm, fun h => h.of_lexeme (taken j)⟩
  have opens : OpensList (ts.take k) ↔ OpensList (us.take k) :=
    ⟨fun h => h.of_lexeme (taken k).symm, fun h => h.of_lexeme (taken k)⟩
  have length : ts.length = us.length := by simpa using congrArg List.length same
  refine ⟨k, longest.of_lexeme same, fun eq => whole (eq.trans length), fun t found => ?_⟩
  obtain ⟨u, found', lexeme⟩ : ∃ u, us[k]? = some u ∧ u.lexeme = t.lexeme := by
    simpa [found] using congrArg (·[k]?) same.symm
  obtain ⟨kind, text⟩ := Prod.mk.inj lexeme
  simpa only [viable, opens, ← kind, ← text] using next u found'

/-- The tokens of `not (Price lt and)`. -/
def missingOperand : List (Token (Span (dropFilterName "not (Price lt and)"))) :=
  [⟨⟨0, 3⟩, .word, "not"⟩, ⟨⟨4, 5⟩, .openParen, "("⟩, ⟨⟨5, 10⟩, .word, "Price"⟩,
    ⟨⟨11, 13⟩, .word, "lt"⟩, ⟨⟨14, 17⟩, .word, "and"⟩, ⟨⟨17, 18⟩, .closeParen, ")"⟩]

/-- The operator is the last token that fits, since a keyword is not an operand. -/
theorem Expr.parse_eq_error_of_tokens_missingOperand :
    parse "not (Price lt and)" = .error (.unexpectedToken "and") ∧
      LongestViable missingOperand 4 := by
  have tokens : tokenize (dropFilterName "not (Price lt and)") = .ok missingOperand :=
    eq_ok_of_toOption (by decide +kernel)
  have failed : parse "not (Price lt and)" = .error (.unexpectedToken "and") := by
    simp only [parse, tokens]
    rfl
  obtain ⟨k, longest, whole, next⟩ := parse_eq_error_of_tokens tokens failed
  have quoted : ∀ t, missingOperand[k]? = some t → t.text = "and" := by
    intro t found
    obtain ⟨empty, other⟩ := next t found
    by_cases isEmpty : t.kind = .closeParen ∧ OpensList (missingOperand.take k)
    · cases empty isEmpty
    by_cases viable : ∃ n, Viable n (missingOperand.take (k + 1))
    · cases (other isEmpty).1 viable
    · injection (other isEmpty).2 viable with eq
      exact eq.symm
  have within : k < missingOperand.length :=
    Nat.lt_of_le_of_ne longest.le fun eq => by cases whole eq
  have only : ∀ j : Fin missingOperand.length, (missingOperand.get j).text = "and" → j.val = 4 := by
    decide
  have found : missingOperand[k]? = some (missingOperand.get ⟨k, within⟩) :=
    List.getElem?_eq_getElem within
  obtain rfl : k = 4 := only ⟨k, within⟩ (quoted _ found)
  exact ⟨failed, longest⟩

end FilterSql.Filter
