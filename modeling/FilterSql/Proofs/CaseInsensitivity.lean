import FilterSql.Proofs.AlikeCompilation
import FilterSql.Proofs.AlikeTokens
import FilterSql.Proofs.LoweredNames
import FilterSql.Proofs.StringLiterals

/-!
# Answers do not depend on case

The answer to a filter depends on its tokens only, and not on the case of the words among them: two
filters that differ in the case of words, and in the blanks between tokens, have the same SQL with the
same parameters, or errors of the same kind. The one exception is the unit of a distance, which is in
small letters if it is a word.

Names of functions are lower-cased before a filter is read. That changes case too, so the way from one
lower-cased text to the other leads through both texts as they are written, and each step on it is
between texts with alike tokens.

## Main statements

* `Pipeline.answer_outline`: texts with alike tokens have the same answer.
* `Pipeline.process_outline`: filters whose tokens differ in the case of words have the same answer.
-/

namespace FilterSql

open Text FilterSql.Filter Catalog Sql

/-! ## Tokens that differ in case -/

namespace Filter

/-- Tokens of one kind, with words that differ in case only, or else the same text. -/
structure Token.SameButCase {π π' : Type} (t : Token π) (t' : Token π') : Prop where
  kind : t'.kind = t.kind
  word : t.kind = .word → sameName t.text t'.text = true
  other : t.kind ≠ .word → t'.text = t.text

theorem Token.SameButCase.sameName {π π' : Type} {t : Token π} {t' : Token π'}
    (h : t.SameButCase t') : Text.sameName t.text t'.text = true := by
  by_cases isWord : t.kind = .word
  · exact h.word isWord
  · rw [h.other isWord]
    exact sameName_refl t.text

theorem sameButCase_of_placedFrom {text text' : String} {offset offset' : Nat}
    {ts ts' : List (Token Gap)}
    (h : List.Forall₂ Token.SameButCase (placedFrom text offset ts) (placedFrom text' offset' ts')) :
    List.Forall₂ Token.SameButCase ts ts' := by
  induction ts generalizing offset offset' ts' with
  | nil =>
    cases ts' with
    | nil => exact .nil
    | cons => cases h
  | cons t ts ih =>
    cases ts' with
    | nil => cases h
    | cons t' ts' =>
      obtain ⟨first, others⟩ := List.forall₂_cons.1 h
      exact .cons ⟨first.kind, first.word, first.other⟩ (ih others)

/-- What tokens that differ in case are read as. -/
theorem comparison_sameButCase :
    Comparison (fun t t' _ => t.SameButCase t' ∧ SameLeaf t.text t'.text) SameLeaf
      (sameName · · = true) fun _ _ => True where
  kind h := h.1.kind
  word h := h.1.sameName
  leaf h _ := h.2
  name h _ _ := h.1.sameName
  text _ := trivial

theorem comparison_sameLeaf :
    Comparison Token.RecasedBefore SameLeaf (sameName · · = true) fun _ _ => True where
  kind h := h.kind
  word h := h.word
  leaf h closed := .inl (h.text_eq closed)
  name h _ _ := h.word
  text _ := trivial

/-- Words among tokens are words, and the other tokens are the same. -/
theorem compared_of_sameButCase {ts ts' : List (Token Gap)} {rest rest' : List Char}
    (h : List.Forall₂ Token.SameButCase ts ts') (stand : StandBefore ts rest)
    (stand' : StandBefore ts' rest') :
    Compared (fun t t' _ => t.SameButCase t' ∧ SameLeaf t.text t'.text) none ts ts' := by
  induction h with
  | nil => exact .nil
  | @cons t t' _ _ same _ ih =>
    obtain ⟨⟨-, _, lexeme, -⟩, stand⟩ := stand
    obtain ⟨⟨-, _, lexeme', -⟩, stand'⟩ := stand'
    refine .cons ⟨same, ?_⟩ (ih stand stand')
    by_cases isWord : t.kind = .word
    · rw [isWord] at lexeme
      rw [same.kind, isWord] at lexeme'
      exact .inr ⟨lexeme.isWord, lexeme'.isWord, same.word isWord⟩
    · exact .inl (same.other isWord)

/-! ## Bodies -/

/-- A body that is cut into tokens starts with the first of them, and not with a filter's name. -/
theorem body_of_spacedTokens {s : String} {ts : List (Token Gap)}
    (h : spacedTokens (trim s) = .ok ts) :
    dropFilterName (trim s) = trim s ∧ (trim s).isEmpty = ts.isEmpty := by
  have notBlank := isBlank_head?_trim s
  obtain ⟨blanks, scanned⟩ := exists_scan_of_spacedTokens h
  obtain ⟨source, stand, blank⟩ := spacedScan_eq_ok_iff.1 scanned
  cases ts with
  | nil =>
    obtain empty : trim s = "" := by
      rw [← String.toList_inj, source]
      rw [source] at notBlank
      cases eq : blanks.toList with
      | nil => rfl
      | cons c cs =>
        have isBlank := blank c (by simp [eq])
        rw [notBlank c (by simp [eq])] at isBlank
        cases isBlank
    rw [empty]
    exact ⟨rfl, rfl⟩
  | cons t us =>
    obtain ⟨⟨gap, continues, lexeme, -⟩, -⟩ := stand
    obtain ⟨c, tail, eq⟩ := lexeme.exists_cons
    rw [eq] at lexeme
    rw [Token.toList_sourceOf_cons] at source
    have noGap : t.place.toList = [] := by
      cases eq : t.place.toList with
      | nil => rfl
      | cons d ds =>
        have isBlank := gap d (by simp [eq])
        rw [notBlank d (by simp [source, eq])] at isBlank
        cases isBlank
    have head : (trim s).toList.head? = some c := by simp [source, noGap, eq]
    constructor
    · refine dropFilterName_eq_self fun d first => ?_
      obtain rfl : c = d := by simpa [head] using first
      exact ⟨lexeme.isBlank_eq_false, lexeme.ne_dollar⟩
    · rw [List.isEmpty_cons, Bool.eq_false_iff, ne_eq, String.isEmpty_iff]
      intro empty
      rw [empty] at head
      cases head

/-- There is no unit to quote in a filter without the word `distance`. -/
theorem unitsQuoted_of_parse {text : String} {e : Expr}
    (noDistance : (tokenize (dropFilterName text)).toOption.all
      (·.all (!·.isKeyword "distance")) = true) (parsed : Expr.parse text = .ok e) :
    e.UnitsQuoted := by
  intro name args raw sub distance
  rw [Expr.parse] at parsed
  rcases tokens : tokenize (dropFilterName text) with err | ts <;>
    simp only [tokens] at parsed noDistance
  · cases parsed
  obtain ⟨us, part, phrase⟩ := (Expr.ofTokens_eq_ok_iff.1 parsed).1.holdsPhrase_of_subterm sub
  obtain ⟨t, p, vs, q, rfl, isName, rfl, -⟩ := isExpr_call_iff.1 phrase
  have other := List.all_eq_true.1 noDistance t (part.subset List.mem_cons_self)
  simp [Token.isKeyword, isName.word, distance] at other

end Filter

/-! ## Answers -/

def ValidationError.outline : ValidationError → ValidationError
  | .entitySetNotFound name => .entitySetNotFound name
  | .entityTypeNotFound entitySet entityType => .entityTypeNotFound entitySet entityType
  | .invalidExpression cause => .invalidExpression cause.outline

/-- The error without the words that it quotes from the filter. -/
def FilterError.outline : FilterError → FilterError
  | .tooLong length max => .tooLong length max
  | .unreadable cause => .unreadable cause.outline
  | .invalid cause => .invalid cause.outline
  | .notCompiled cause => .notCompiled cause.outline

namespace Pipeline

variable {p : Pipeline} {set : String}

theorem validate_outline {e e' : Expr} (h : e.ReadAlike e') :
    (p.validator.validate e' set).mapError ValidationError.outline =
      (p.validator.validate e set).mapError ValidationError.outline := by
  unfold Validator.validate
  cases p.validator.schema.entitySet? set with
  | none => rfl
  | some found =>
    dsimp only
    cases p.validator.schema.entityType? found.entityType with
    | none => rfl
    | some entity =>
      have same : (p.validator.check entity e').mapError ExpressionError.outline = _ :=
        Validator.check_outline h
      dsimp only
      generalize p.validator.check entity e = x, p.validator.check entity e' = x' at same
      rcases x with err | ⟨⟩ <;> rcases x' with err' | ⟨⟩ <;>
        simp_all [Except.mapError, ValidationError.outline]

theorem finish_outline {e e' : Expr} (h : e.ReadAlike e') :
    (p.finish set e').mapError FilterError.outline =
      (p.finish set e).mapError FilterError.outline := by
  have checked : (p.validator.validate e' set).mapError ValidationError.outline = _ :=
    validate_outline h
  unfold finish
  rcases valid : p.validator.validate e set with err | ⟨⟩
  · rcases valid' : p.validator.validate e' set with err' | ⟨⟩ <;>
      simp_all [Except.mapError, bind, Except.bind, FilterError.outline]
  · rcases valid' : p.validator.validate e' set with err' | ⟨⟩
    · simp [valid, valid', Except.mapError] at checked
    · obtain ⟨entity, -, check⟩ := Validator.validate_eq_ok.1 valid
      have same : (p.compiler.compile e').mapError CompileError.outline = _ :=
        Compiler.compile_outline rfl h check
      generalize p.compiler.compile e = x, p.compiler.compile e' = x' at same
      rcases x with err | q <;> rcases x' with err' | q' <;>
        simp_all [Except.mapError, bind, Except.bind, FilterError.outline]

/-- The answer to a text that is read as it is. -/
def answer (p : Pipeline) (set text : String) : Except FilterError Predicate :=
  (Expr.parse text).mapError .unreadable >>= p.finish set

theorem answer_outline {R : Token Gap → Token Gap → Option (Token Gap) → Prop} {text text' : String}
    {ts ts' : List (Token Gap)} {blanks blanks' : String}
    (comparison : Comparison R SameLeaf (sameName · · = true) fun _ _ => True)
    (scanned : spacedScan (dropFilterName text).toList = .ok (ts, blanks))
    (scanned' : spacedScan (dropFilterName text').toList = .ok (ts', blanks'))
    (compared : Compared R none ts ts')
    (quoted : ∀ e, Expr.parse text = .ok e → e.UnitsQuoted) :
    (p.answer set text').mapError FilterError.outline =
      (p.answer set text).mapError FilterError.outline := by
  have outcome : SameOutcome (fun _ _ => True) Expr.SameButCase (Expr.parse text)
      (Expr.parse text') := by
    simp only [Expr.parse_eq, spacedTokens, scanned, scanned', Except.map, Except.bind]
    exact Expr.ofTokens_alike comparison compared
  unfold answer
  rcases parsed : Expr.parse text with err | e <;> rw [parsed] at outcome
  · obtain ⟨err', parsed', same⟩ := outcome.of_error
    simp [parsed', same.outline_eq, Except.mapError, bind, Except.bind, FilterError.outline]
  · obtain ⟨e', parsed', alike⟩ := outcome.of_ok
    rw [parsed']
    exact finish_outline
      ⟨alike, fun _ => .of_parse parsed, fun _ => .of_parse parsed', quoted e parsed⟩

/-! ## The whole way -/

theorem mem_addNames {names more : List String} {name : String} (h : name ∈ addNames names more) :
    name ∈ names ∨ name ∈ more := by
  induction more generalizing names with
  | nil => exact .inl h
  | cons first more ih =>
    rcases ih h with member | member
    · dsimp only at member
      split at member
      · exact .inl member
      · rcases List.mem_append.1 member with member | member
        · exact .inl member
        · exact .inr (List.mem_cons.2 (.inl (List.mem_singleton.1 member)))
    · exact .inr (List.mem_cons_of_mem first member)

theorem isAscii_of_mem_knownFunctions (ascii : ∀ name ∈ p.catalog.names, isAscii name = true) :
    ∀ name ∈ p.knownFunctions, isAscii name = true := by
  have standard : ∀ name ∈ standardFunctions, isAscii name = true := by decide +kernel
  exact fun name member => (mem_addNames member).elim (standard name) (ascii name)

/-- Lower-casing names does not change the answer. -/
theorem answer_lowerFunctionNames (ascii : ∀ name ∈ p.catalog.names, isAscii name = true)
    {text : String} {ts : List (Token Gap)} {blanks : String}
    (scanned : spacedScan (dropFilterName text).toList = .ok (ts, blanks))
    (quoted : ∀ e, Expr.parse text = .ok e → e.UnitsQuoted) :
    (p.answer set (lowerFunctionNames p.knownFunctions text)).mapError FilterError.outline =
      (p.answer set text).mapError FilterError.outline := by
  have recased := recased_dropFilterName (isAscii_of_mem_knownFunctions ascii) text
  obtain ⟨ts', scanned', compared⟩ := recased.exists_scan scanned
  exact answer_outline comparison_sameLeaf scanned scanned' compared quoted

theorem process_eq_answer {filter : String}
    (notEmpty : (trim (dropFilterName filter)).isEmpty = false)
    (short : (trim (dropFilterName filter)).length ≤ p.options.maxLength) :
    p.process filter set =
      p.answer set (lowerFunctionNames p.knownFunctions (trim (dropFilterName filter))) := by
  unfold process
  simp only [notEmpty, Bool.false_eq_true, if_false]
  rw [if_neg (Nat.not_lt.2 short)]
  rfl

theorem process_outline (ascii : ∀ name ∈ p.catalog.names, isAscii name = true)
    {filter filter' : String} {ts : List (Token (Span (trim (dropFilterName filter))))}
    {ts' : List (Token (Span (trim (dropFilterName filter'))))}
    (tokens : tokenize (trim (dropFilterName filter)) = .ok ts)
    (tokens' : tokenize (trim (dropFilterName filter')) = .ok ts')
    (short : (trim (dropFilterName filter)).length ≤ p.options.maxLength)
    (short' : (trim (dropFilterName filter')).length ≤ p.options.maxLength)
    (same : List.Forall₂ Token.SameButCase ts ts')
    (quoted : ∀ e, Expr.parse (trim (dropFilterName filter)) = .ok e → e.UnitsQuoted)
    (quoted' : ∀ e, Expr.parse (trim (dropFilterName filter')) = .ok e → e.UnitsQuoted) :
    (p.process filter' set).mapError FilterError.outline =
      (p.process filter set).mapError FilterError.outline := by
  obtain ⟨us, spaced, rfl⟩ := tokenize_eq_ok_iff.1 tokens
  obtain ⟨us', spaced', rfl⟩ := tokenize_eq_ok_iff.1 tokens'
  obtain ⟨body, empty⟩ := body_of_spacedTokens spaced
  obtain ⟨body', empty'⟩ := body_of_spacedTokens spaced'
  cases sameButCase_of_placedFrom same with
  | nil => simp [process, empty, empty']
  | cons first others =>
    obtain ⟨blanks, scanned⟩ := exists_scan_of_spacedTokens spaced
    obtain ⟨blanks', scanned'⟩ := exists_scan_of_spacedTokens spaced'
    have compared := compared_of_sameButCase (.cons first others) (spacedScan_eq_ok_iff.1 scanned).2.1
      (spacedScan_eq_ok_iff.1 scanned').2.1
    rw [← body] at scanned
    rw [← body'] at scanned'
    rw [process_eq_answer empty short, process_eq_answer empty' short']
    calc
      _ = (p.answer set (trim (dropFilterName filter'))).mapError FilterError.outline :=
        answer_lowerFunctionNames ascii scanned' quoted'
      _ = (p.answer set (trim (dropFilterName filter))).mapError FilterError.outline :=
        answer_outline comparison_sameButCase scanned scanned' compared quoted
      _ = _ := (answer_lowerFunctionNames ascii scanned quoted).symm

theorem process_outline_startswith :
    (shop.process " $Filter= STARTSWITH( name,'a') " "products").mapError FilterError.outline =
      (shop.process "startswith(Name, 'a')" "products").mapError FilterError.outline := by
  have tokens : tokenize (trim (dropFilterName "startswith(Name, 'a')")) =
      .ok [⟨⟨0, 10⟩, .word, "startswith"⟩, ⟨⟨10, 11⟩, .openParen, "("⟩, ⟨⟨11, 15⟩, .word, "Name"⟩,
        ⟨⟨15, 16⟩, .comma, ","⟩, ⟨⟨17, 20⟩, .literal, "'a'"⟩, ⟨⟨20, 21⟩, .closeParen, ")"⟩] :=
    eq_ok_of_toOption (by decide +kernel)
  have tokens' : tokenize (trim (dropFilterName " $Filter= STARTSWITH( name,'a') ")) =
      .ok [⟨⟨0, 10⟩, .word, "STARTSWITH"⟩, ⟨⟨10, 11⟩, .openParen, "("⟩, ⟨⟨12, 16⟩, .word, "name"⟩,
        ⟨⟨16, 17⟩, .comma, ","⟩, ⟨⟨17, 20⟩, .literal, "'a'"⟩, ⟨⟨20, 21⟩, .closeParen, ")"⟩] :=
    eq_ok_of_toOption (by decide +kernel)
  have word {text text' s s' : String} (place : Span text) (place' : Span text')
      (same : sameName s s' = true) :
      Token.SameButCase ⟨place, .word, s⟩ ⟨place', .word, s'⟩ :=
    ⟨rfl, fun _ => same, fun notWord => (notWord rfl).elim⟩
  have other {text text' s : String} {kind : TokenKind} (place : Span text) (place' : Span text')
      (notWord : kind ≠ .word) : Token.SameButCase ⟨place, kind, s⟩ ⟨place', kind, s⟩ :=
    ⟨rfl, fun isWord => (notWord isWord).elim, fun _ => rfl⟩
  refine process_outline (by decide) tokens tokens' (by decide +kernel) (by decide +kernel) ?_
    (fun e => unitsQuoted_of_parse (by decide +kernel))
    fun e => unitsQuoted_of_parse (by decide +kernel)
  exact .cons (word _ _ (by decide)) (.cons (other _ _ nofun) (.cons (word _ _ (by decide))
    (.cons (other _ _ nofun) (.cons (other _ _ nofun) (.cons (other _ _ nofun) .nil)))))

end Pipeline

end FilterSql
