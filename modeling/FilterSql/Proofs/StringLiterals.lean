import FilterSql.Pipeline
import FilterSql.Proofs.BooleanStructure
import FilterSql.Proofs.ListsAndEqualities
import FilterSql.Proofs.LoweredNames
import FilterSql.Proofs.ParameterAccounts
import FilterSql.Proofs.PrintedText
import FilterSql.Proofs.ValidatedFilters

/-!
# Strings in filters

A string is written in quotes, with every quote in it doubled. Each stage of a filter looks for quotes
in its own way, and all of them take what is written for one literal: the string is bound to a
parameter as it was before it was quoted, and nothing of it gets into the SQL text.

## Main statements

* `Pipeline.process_equality`: an equality of a path goes through every stage as it is written.
* `Pipeline.process_quote`: a string that is no geometry is bound as it is.
-/

namespace FilterSql

open Text FilterSql.Filter Catalog Sql

/-! ## The text of an equality -/

namespace Filter

variable {path x : String} {kind : TokenKind}

/-- The equality of a path with a word or a literal. -/
def equality (path x : String) : Expr := .comparison "eq" (.primary path) (.primary x)

theorem text_equality : (equality path x).text = path ++ " eq " ++ x := by
  simp [equality, Expr.text, ← String.toList_inj]

/-- An equality is printed as a word, the operator and its operand. -/
theorem prints_equality (word : Token.IsRead ⟨"", .word, path⟩)
    (name : Token.IsName ⟨"", .word, path⟩) (operand : Token.IsRead ⟨" ", kind, x⟩)
    (primary : Token.IsName ⟨" ", kind, x⟩ ∨ kind = .literal) :
    Prints "" (equality path x) [⟨"", .word, path⟩, ⟨" ", .word, "eq"⟩, ⟨" ", kind, x⟩] where
  phrase := isExpr_comparison_iff.2 ⟨[⟨"", .word, path⟩], ⟨" ", .word, "eq"⟩, [⟨" ", kind, x⟩], rfl,
    by decide, isKeyword_self _ _, ⟨isExpr_primary_iff.2 ⟨_, rfl, rfl, .inl name⟩, rfl⟩,
    isExpr_primary_iff.2 ⟨_, rfl, rfl, primary⟩, rfl⟩
  source := by simp [Token.toList_sourceOf, equality, Expr.text]
  stand := (stand_single word).operator (by decide) (stand_single operand) ⟨_, _, rfl, rfl⟩
  first := ⟨_, _, rfl, rfl⟩

/-- Nothing is lower-cased in an equality, if nothing is in its operand. -/
theorem lowerFunctionNames_equality {known : List String} (word : Literal.IsWord path)
    (plain : opensCall x.toList = false) (kept : lowerFunctionNames known x = x) :
    lowerFunctionNames known (path ++ " eq " ++ x) = path ++ " eq " ++ x := by
  have isWord : Literal.IsWord "eq" :=
    ⟨'e', ['q'], rfl, by decide, List.all_eq_true.1 (by decide)⟩
  have stop (rest : List Char) : ∀ d ∈ (' ' :: rest).head?, isNameChar d = false := by
    intro d head
    cases head
    decide
  have space (rest : List Char) :
      lowerCalls known false (' ' :: rest) = ' ' :: lowerCalls known false rest :=
    lowerCalls_cons (by decide) (by decide) rest
  have operand : lowerCalls known false x.toList = x.toList := by
    simpa [lowerFunctionNames, ← String.toList_inj] using kept
  have text : (path ++ " eq " ++ x).toList =
      path.toList ++ ' ' :: ("eq".toList ++ ' ' :: x.toList) := by simp
  rw [← String.toList_inj, lowerFunctionNames, String.toList_ofList, text,
    lowerCalls_run_of_not_opensCall word.inside (stop _) rfl, space,
    lowerCalls_run_of_not_opensCall isWord.inside (stop _) plain, space, operand]

/-! ## Operands -/

/-- An operand of an equality that stands for itself at every stage before the check. -/
structure IsOperand (kind : TokenKind) (x : String) : Prop where
  read : Token.IsRead ⟨" ", kind, x⟩
  primary : Token.IsName ⟨" ", kind, x⟩ ∨ kind = .literal
  plain : opensCall x.toList = false
  kept : ∀ known, lowerFunctionNames known x = x

theorem isOperand_null : IsOperand .word "null" where
  read := isRead_of_isPlainWord (by decide) isBlank_of_mem_space
  primary := .inl ⟨rfl, by decide⟩
  plain := by decide
  kept known := by
    have isWord : Literal.IsWord "null" :=
      ⟨'n', ['u', 'l', 'l'], rfl, by decide, List.all_eq_true.1 (by decide)⟩
    have lowered : lowerCalls known false ("null".toList ++ []) = _ :=
      lowerCalls_run_of_not_opensCall isWord.inside nofun rfl
    simpa [lowerFunctionNames, ← String.toList_inj] using lowered

theorem isOperand_quote (s : String) : IsOperand .literal (Literal.quote s) where
  read := ⟨isBlank_of_mem_space, _, by simpa [Literal.quote] using Lexeme.quoted s.toList⟩
  primary := .inr rfl
  plain := by
    rw [Literal.quote, String.toList_ofList]
    exact opensCall_cons (by decide) _
  kept known := by
    have lowered : lowerCalls known false ('\'' :: (doubled s.toList ++ ['\''])) = _ :=
      lowerCalls_literal known s.toList (by simp)
    simpa [lowerFunctionNames, Literal.quote, ← String.toList_inj] using lowered

end Filter

/-! ## What an equality compiles to -/

namespace Sql

namespace Compiler

variable {c : Compiler} {path x : String} {column : Column}

theorem compile_equality (isPath : Literal.isLiteral path = false)
    (mapped : c.columns.get? path = some column) (bound : Literal.IsBound x) :
    c.compile (equality path x) =
      .ok ⟨some (column.filterSql ++ " = " ++ parameterName c.options.sigil 1),
        ⟨[(parameterName c.options.sigil 1, c.literalValue x)]⟩⟩ := by
  refine compile_eq_ok.2 ⟨_, _, operand_equality isPath mapped bound .empty, ?_⟩
  simp only [Fragment.toClause, Clause.render_append, Clause.render_ofString]
  simp [Clause.render, Symbol.render, Bindings.empty]
  rfl

theorem compile_null (isPath : Literal.isLiteral path = false)
    (mapped : c.columns.get? path = some column) :
    c.compile (equality path "null") = .ok ⟨some (column.filterSql ++ " IS NULL"), .empty⟩ := by
  have null : c.primary "null" = pure .null := rfl
  have ran : c.operand false (equality path "null") .empty =
      .ok (⟨.clause (Clause.ofString column.filterSql ++ Clause.ofString " IS NULL"), none⟩,
        .empty) := by
    rw [equality, operand_comparison]
    simp only [operand, primary_column isPath mapped, null]
    rfl
  refine compile_eq_ok.2 ⟨_, _, ran, ?_⟩
  simp only [Fragment.toClause, Clause.render_append, Clause.render_ofString]
  rfl

theorem exists_column (isPath : Literal.isLiteral path = false) {p : Predicate}
    (h : c.compile (equality path x) = .ok p) : ∃ column, c.columns.get? path = some column := by
  obtain ⟨o, b, ran, -⟩ := compile_eq_ok.1 h
  simp only [equality, operand_comparison, operand, Compile.bind_eq_ok] at ran
  obtain ⟨-, b₁, ⟨q, b₂, ran, -⟩, -⟩ := ran
  rcases c.primary_cases path with ⟨null, -⟩ | ⟨-, isLiteral, -⟩ | ⟨-, column, mapped, -⟩ |
    ⟨-, -, failed⟩
  · rw [Literal.isLiteral_of_isNull null] at isPath
    cases isPath
  · rw [isLiteral] at isPath
    cases isPath
  · exact ⟨column, mapped⟩
  · rw [failed] at ran
    cases ran

end Compiler

end Sql

/-! ## The whole way -/

namespace Pipeline

variable {p : Pipeline} {set : String}

/-- The stages after reading: the check and the compilation. -/
def finish (p : Pipeline) (set : String) (e : Expr) : Except FilterError Predicate := do
  (p.validator.validate e set).mapError .invalid
  (p.compiler.compile e).mapError .notCompiled

theorem finish_eq_ok {e : Expr} {q : Predicate} :
    p.finish set e = .ok q ↔ p.validator.validate e set = .ok () ∧ p.compiler.compile e = .ok q := by
  unfold finish
  rcases p.validator.validate e set with err | ⟨⟩
  · simp [Except.mapError, bind, Except.bind]
  · rcases p.compiler.compile e with err | q <;> simp [Except.mapError, bind, Except.bind]

/-- An equality goes through the stages before the check as it is written. -/
theorem process_equality {path x : String} {kind : TokenKind}
    (read : Token.IsRead ⟨"", .word, path⟩) (isName : Token.IsName ⟨"", .word, path⟩)
    (operand : IsOperand kind x) :
    p.process (path ++ " eq " ++ x) set =
      if (path ++ " eq " ++ x).length > p.options.maxLength then
        .error (.tooLong (path ++ " eq " ++ x).length p.options.maxLength)
      else p.finish set (equality path x) := by
  obtain ⟨-, continues, lexeme⟩ := id read
  have prints := prints_equality read isName operand.read operand.primary
  have body := prints.dropFilterName_eq
  have trimmed := prints.trim_eq
  have parsed := prints.parse_eq (by simp [equality, Expr.nesting])
  rw [text_equality] at body trimmed parsed
  have notEmpty : (path ++ " eq " ++ x).isEmpty = false := by
    simp
  unfold process
  simp only [body, trimmed, notEmpty,
    lowerFunctionNames_equality lexeme.isWord operand.plain (operand.kept p.knownFunctions), parsed]
  rfl

/-- A string that is no geometry is bound to the only parameter as it is, whatever characters are in
it, and the SQL text is the same for all of them. -/
theorem process_quote {path c s : String} {parameters : Table String Value} {place : Span path}
    (word : tokenize path = .ok [⟨place, .word, path⟩])
    (notLiteral : Literal.isLiteral path = false)
    (notReserved : Token.isReserved ⟨place, .word, path⟩ = false)
    (null : p.process (path ++ " eq null") set = .ok ⟨some (c ++ " IS NULL"), parameters⟩)
    (notSpatial : Geometry.Wkt.hasOutline s = false)
    (short : (path ++ " eq " ++ Literal.quote s).length ≤ p.options.maxLength) :
    p.process (path ++ " eq " ++ Literal.quote s) set =
      .ok ⟨some (c ++ " = " ++ parameterName p.options.sigil 1),
        ⟨[(parameterName p.options.sigil 1, .string s)]⟩⟩ := by
  have nullText : path ++ " eq null" = path ++ " eq " ++ "null" := by simp [← String.toList_inj]
  have read := isRead_of_tokenize word _ (List.mem_singleton_self _)
  have isName : Token.IsName ⟨"", .word, path⟩ := ⟨rfl, notReserved⟩
  rw [nullText, process_equality read isName isOperand_null] at null
  split at null
  · cases null
  obtain ⟨valid, compiled⟩ := finish_eq_ok.1 null
  -- the test for null tells which column the path stands for
  obtain ⟨column, mapped⟩ := Compiler.exists_column notLiteral compiled
  obtain rfl : column.filterSql = c := by
    have eq := compiled.symm.trans (Compiler.compile_null notLiteral mapped)
    simp only [Except.ok.injEq, Predicate.mk.injEq, Option.some.injEq] at eq
    simpa [← String.toList_inj] using eq.1.symm
  have valid' : p.validator.validate (equality path (Literal.quote s)) set = .ok () := by
    obtain ⟨entity, found, checked⟩ := Validator.validate_eq_ok.1 valid
    obtain ⟨checkedPath, -⟩ := Validator.bind_eq_ok.1 checked
    have checkedQuote : p.validator.check entity (.primary (Literal.quote s)) = .ok () := by
      simp [Validator.check, (Literal.isBound_of_isQuoted (Literal.isQuoted_quote s)).1]
    exact Validator.validate_eq_ok.2
      ⟨entity, found, Validator.bind_eq_ok.2 ⟨checkedPath, checkedQuote⟩⟩
  have bound := Literal.isBound_of_isQuoted (Literal.isQuoted_quote s)
  have value : p.compiler.literalValue (Literal.quote s) = .string s := by
    simp [Compiler.literalValue, Literal.isSpatial, Literal.unquote_quote, notSpatial,
      Literal.value_quote]
  rw [process_equality read isName (isOperand_quote s), if_neg (Nat.not_lt.2 short),
    finish_eq_ok.2 ⟨valid', Compiler.compile_equality notLiteral mapped bound⟩, value]
  rfl

/-- Filters on products, to try the whole way on. -/
def shop : Pipeline where
  schema := Compiler.shopValidator.schema
  catalog := Compiler.shop.catalog
  columns := Compiler.shop.columns
  options := Compiler.shop.options

theorem process_quote_inert :
    shop.process ("Name" ++ " eq null") "products" = .ok ⟨some ("name" ++ " IS NULL"), .empty⟩ ∧
      shop.process ("Name" ++ " eq " ++ Literal.quote "') or Contains(Name, 'x") "products" =
        .ok ⟨some ("name" ++ " = " ++ "@p1"), ⟨[("@p1", .string "') or Contains(Name, 'x")]⟩⟩ := by
  have word : tokenize "Name" = .ok [⟨⟨0, 4⟩, .word, "Name"⟩] := eq_ok_of_toOption (by decide +kernel)
  have notLiteral : Literal.isLiteral "Name" = false := by decide +kernel
  have null : shop.process ("Name" ++ " eq null") "products" =
      .ok ⟨some ("name" ++ " IS NULL"), .empty⟩ := by
    have text : "Name" ++ " eq null" = "Name" ++ " eq " ++ "null" := rfl
    rw [text, process_equality (isRead_of_isPlainWord (by decide +kernel) nofun) ⟨rfl, by decide⟩
      isOperand_null, if_neg (by decide)]
    have mapped : shop.compiler.columns.get? "Name" = some ⟨"Name", "name", "Edm.String", none⟩ :=
      rfl
    exact finish_eq_ok.2 ⟨rfl, Compiler.compile_null notLiteral mapped⟩
  exact ⟨null, process_quote word notLiteral (by decide) null (by decide +kernel)
    (by decide +kernel)⟩

end Pipeline

end FilterSql
