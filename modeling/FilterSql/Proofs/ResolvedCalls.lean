import FilterSql.Proofs.CalledNames
import FilterSql.Proofs.CaseInsensitivity
import FilterSql.Proofs.DeclaredValues

/-!
# Functions of calls in small letters

The catalog is searched ignoring ASCII case, and so are the names to be lower-cased, but lower-casing
changes capitals beyond ASCII too. So a call stands for the same function in the lower-cased filter
exactly if the part of its name that is looked up has no such capital, or is not known. A function with
one in its name cannot be called by that name.

## Main statements

* `sameName_callName_iff`: the names that stay the same up to ASCII case.
* `Pipeline.lowerFunctionNames_resolves`: the filters whose calls stand for the same functions in small
  letters.
-/

namespace FilterSql

open Text FilterSql.Filter Catalog Sql

namespace Filter

/-! ## Names that stay the same -/

theorem sameName_callName_iff {known : List String} {name : String} :
    sameName name (callName known name) = true ↔
      (known.any (sameName · (String.ofList (lastPart name.toList))) = true →
        ∀ c ∈ lastPart name.toList, isForeignCapital c = false) := by
  have parts : name.toList.map Char.toLower =
      (firstPart name.toList).map Char.toLower ++ (lastPart name.toList).map Char.toLower := by
    rw [← List.map_append, firstPart_append_lastPart]
  have last : sameName (String.ofList (lastPart name.toList))
      (loweredName known ['('] (String.ofList (lastPart name.toList))) = true ↔
      sameName name (callName known name) = true := by
    rw [sameName_iff, sameName_iff, toList_callName, parts, List.map_append,
      List.append_cancel_left_eq, String.toList_ofList]
  rw [← last, loweredName]
  cases known.any (sameName · (String.ofList (lastPart name.toList))) with
  | false => simp [sameName_refl]
  | true =>
    have opens : opensCall ['('] = true := rfl
    simp [opens, sameName_toLower_iff]

/-- A word without a slash is looked up as a whole. -/
theorem lastPart_eq_self {name : String} (word : Literal.IsWord name) (noSlash : '/' ∉ name.toList) :
    lastPart name.toList = name.toList := by
  have nameChars : ∀ c ∈ name.toList, isNameChar c = true := by
    intro c member
    have notSlash : c ≠ '/' := by
      rintro rfl
      exact noSlash member
    simpa [isWordChar, isNameChar, notSlash] using word.isWordChar c member
  have whole : (name.toList.reverse ++ []).takeWhile isNameChar = name.toList.reverse :=
    takeWhile_append_eq_left (by simpa using nameChars) (by simp)
  obtain ⟨c, run, eq, starts, -⟩ := word
  have first : startsName c = true := starts
  rw [List.append_nil] at whole
  rw [lastPart, whole, List.reverse_reverse, eq, List.dropWhile_cons, first]
  rfl

/-! ## Calls of alike trees -/

namespace Expr.Alike

variable {leaf name name₁ name₂ text : String → String → Prop} {e e' : Expr}

/-- The parts of alike trees are alike. -/
theorem exists_subterm {u : Expr} (h : Alike leaf name text e e') (sub : Subterm u e) :
    ∃ u', Subterm u' e' ∧ Alike leaf name text u u' := by
  induction sub generalizing e' with
  | self => exact ⟨e', .self, h⟩
  | argument member _ ih =>
    cases h with
    | call _ arguments _ =>
      obtain ⟨i, bound, rfl⟩ := List.getElem_of_mem member
      have bound' := arguments.length_eq ▸ bound
      obtain ⟨u', sub', same⟩ := ih (arguments.get bound bound')
      exact ⟨u', .argument (List.getElem_mem bound') sub', same⟩
  | negated _ ih =>
    cases h with
    | not inner =>
      obtain ⟨u', sub', same⟩ := ih inner
      exact ⟨u', .negated sub', same⟩
  | grouped _ ih =>
    cases h with
    | group inner =>
      obtain ⟨u', sub', same⟩ := ih inner
      exact ⟨u', .grouped sub', same⟩
  | compareLeft _ ih =>
    cases h with
    | comparison left _ =>
      obtain ⟨u', sub', same⟩ := ih left
      exact ⟨u', .compareLeft sub', same⟩
  | compareRight _ ih =>
    cases h with
    | comparison _ right =>
      obtain ⟨u', sub', same⟩ := ih right
      exact ⟨u', .compareRight sub', same⟩
  | connectLeft _ ih =>
    cases h with
    | logical left _ =>
      obtain ⟨u', sub', same⟩ := ih left
      exact ⟨u', .connectLeft sub', same⟩
  | connectRight _ ih =>
    cases h with
    | logical _ right =>
      obtain ⟨u', sub', same⟩ := ih right
      exact ⟨u', .connectRight sub', same⟩
  | listed _ ih =>
    cases h with
    | inList left _ =>
      obtain ⟨u', sub', same⟩ := ih left
      exact ⟨u', .listed sub', same⟩

theorem exists_call {f raw : String} {args : List Expr} (h : Alike leaf name text e e')
    (sub : Subterm (.call f args raw) e) :
    ∃ f' args' raw', Subterm (.call f' args' raw') e' ∧ name f f' := by
  obtain ⟨u', sub', alike⟩ := h.exists_subterm sub
  cases alike with
  | call same _ _ => exact ⟨_, _, _, sub', same⟩

/-- What follows for the names of each call from two ways in which trees are alike is a third way. -/
theorem of_calls (h : Alike leaf name₁ text e e') (g : Alike leaf name₂ text e e')
    (each : ∀ f args raw f', Subterm (.call f args raw) e → name₁ f f' → name₂ f f' → name f f') :
    Alike leaf name text e e' := by
  induction e generalizing e' with
  | primary =>
    cases h with
    | primary same => exact .primary same
  | call f args raw ih =>
    cases h with
    | call named arguments same =>
      cases g with
      | call named' arguments' _ =>
        refine .call (each f args raw _ .self named named') ?_ same
        rw [List.forall₂_iff_zip] at arguments arguments' ⊢
        refine ⟨arguments.1, fun {a b} pair => ?_⟩
        have member := (List.of_mem_zip pair).1
        exact ih a member (arguments.2 pair) (arguments'.2 pair)
          fun f args raw f' sub => each f args raw f' (.argument member sub)
  | not e ih =>
    cases h with
    | not inner =>
      cases g with
      | not inner' =>
        exact .not (ih inner inner' fun f args raw f' sub => each f args raw f' (.negated sub))
  | group e ih =>
    cases h with
    | group inner =>
      cases g with
      | group inner' =>
        exact .group (ih inner inner' fun f args raw f' sub => each f args raw f' (.grouped sub))
  | comparison op l r ihl ihr =>
    cases h with
    | comparison left right =>
      cases g with
      | comparison left' right' =>
        exact .comparison
          (ihl left left' fun f args raw f' sub => each f args raw f' (.compareLeft sub))
          (ihr right right' fun f args raw f' sub => each f args raw f' (.compareRight sub))
  | logical op l r ihl ihr =>
    cases h with
    | logical left right =>
      cases g with
      | logical left' right' =>
        exact .logical
          (ihl left left' fun f args raw f' sub => each f args raw f' (.connectLeft sub))
          (ihr right right' fun f args raw f' sub => each f args raw f' (.connectRight sub))
  | inList l values ih =>
    cases h with
    | inList left same =>
      cases g with
      | inList left' _ =>
        exact .inList (ih left left' fun f args raw f' sub => each f args raw f' (.listed sub)) same

end Expr.Alike

end Filter

namespace Pipeline

variable {p : Pipeline} {name : String}

/-! ## Known functions -/

theorem any_addNames_iff {names more : List String} :
    (addNames names more).any (sameName · name) = true ↔
      names.any (sameName · name) = true ∨ more.any (sameName · name) = true := by
  constructor
  · intro h
    obtain ⟨other, member, same⟩ := List.any_eq_true.1 h
    exact (mem_addNames member).imp (fun member => List.any_eq_true.2 ⟨other, member, same⟩)
      fun member => List.any_eq_true.2 ⟨other, member, same⟩
  · intro h
    induction more generalizing names with
    | nil => simpa [addNames] using h
    | cons first more ih =>
      refine ih (or_iff_not_imp_right.2 fun notMore => ?_)
      dsimp only
      rw [List.any_cons, Bool.or_eq_true, or_iff_left notMore] at h
      split
      · next known =>
        rcases h with h | same
        · exact h
        · simpa only [sameName_congr_right same] using known
      · rw [List.any_append, Bool.or_eq_true]
        exact h.imp_right fun same => by simpa using same

theorem any_knownFunctions_iff : p.knownFunctions.any (sameName · name) = true ↔
    standardFunctions.any (sameName · name) = true ∨ (p.catalog.get? name).isSome = true := by
  rw [knownFunctions, any_addNames_iff, FunctionCatalog.get?, List.find?_isSome, FunctionCatalog.names,
    List.any_map, List.any_eq_true (l := p.catalog.functions)]
  rfl

theorem not_isForeignCapital_of_standard (h : standardFunctions.any (sameName · name) = true) :
    ∀ c ∈ name.toList, isForeignCapital c = false := by
  have standard : ∀ name ∈ standardFunctions, isAscii name = true := by decide +kernel
  obtain ⟨other, member, same⟩ := List.any_eq_true.1 h
  have ascii := List.all_eq_true.1 (isAscii_of_sameName same (standard other member))
  intro c inName
  have low : c.toNat < 0x80 := by simpa using ascii c inName
  simp [isForeignCapital, Nat.not_le.2 low]

/-! ## Calls that keep their functions -/

/-- In small letters the name is a word and stands for the same function, or for none as before. -/
structure KeepsCall (p : Pipeline) (name : String) : Prop where
  word : Literal.IsWord (callName p.knownFunctions name)
  entry : p.catalog.get? (callName p.knownFunctions name) = p.catalog.get? name

theorem keepsCall_of_sameName (word : Literal.IsWord name)
    (same : sameName name (callName p.knownFunctions name) = true) : p.KeepsCall name :=
  ⟨word.of_sameName same, FunctionCatalog.get?_congr same p.catalog⟩

theorem sameName_of_keepsCall (keeps : p.KeepsCall name)
    (found : (p.catalog.get? name).isSome = true) :
    sameName name (callName p.knownFunctions name) = true := by
  obtain ⟨f, entry⟩ := Option.isSome_iff_exists.1 found
  have same := List.find?_some entry
  have same' := List.find?_some (keeps.entry.trans entry)
  rwa [← sameName_congr same]

/-- A call of a function of the catalog is kept exactly if the part of its name that is looked up has no
capital beyond ASCII, or is not known. -/
theorem keepsCall_iff (word : Literal.IsWord name) (found : (p.catalog.get? name).isSome = true) :
    p.KeepsCall name ↔
      (p.knownFunctions.any (sameName · (String.ofList (lastPart name.toList))) = true →
        ∀ c ∈ lastPart name.toList, isForeignCapital c = false) := by
  rw [← sameName_callName_iff]
  exact ⟨fun keeps => sameName_of_keepsCall keeps found, keepsCall_of_sameName word⟩

/-- Without a slash the name is looked up as a whole, and a name of no function is kept. -/
theorem keepsCall_iff_of_notMem (word : Literal.IsWord name) (noSlash : '/' ∉ name.toList) :
    p.KeepsCall name ↔ ((p.catalog.get? name).isSome = true →
      ∀ c ∈ name.toList, isForeignCapital c = false) := by
  have same : sameName name (callName p.knownFunctions name) = true ↔ _ := sameName_callName_iff
  rw [lastPart_eq_self word noSlash, String.ofList_toList, any_knownFunctions_iff] at same
  constructor
  · exact fun keeps found => same.1 (sameName_of_keepsCall keeps found) (.inr found)
  · intro plain
    exact keepsCall_of_sameName word (same.2 (Or.rec not_isForeignCapital_of_standard plain))

/-- Lower-casing keeps the functions of a filter exactly if it keeps each call. -/
theorem exists_alike_iff {text : String} {e : Expr} (parsed : Expr.parse text = .ok e) :
    (∃ e', Expr.parse (lowerFunctionNames p.knownFunctions text) = .ok e' ∧
      e.Alike (· = ·) (fun name name' => p.catalog.get? name' = p.catalog.get? name)
        (fun _ _ => True) e') ↔
      ∀ name args raw, Expr.Subterm (.call name args raw) e → p.KeepsCall name := by
  constructor
  · rintro ⟨e', parsed', entries⟩ name args raw sub
    have alike := (Expr.alike_of_parse_lowerFunctionNames parsed parsed').of_calls entries
      fun _ _ _ _ _ => And.intro
    obtain ⟨_, -, -, -, ⟨rfl, word⟩, entry⟩ := alike.exists_call sub
    exact ⟨word, entry⟩
  · intro keeps
    obtain ⟨e', parsed'⟩ := Expr.exists_parse_lowerFunctionNames parsed
      fun name args raw sub => (keeps name args raw sub).word
    have alike := Expr.alike_of_parse_lowerFunctionNames parsed parsed'
    refine ⟨e', parsed', alike.of_calls alike fun f args raw f' sub named _ => ?_⟩
    rw [named.1]
    exact (keeps f args raw sub).entry

/-- The pipeline accepts a filter only if it finds the names of all calls in small letters. -/
theorem isSome_of_process {text set : String} {q : Predicate} {e : Expr}
    (parsed : Expr.parse (trim (dropFilterName text)) = .ok e) (accepted : p.process text set = .ok q) :
    ∀ name args raw, Expr.Subterm (.call name args raw) e →
      (p.catalog.get? (callName p.knownFunctions name)).isSome = true := by
  intro name args raw sub
  rcases process_eq_ok accepted with ⟨empty, -⟩ | ⟨e', parsed', valid, -⟩
  · have tokens : spacedTokens (dropFilterName "") = .ok [] := eq_ok_of_toOption (by decide +kernel)
    rw [String.isEmpty_iff.1 empty, Expr.parse_eq, tokens] at parsed
    cases parsed
  · have alike := Expr.alike_of_parse_lowerFunctionNames parsed parsed'
    obtain ⟨_, _, _, sub', rfl, -⟩ := alike.exists_call sub
    obtain ⟨entity, -, checked⟩ := Validator.validate_eq_ok.1 valid
    obtain ⟨f, found, -⟩ := Validator.check_call_eq_ok.1 (Validator.check_subterm sub' checked)
    exact Option.isSome_iff_exists.2 ⟨f, found⟩

/-- Lower-casing keeps the function that each call of a filter stands for exactly if it keeps each call
by itself. It keeps a name without a slash unless this is the name of a function with a capital beyond
ASCII, and of a function's name with slashes the last part matters. The pipeline accepts no filter with
a call whose name in small letters is not in the catalog. -/
theorem lowerFunctionNames_resolves (p : Pipeline) :
    (∀ text e, Expr.parse text = .ok e →
      ((∃ e', Expr.parse (lowerFunctionNames p.knownFunctions text) = .ok e' ∧
          e.Alike (· = ·) (fun name name' => p.catalog.get? name' = p.catalog.get? name)
            (fun _ _ => True) e') ↔
        ∀ name args raw, Expr.Subterm (.call name args raw) e → p.KeepsCall name)) ∧
    (∀ name, Literal.IsWord name →
      ('/' ∉ name.toList → (p.KeepsCall name ↔
        ((p.catalog.get? name).isSome = true → ∀ c ∈ name.toList, isForeignCapital c = false))) ∧
      ((p.catalog.get? name).isSome = true → (p.KeepsCall name ↔
        (p.knownFunctions.any (sameName · (String.ofList (lastPart name.toList))) = true →
          ∀ c ∈ lastPart name.toList, isForeignCapital c = false)))) ∧
    ∀ text set q e, Expr.parse (trim (dropFilterName text)) = .ok e → p.process text set = .ok q →
      ∀ name args raw, Expr.Subterm (.call name args raw) e →
        (p.catalog.get? (callName p.knownFunctions name)).isSome = true :=
  ⟨fun _ _ => exists_alike_iff, fun _ word => ⟨keepsCall_iff_of_notMem word, keepsCall_iff word⟩,
    fun _ _ _ _ => isSome_of_process⟩

/-- A pipeline with a function in small letters and two with capitals beyond ASCII. -/
def towns : Pipeline where
  schema := shop.schema
  catalog := ⟨[⟨"length", "LEN(\x7b0\x7d)", ["Edm.String"], "Edm.Int32", none, none⟩,
    ⟨"ÉTAGE", "LEVEL(\x7b0\x7d)", ["Edm.String"], "Edm.Int32", none, none⟩,
    ⟨"İL", "PROVINCE(\x7b0\x7d)", ["Edm.String"], "Edm.Int32", none, none⟩]⟩
  columns := shop.columns
  options := shop.options

theorem parse_called {name text : String} (isName : Token.IsName ⟨"", .word, name⟩)
    (tokens : spacedTokens (dropFilterName text) = .ok [⟨"", .word, name⟩, ⟨"", .openParen, "("⟩,
      ⟨"", .word, "Name"⟩, ⟨"", .closeParen, ")"⟩, ⟨" ", .word, "eq"⟩, ⟨" ", .literal, "1"⟩]) :
    Expr.parse text = .ok (.comparison "eq" (.call name [.primary "Name"] (name ++ "(Name)"))
      (.primary "1")) := by
  have call : IsExpr [⟨"", .word, name⟩, ⟨"", .openParen, "("⟩, ⟨"", .word, "Name"⟩,
      ⟨"", .closeParen, ")"⟩] (.call name [.primary "Name"] (name ++ "(Name)")) :=
    isExpr_call_one isName rfl (isExpr_word _ (by decide)) rfl rfl
  exact Expr.parse_of_isExpr tokens (isExpr_comparison_iff.2 ⟨_, _, _, rfl, by decide, by decide,
    ⟨call, rfl⟩, isExpr_literal _ _, rfl⟩) (by simp [Expr.nesting, Expr.nestingOf, maxDepth])

theorem lowerFunctionNames_resolves_length :
    towns.KeepsCall "LENGTH" ∧
      (∃ e', Expr.parse (lowerFunctionNames towns.knownFunctions "LENGTH(Name) eq 1") = .ok e' ∧
        Expr.Alike (· = ·) (fun name name' => towns.catalog.get? name' = towns.catalog.get? name)
          (fun _ _ => True) (.comparison "eq" (.call "LENGTH" [.primary "Name"] "LENGTH(Name)")
            (.primary "1")) e') ∧
      (∃ q, towns.process "LENGTH(Name) eq 1" "products" = .ok q) ∧
      (towns.catalog.get? (callName towns.knownFunctions "LENGTH")).isSome = true := by
  obtain ⟨keeps, names, found⟩ := lowerFunctionNames_resolves towns
  have parsed : Expr.parse "LENGTH(Name) eq 1" = .ok (.comparison "eq"
      (.call "LENGTH" [.primary "Name"] "LENGTH(Name)") (.primary "1")) :=
    parse_called ⟨rfl, by decide⟩ (eq_ok_of_toOption (by decide +kernel))
  have parsed' : Expr.parse "length(Name) eq 1" = .ok (.comparison "eq"
      (.call "length" [.primary "Name"] "length(Name)") (.primary "1")) :=
    parse_called ⟨rfl, by decide⟩ (eq_ok_of_toOption (by decide +kernel))
  have letters : "ENGTH".toList.all isWordChar = true := by decide +kernel
  have word : Literal.IsWord "LENGTH" :=
    ⟨'L', "ENGTH".toList, rfl, by decide, List.all_eq_true.1 letters⟩
  have capitals : "LENGTH".toList.any isForeignCapital = false := by decide +kernel
  have kept : towns.KeepsCall "LENGTH" := ((names "LENGTH" word).1 (by decide)).2
    fun _ c member => Bool.eq_false_iff.2 (List.any_eq_false.1 capitals c member)
  have body : trim (dropFilterName "LENGTH(Name) eq 1") = "LENGTH(Name) eq 1" := by decide +kernel
  have lowered : lowerFunctionNames towns.knownFunctions "LENGTH(Name) eq 1" =
      "length(Name) eq 1" := by decide +kernel
  have valid : towns.validator.validate (.comparison "eq"
      (.call "length" [.primary "Name"] "length(Name)") (.primary "1")) "products" = .ok () := rfl
  obtain ⟨q, compiled⟩ : ∃ q, towns.compiler.compile (.comparison "eq"
      (.call "length" [.primary "Name"] "length(Name)") (.primary "1")) = .ok q := ⟨_, rfl⟩
  have accepted : towns.process "LENGTH(Name) eq 1" "products" = .ok q :=
    process_of_parse body (by decide) (by decide +kernel) (by rw [lowered, parsed']) valid compiled
  refine ⟨kept, (keeps _ _ parsed).2 ?_, ⟨q, accepted⟩, ?_⟩
  · intro name args raw sub
    cases sub with
    | compareLeft sub =>
      cases sub with
      | self => exact kept
      | argument member sub =>
        cases List.mem_singleton.1 member
        cases sub
    | compareRight sub => cases sub
  · exact found _ _ _ _ (body ▸ parsed) accepted _ _ _ (.compareLeft .self)

/-- A function with a capital beyond ASCII is not found by its own name, and a name with one that has a
dot makes the filter unreadable. -/
theorem accented_functions_lost :
    (towns.catalog.get? "ÉTAGE").isSome = true ∧ (towns.catalog.get? "İL").isSome = true ∧
      (∃ e, Expr.parse "ÉTAGE(Name) eq 1" = .ok e) ∧ (∃ e, Expr.parse "İL(Name) eq 1" = .ok e) ∧
      towns.process "ÉTAGE(Name) eq 1" "products" =
        .error (.invalid (.invalidExpression (.unknownFunction "étage"))) ∧
      ∀ e', Expr.parse (lowerFunctionNames towns.knownFunctions "İL(Name) eq 1") ≠ .ok e' := by
  have parsed : Expr.parse "ÉTAGE(Name) eq 1" = .ok (.comparison "eq"
      (.call "ÉTAGE" [.primary "Name"] "ÉTAGE(Name)") (.primary "1")) :=
    parse_called ⟨rfl, by decide⟩ (eq_ok_of_toOption (by decide +kernel))
  have parsed' : Expr.parse "étage(Name) eq 1" = .ok (.comparison "eq"
      (.call "étage" [.primary "Name"] "étage(Name)") (.primary "1")) :=
    parse_called ⟨rfl, by decide⟩ (eq_ok_of_toOption (by decide +kernel))
  have dotted : Expr.parse "İL(Name) eq 1" = .ok (.comparison "eq"
      (.call "İL" [.primary "Name"] "İL(Name)") (.primary "1")) :=
    parse_called ⟨rfl, by decide⟩ (eq_ok_of_toOption (by decide +kernel))
  have body : trim (dropFilterName "ÉTAGE(Name) eq 1") = "ÉTAGE(Name) eq 1" := by decide +kernel
  have lowered : lowerFunctionNames towns.knownFunctions "ÉTAGE(Name) eq 1" =
      "étage(Name) eq 1" := by decide +kernel
  refine ⟨rfl, rfl, ⟨_, parsed⟩, ⟨_, dotted⟩, ?_, fun e' read => ?_⟩
  · simp only [process, body, lowered, parsed']
    rw [if_neg (by decide), if_neg (by decide +kernel)]
    rfl
  · have alike := Expr.alike_of_parse_lowerFunctionNames dotted read
    obtain ⟨_, -, -, -, rfl, word⟩ := alike.exists_call (.compareLeft .self)
    have stray : (callName towns.knownFunctions "İL").toList.all isWordChar = false := by
      decide +kernel
    rw [List.all_eq_true.2 word.isWordChar] at stray
    cases stray

end Pipeline

end FilterSql
