import FilterSql.Proofs.AlikePhrases
import FilterSql.Proofs.LiteralIndependence
import FilterSql.Proofs.PrintedText
import FilterSql.Validation

/-!
# Checking alike filters

Two filters whose words differ in case only are checked with one result: words are looked up in any
case, and so are the literals among them. The text of a call, in which the case of its words and the
blanks between them remain, is looked at for units and for arguments that the tree does not have. Where
a filter was read, neither is found there, except for a unit that is a single word.

## Main statements

* `Validation.walkPath_outline`: a path leads to the same property in any case.
* `Validator.check_outline`: alike filters pass a check, or fail it with the same kind of error.
-/

namespace FilterSql

open Text FilterSql.Filter Catalog Schema

/-! ## Leaves -/

namespace Filter

/-- The same text, or words that differ in case only. -/
def SameLeaf (s s' : String) : Prop :=
  s' = s ∨ Literal.IsWord s ∧ Literal.IsWord s' ∧ sameName s s' = true

theorem Literal.readBool?_congr {s s' : String} (h : sameName s s' = true) :
    readBool? s' = readBool? s := by
  simp only [readBool?, sameName_congr h]

namespace SameLeaf

variable {s s' : String}

theorem isNull_eq (h : SameLeaf s s') : Literal.isNull s' = Literal.isNull s := by
  rcases h with rfl | ⟨word, word', same⟩
  · rfl
  · rw [Literal.isNull, Literal.isNull, word.trim_eq, word'.trim_eq, sameName_congr same]

theorem isQuoted_eq (h : SameLeaf s s') : Literal.isQuoted s' = Literal.isQuoted s := by
  rcases h with rfl | ⟨word, word', same⟩
  · rfl
  · rw [word.isQuoted_eq, word'.isQuoted_eq]

theorem isLiteral_eq (h : SameLeaf s s') : Literal.isLiteral s' = Literal.isLiteral s := by
  rcases id h with rfl | ⟨word, word', same⟩
  · rfl
  · rw [word.isLiteral_eq, word'.isLiteral_eq, h.isNull_eq, Literal.readBool?_congr same]

theorem kind_eq (h : SameLeaf s s') : Literal.kind s' = Literal.kind s := by
  rcases h with rfl | ⟨word, word', same⟩
  · rfl
  · rw [word.kind_eq, word'.kind_eq, Literal.readBool?_congr same]

theorem kindFor_eq (h : SameLeaf s s') (family : Edm.Family) :
    Literal.kindFor s' family = Literal.kindFor s family := by
  have quoted : Literal.isQuoted (trim s') = Literal.isQuoted (trim s) := by
    rcases id h with rfl | ⟨word, word', same⟩
    · rfl
    · rw [word.trim_eq, word'.trim_eq, h.isQuoted_eq]
  rw [Literal.kindFor, Literal.kindFor, quoted, h.kind_eq]

theorem fits_eq (h : SameLeaf s s') (declared : Edm.Kind) :
    Literal.fits declared s' = Literal.fits declared s := by
  rw [Literal.fits, Literal.fits, h.isNull_eq, h.kindFor_eq]

/-- Words that are bound are truth values. -/
theorem value_eq (h : SameLeaf s s') (isLiteral : Literal.isLiteral s = true)
    (notNull : Literal.isNull s = false) : Literal.value s' = Literal.value s := by
  rcases h with rfl | ⟨word, word', same⟩
  · rfl
  · rw [word.isLiteral_eq, notNull, Bool.false_or] at isLiteral
    obtain ⟨b, eq⟩ := Option.isSome_iff_exists.1 isLiteral
    rw [word.value_eq, word'.value_eq, Literal.readBool?_congr same, eq]
    rfl

end SameLeaf

end Filter

/-! ## Paths -/

/-- The error without the words that it quotes from the filter. -/
def ExpressionError.outline : ExpressionError → ExpressionError
  | .propertyNotFound _ owner => .propertyNotFound "" owner
  | .primitiveNavigation property typeName _ => .primitiveNavigation property typeName ""
  | .unknownComplexType property typeName => .unknownComplexType property typeName
  | .unknownFunction _ => .unknownFunction ""
  | .argumentCount _ expected actual => .argumentCount "" expected actual
  | .argumentType position function actual expected =>
    .argumentType position function actual expected
  | .distanceUnit _ => .distanceUnit ""
  | .notALiteral _ => .notALiteral ""
  | .inTypeMismatch _ _ => .inTypeMismatch "" ""

namespace Validation

theorem segmentsOf_map_toLower (cs : List Char) :
    segmentsOf '/' (cs.map Char.toLower) = (segmentsOf '/' cs).map (·.map Char.toLower) := by
  have slash : IgnoresCase (· == '/') := ignoresCase_of_capitals (by decide)
  induction cs with
  | nil => rfl
  | cons c cs ih =>
    have same : (c.toLower == '/') = (c == '/') := slash c
    rw [List.map_cons, segmentsOf, segmentsOf, ih, same]
    split
    · rfl
    · cases segmentsOf '/' cs <;> rfl

theorem mem_of_mem_segmentsOf {cs : List Char} {c : Char} :
    ∀ segment ∈ segmentsOf '/' cs, c ∈ segment → c ∈ cs := by
  induction cs with
  | nil => simp [segmentsOf]
  | cons d cs ih =>
    rw [segmentsOf]
    split
    · intro segment member inside
      rcases List.mem_cons.1 member with rfl | member
      · cases inside
      · exact List.mem_cons_of_mem d (ih segment member inside)
    · generalize segmentsOf '/' cs = parts at ih
      cases parts with
      | nil => simp +contextual
      | cons first others =>
        intro segment member inside
        rcases List.mem_cons.1 member with rfl | member
        · rcases List.mem_cons.1 inside with rfl | inside
          · exact List.mem_cons_self
          · exact List.mem_cons_of_mem d (ih first List.mem_cons_self inside)
        · exact List.mem_cons_of_mem d (ih segment (List.mem_cons_of_mem first member) inside)

theorem mem_of_mem_trim {s : String} {c : Char} (h : c ∈ (trim s).toList) : c ∈ s.toList := by
  obtain ⟨before, after, eq, -⟩ := exists_blanks_around s.toList
  rw [trim, String.toList_ofList] at h
  rw [eq]
  exact List.mem_append_right before (List.mem_append_left after h)

theorem sameName_trim {s s' : String} (same : sameName s s' = true) :
    sameName (trim s) (trim s') = true := by
  have folded : foldCase (trim s) = foldCase (trim s') := by
    rw [← trim_foldCase, ← trim_foldCase, foldCase_congr same]
  simpa [foldCase, sameName_iff, ← String.toList_inj] using folded

/-- Segments that are looked up with one result. -/
structure SameSegment (s s' : String) : Prop where
  name : sameName s s' = true
  isLiteral : Literal.isLiteral s' = Literal.isLiteral s

theorem sameSegment_trim {s s' : String} (same : sameName s s' = true) (colon : ':' ∉ s.toList) :
    SameSegment (trim s) (trim s') := by
  have ignores : IgnoresCase (· != ':') := ignoresCase_of_capitals (by decide)
  have others : ∀ c ∈ s.toList, (c != ':') = true := by
    intro c member
    rw [bne_iff_ne]
    rintro rfl
    exact colon member
  have colon' : ':' ∉ s'.toList := by
    intro member
    exact absurd (forall_mem_of_map_toLower ignores (sameName_iff.1 same) others ':' member)
      (by decide)
  -- a text that needs its capital letters to be a literal has a colon in it
  have untimed {t : String} (colon : ':' ∉ t.toList) :
      Calendar.readLocal? (trim (trim t)).toList = none := by
    rw [Option.eq_none_iff_forall_ne_some]
    intro time read
    obtain ⟨before, after, eq, -⟩ := Calendar.readLocal?_eq_some read
    have member : ':' ∈ (trim (trim t)).toList := by simp [eq]
    exact colon (mem_of_mem_trim (mem_of_mem_trim member))
  have name := sameName_trim same
  exact ⟨name, (Literal.isLiteral_of_sameName name (untimed colon) (untimed colon')).symm⟩

theorem segments_of_isWord {s s' : String} (word : Literal.IsWord s) (same : sameName s s' = true) :
    List.Forall₂ SameSegment ((segments '/' s).map trim) ((segments '/' s').map trim) := by
  have colon : ∀ segment ∈ segmentsOf '/' s.toList, ':' ∉ segment := by
    intro segment member colon
    exact absurd (word.isWordChar ':' (mem_of_mem_segmentsOf segment member colon)) (by decide)
  have lowered : (segmentsOf '/' s.toList).map (·.map Char.toLower) =
      (segmentsOf '/' s'.toList).map (·.map Char.toLower) := by
    rw [← segmentsOf_map_toLower, ← segmentsOf_map_toLower, sameName_iff.1 same]
  rw [← List.forall₂_eq_eq_eq, List.forall₂_map_left_iff, List.forall₂_map_right_iff] at lowered
  simp only [segments, List.forall₂_map_left_iff, List.forall₂_map_right_iff]
  refine ((List.forall₂_and_left _ _).2 ⟨colon, lowered⟩).imp fun part part' h => ?_
  exact sameSegment_trim (sameName_iff.2 (by simpa using h.2)) (by simpa using h.1)

theorem property?_congr {s s' : String} (same : sameName s s' = true) (owner : StructuredType) :
    owner.property? s' = owner.property? s := by
  simp only [StructuredType.property?, sameName_congr_right same]

theorem walk_outline (m : Model) {path path' : List String}
    (same : List.Forall₂ SameSegment path path') (place : Place) (last : Option Property) :
    (walk m place last path').mapError ExpressionError.outline =
      (walk m place last path).mapError ExpressionError.outline := by
  induction same generalizing place last with
  | nil => rfl
  | cons first _ ih =>
    simp only [walk, first.isLiteral]
    split
    · exact ih place last
    · cases place with
      | atProperty p =>
        dsimp only
        split <;> rfl
      | inside owner =>
        dsimp only
        rw [property?_congr first.name]
        cases owner.property? _ with
        | none => rfl
        | some p => exact ih _ _

theorem walkPath_outline (m : Model) (entity : EntityType) {s s' : String} (h : SameLeaf s s') :
    (walkPath m entity s').mapError ExpressionError.outline =
      (walkPath m entity s).mapError ExpressionError.outline := by
  rcases h with rfl | ⟨word, -, same⟩
  · rfl
  · exact walk_outline m (segments_of_isWord word same) _ _

end Validation

/-! ## Trees -/

namespace Filter

/-- Trees of one shape whose words differ in case only. The texts of calls may differ. -/
abbrev Expr.SameButCase : Expr → Expr → Prop :=
  Alike SameLeaf (fun name name' => sameName name name' = true) fun _ _ => True

/-- The expression is what some tokens are read as, without blanks in front of them. -/
def Expr.Readable (e : Expr) : Prop := ∃ ts, Prints "" e ts

theorem Expr.Readable.of_parse {text : String} {e : Expr} (h : parse text = .ok e) {u : Expr}
    (sub : Subterm u e) : u.Readable := by
  obtain ⟨ts, rest, phrase, stand, -⟩ := exists_phrase_of_parse h
  obtain ⟨us, part, phrase'⟩ := phrase.holdsPhrase_of_subterm sub
  obtain ⟨rest', stand'⟩ := stand.of_infix part
  have noBlank : ∀ c ∈ "".toList, isBlank c = true := nofun
  exact phrase'.exists_prints stand' noBlank

/-- No unit of a distance is written as a word. -/
def Expr.UnitsQuoted (e : Expr) : Prop :=
  ∀ name args raw, Subterm (.call name args raw) e → sameName name "distance" = true →
    ∀ word, args[1]? = some (.primary word) → ¬Literal.IsWord word

/-- Trees that were read from filters whose words differ in case only, with units in quotes. -/
structure Expr.ReadAlike (e e' : Expr) : Prop where
  alike : e.SameButCase e'
  readable : ∀ u, Subterm u e → u.Readable
  readable' : ∀ u, Subterm u e' → u.Readable
  quoted : e.UnitsQuoted

/-- The same holds of two parts that correspond to each other. -/
theorem Expr.ReadAlike.part {e e' u u' : Expr} (h : e.ReadAlike e') (sub : Subterm u e)
    (sub' : Subterm u' e') (alike : u.SameButCase u') : u.ReadAlike u' where
  alike := alike
  readable _ part := h.readable _ (part.trans sub)
  readable' _ part := h.readable' _ (part.trans sub')
  quoted name args raw part := h.quoted name args raw (part.trans sub)

end Filter

theorem FunctionCatalog.get?_congr {name name' : String} (same : sameName name name' = true)
    (catalog : FunctionCatalog) : catalog.get? name' = catalog.get? name := by
  simp only [FunctionCatalog.get?, sameName_congr_right same]

theorem mapError_bind_congr {ε ε' α β : Type} {outline : ε → ε'} {x x' : Except ε α}
    {f f' : α → Except ε β} (first : x'.mapError outline = x.mapError outline)
    (next : ∀ a, (f' a).mapError outline = (f a).mapError outline) :
    (x' >>= f').mapError outline = (x >>= f).mapError outline := by
  rcases x with err | a <;> rcases x' with err' | a' <;>
    simp_all [Except.mapError, bind, Except.bind]

namespace Validator

open Validation

variable {v : Validator} {entity : EntityType} {f : SqlFunction} {e e' : Expr}

/-! ## Types -/

theorem typeOf_primary {s s' : String} (h : SameLeaf s s') :
    v.typeOf entity (.primary s') = v.typeOf entity (.primary s) := by
  have same := walkPath_outline v.schema entity h
  simp only [typeOf, h.isNull_eq, h.isLiteral_eq, h.kind_eq]
  generalize walkPath v.schema entity s = x, walkPath v.schema entity s' = x' at same
  rcases x with err | p <;> rcases x' with err' | p' <;> simp_all [Except.mapError]

theorem typeOf_eq (h : e.SameButCase e') : v.typeOf entity e' = v.typeOf entity e := by
  induction e generalizing e' with
  | primary s =>
    cases h with
    | primary leaf => exact typeOf_primary leaf
  | call name args raw =>
    cases h with
    | call same _ _ => simp only [typeOf, FunctionCatalog.get?_congr same]
  | group e ih =>
    cases h with
    | group inner =>
      rw [typeOf, typeOf]
      exact ih inner
  | not | comparison | logical | inList =>
    cases h
    rfl

theorem argumentType_eq (h : e.SameButCase e') (index : Nat) :
    v.argumentType entity f index e' = v.argumentType entity f index e := by
  cases h with
  | primary leaf =>
    simp only [argumentType, leaf.isQuoted_eq, leaf.kindFor_eq, typeOf_primary leaf]
  | call same args text => exact typeOf_eq (.call same args text)
  | not inner => exact typeOf_eq (.not inner)
  | group inner => exact typeOf_eq (.group inner)
  | comparison left right => exact typeOf_eq (.comparison left right)
  | logical left right => exact typeOf_eq (.logical left right)
  | inList left values => exact typeOf_eq (.inList left values)

/-! ## Calls -/

/-- A unit in quotes is the same in both, and a composite argument is no unit. -/
theorem checkUnit_outline (h : e.SameButCase e') (readable : e.Readable) (readable' : e'.Readable)
    {index : Nat} (quoted : f.isDistance = true → index = 1 →
      ∀ word, e = .primary word → ¬Literal.IsWord word) :
    (checkUnit f index e').mapError ExpressionError.outline =
      (checkUnit f index e).mapError ExpressionError.outline := by
  cases second : (f.isDistance && index == 1) with
  | false => simp [checkUnit, second]
  | true =>
    have composite (one : ∀ text, e ≠ .primary text) (other : ∀ text, e' ≠ .primary text) :
        (checkUnit f index e').mapError ExpressionError.outline =
          (checkUnit f index e).mapError ExpressionError.outline := by
      obtain ⟨ts, prints⟩ := readable
      obtain ⟨ts', prints'⟩ := readable'
      simp [checkUnit, second, prints.unit_notMem one, prints'.unit_notMem other, Except.mapError,
        ExpressionError.outline]
    cases h with
    | primary leaf =>
      simp only [Bool.and_eq_true, beq_iff_eq] at second
      rcases leaf with rfl | ⟨word, -⟩
      · rfl
      · exact absurd word (quoted second.1 second.2 _ rfl)
    | call | not | group | comparison | logical | inList => exact composite nofun nofun

theorem checkTypes_outline {args args' : List Expr}
    (h : List.Forall₂ Expr.SameButCase args args') (readable : ∀ arg ∈ args, arg.Readable)
    (readable' : ∀ arg ∈ args', arg.Readable) (index : Nat)
    (quoted : f.isDistance = true → ∀ i, index + i = 1 →
      ∀ word, args[i]? = some (.primary word) → ¬Literal.IsWord word) :
    (v.checkTypes entity f index args').mapError ExpressionError.outline =
      (v.checkTypes entity f index args).mapError ExpressionError.outline := by
  induction h generalizing index with
  | nil => rfl
  | cons first _ ih =>
    obtain ⟨isReadable, readable⟩ := List.forall_mem_cons.1 readable
    obtain ⟨isReadable', readable'⟩ := List.forall_mem_cons.1 readable'
    have unit := checkUnit_outline first isReadable isReadable'
      fun distance one word eq => quoted distance 0 one word (by simp [eq])
    simp only [checkTypes, argumentType_eq first]
    refine mapError_bind_congr unit fun _ => mapError_bind_congr rfl fun _ => ?_
    refine ih readable readable' (index + 1) fun distance i one word eq => ?_
    exact quoted distance (i + 1) (by omega) word eq

/-- No argument is recovered from the text of either call, so only the arguments count. -/
theorem checkCall_outline {name name' raw raw' : String} {args args' : List Expr}
    (arguments : List.Forall₂ Expr.SameButCase args args')
    (readable : ∀ u, Expr.Subterm u (.call name args raw) → u.Readable)
    (readable' : ∀ u, Expr.Subterm u (.call name' args' raw') → u.Readable)
    (quoted : f.isDistance = true → ∀ word, args[1]? = some (.primary word) →
      ¬Literal.IsWord word) :
    (v.checkCall entity f name' raw' args').mapError ExpressionError.outline =
      (v.checkCall entity f name raw args).mapError ExpressionError.outline := by
  have types : (v.checkTypes entity f 0 args').mapError ExpressionError.outline =
      (v.checkTypes entity f 0 args).mapError ExpressionError.outline := by
    refine checkTypes_outline arguments (fun arg member => readable arg (.argument member .self))
      (fun arg member => readable' arg (.argument member .self)) 0 fun distance i one word eq => ?_
    obtain rfl : i = 1 := by omega
    exact quoted distance word eq
  have counted : (if args'.length ≠ f.arity then .error (.argumentCount name' f.arity args'.length)
      else v.checkTypes entity f 0 args').mapError ExpressionError.outline =
      (if args.length ≠ f.arity then .error (.argumentCount name f.arity args.length)
      else v.checkTypes entity f 0 args).mapError ExpressionError.outline := by
    rw [← arguments.length_eq]
    split
    · rfl
    · exact types
  cases arguments with
  | nil =>
    obtain ⟨ts, prints⟩ := readable _ .self
    obtain ⟨ts', prints'⟩ := readable' _ .self
    simp only [checkCall, prints.recoveredArgument?_eq, prints'.recoveredArgument?_eq]
    split
    · rfl
    · exact counted
  | cons => exact counted

/-! ## Filters -/

theorem checkValues_outline (declared : Edm.Kind) (path path' : String)
    {values values' : List String} (h : List.Forall₂ SameLeaf values values') :
    (checkValues declared path' values').mapError ExpressionError.outline =
      (checkValues declared path values).mapError ExpressionError.outline := by
  induction h with
  | nil => rfl
  | cons first _ ih =>
    simp only [checkValues, first.isLiteral_eq, first.fits_eq]
    split
    · simp [Except.mapError, ExpressionError.outline]
    · split
      · simp [Except.mapError, ExpressionError.outline]
      · exact ih

theorem checkAll_outline {args args' : List Expr} (h : List.Forall₂ Expr.SameButCase args args')
    (each : ∀ arg ∈ args, ∀ arg' ∈ args', arg.SameButCase arg' →
      (v.check entity arg').mapError ExpressionError.outline =
        (v.check entity arg).mapError ExpressionError.outline) :
    (v.checkAll entity args').mapError ExpressionError.outline =
      (v.checkAll entity args).mapError ExpressionError.outline := by
  induction h with
  | nil => rfl
  | cons first _ ih =>
    simp only [checkAll]
    refine mapError_bind_congr (each _ List.mem_cons_self _ List.mem_cons_self first) fun _ => ?_
    exact ih fun arg member arg' member' =>
      each arg (List.mem_cons_of_mem _ member) arg' (List.mem_cons_of_mem _ member')

theorem check_outline (h : e.ReadAlike e') :
    (v.check entity e').mapError ExpressionError.outline =
      (v.check entity e).mapError ExpressionError.outline := by
  induction e generalizing e' with
  | primary s =>
    cases h.alike with
    | primary leaf =>
      simp only [check, leaf.isLiteral_eq]
      split
      · rfl
      · have same := walkPath_outline v.schema entity leaf
        generalize walkPath v.schema entity s = x, walkPath v.schema entity _ = x' at same
        rcases x with err | p <;> rcases x' with err' | p' <;> simp_all [Except.mapError, Except.map]
  | call name args raw ih =>
    cases h.alike with
    | @call _ name' _ raw' _ args' same arguments _ =>
      simp only [check, FunctionCatalog.get?_congr same]
      cases found : v.catalog.get? name with
      | none => rfl
      | some f =>
        have each : ∀ arg ∈ args, ∀ arg' ∈ args', arg.SameButCase arg' →
            (v.check entity arg').mapError ExpressionError.outline =
              (v.check entity arg).mapError ExpressionError.outline :=
          fun arg member arg' member' alike =>
            ih arg member (h.part (.argument member .self) (.argument member' .self) alike)
        refine mapError_bind_congr (checkAll_outline arguments each) fun _ =>
          checkCall_outline arguments h.readable h.readable' fun distance => ?_
        exact h.quoted name args raw .self (FunctionCatalog.sameName_of_isDistance found distance)
  | not e ih =>
    cases h.alike with
    | not inner =>
      simp only [check]
      exact ih (h.part (.negated .self) (.negated .self) inner)
  | group e ih =>
    cases h.alike with
    | group inner =>
      simp only [check]
      exact ih (h.part (.grouped .self) (.grouped .self) inner)
  | comparison op l r ihl ihr =>
    cases h.alike with
    | comparison left right =>
      simp only [check]
      exact mapError_bind_congr (ihl (h.part (.compareLeft .self) (.compareLeft .self) left))
        fun _ => ihr (h.part (.compareRight .self) (.compareRight .self) right)
  | logical op l r ihl ihr =>
    cases h.alike with
    | logical left right =>
      simp only [check]
      exact mapError_bind_congr (ihl (h.part (.connectLeft .self) (.connectLeft .self) left))
        fun _ => ihr (h.part (.connectRight .self) (.connectRight .self) right)
  | inList l values ih =>
    cases h.alike with
    | inList left listed =>
      simp only [check, typeOf_eq left]
      exact mapError_bind_congr (ih (h.part (.listed .self) (.listed .self) left))
        fun _ => checkValues_outline _ _ _ listed

end Validator

end FilterSql
