import FilterSql.Proofs.MirroredComparisons

/-!
# Literals and their places

The literals of a filter, from left to right and each with the place where it stands, and the value
that belongs to it there: geometries are reprojected unless a string is expected or a list is given, a
pattern gets its wildcard, and a threshold in metres becomes one in degrees.

The bindings of a list of literals are written down without a compilation. Those of two lists are the
bindings of both, one after the other, so that what a compilation leaves can be put together from its
parts.

## Main definitions

* `Expr.occurrences`: the literals of an expression, each with the place where it stands.
* `Compiler.valueAt`: the value of a literal at its place.
* `Compiler.bindingsOf`: the bindings of a list of literals.

## Main statements

* `Compiler.valueAt_of_not_isAdjusted`: the value of a literal where nothing changes it.
* `Compiler.bindingsOf_append`: the bindings of two lists of literals.
-/

namespace FilterSql

open FilterSql.Filter Catalog Sql

/-! ## Literals and places -/

namespace Filter

/-- Where a literal stands. -/
inductive Site
  | operand
  /-- The left side of a comparison, within any number of groups. -/
  | leading
  | argument (function : String) (index : Nat)
  /-- The second argument of a distance on the left side of a comparison. -/
  | unit (function : String)
  /-- The right side of a comparison of a distance in the given unit. -/
  | threshold (function unit : String)
  /-- A value of a list. -/
  | listed
deriving DecidableEq

def Site.isUnit : Site → Bool
  | .unit _ => true
  | _ => false

structure Occurrence where
  text : String
  site : Site

namespace Expr

mutual

/-- The literals for which a parameter is bound, from left to right. -/
def literals : Expr → List String
  | .primary text => if Literal.IsBound text then [text] else []
  | .call _ args _ => literalsOf args
  | .not e => e.literals
  | .group e => e.literals
  | .comparison _ l r => l.literals ++ r.literals
  | .logical _ l r => l.literals ++ r.literals
  | .inList l values => l.literals ++ values

def literalsOf : List Expr → List String
  | [] => []
  | e :: es => e.literals ++ literalsOf es

end

/-- The name and the unit of a distance with a literal unit, within any number of groups. -/
def unit? (e : Expr) : Option (String × String) :=
  match e.ungrouped with
  | .call name (_ :: .primary text :: _) _ =>
    if Text.sameName name "distance" = true ∧ Literal.IsBound text then some (name, text) else none
  | _ => none

/-- Where the right side of a comparison stands. -/
def rightSite (left : Expr) : Site :=
  match left.unit? with
  | some (name, unit) => .threshold name unit
  | none => .operand

mutual

/-- The literals of an expression that stands at `site`, each with its own place. -/
def occurrences (site : Site) : Expr → List Occurrence
  | .primary text => if Literal.IsBound text then [⟨text, site⟩] else []
  | .call name args _ =>
    argumentOccurrences (decide (site = .leading) && Text.sameName name "distance") name 0 args
  | .not e => e.occurrences .operand
  | .group e => e.occurrences (if site = .leading then .leading else .operand)
  | .comparison _ l r => l.occurrences .leading ++ r.occurrences l.rightSite
  | .logical _ l r => l.occurrences .operand ++ r.occurrences .operand
  | .inList l values => l.occurrences .operand ++ values.map (⟨·, .listed⟩)

/-- The literals of arguments, the first of which has the given index. The second argument is a unit
if `measures` is set. -/
def argumentOccurrences (measures : Bool) (name : String) (index : Nat) : List Expr → List Occurrence
  | [] => []
  | e :: es =>
    e.occurrences (if measures && index == 1 then .unit name else .argument name index) ++
      argumentOccurrences measures name (index + 1) es

end

theorem text_occurrences (e : Expr) (site : Site) :
    (e.occurrences site).map (·.text) = e.literals := by
  induction e generalizing site with
  | primary text =>
    rw [occurrences, literals]
    split <;> rfl
  | call name args raw ih =>
    rw [occurrences, literals]
    generalize (decide (site = .leading) && Text.sameName name "distance") = measures
    generalize 0 = index
    induction args generalizing index with
    | nil => rw [argumentOccurrences, literalsOf, List.map_nil]
    | cons e es more =>
      rw [argumentOccurrences, literalsOf, List.map_append, ih e List.mem_cons_self,
        more fun e' member => ih e' (List.mem_cons_of_mem e member)]
  | not e ih | group e ih => rw [occurrences, literals, ih]
  | comparison op l r ihl ihr | logical op l r ihl ihr =>
    rw [occurrences, literals, List.map_append, ihl, ihr]
  | inList l values ih =>
    rw [occurrences, literals, List.map_append, ih, List.map_map]
    exact congrArg _ (List.map_id values)

/-- The place of an expression counts for a literal only, and for a distance on the left side of a
comparison. -/
theorem occurrences_of_not_isBoundLiteral {e : Expr} (h : isBoundLiteral e = false) {site : Site}
    (notLeading : site ≠ .leading) : e.occurrences site = e.occurrences .operand := by
  cases e with
  | primary text =>
    have unbound : ¬Literal.IsBound text := by simpa [isBoundLiteral] using h
    simp only [occurrences, if_neg unbound]
  | call | group => simp [occurrences, notLeading]
  | not | comparison | logical | inList => simp only [occurrences]

end Expr

end Filter

/-! ## Values of literals -/

namespace Sql

/-- The value of an argument in its place: the second one gets the wildcard. -/
def adornedValue (f : SqlFunction) (index : Nat) (value : Value) : Value :=
  if index = 1 ∧ f.wildcardSide.isSome = true then .string (f.applyWildcard value.text) else value

namespace Compiler

/-- The value that an argument is bound to at first. -/
def givenValue (c : Compiler) (f : SqlFunction) (index : Nat) (text : String) : Value :=
  if f.argumentFamily index = .string then Literal.value text else c.literalValue text

def argumentValue (c : Compiler) (name : String) (index : Nat) (text : String) : Value :=
  match c.catalog.get? name with
  | some f => adornedValue f index (c.givenValue f index text)
  | none => c.literalValue text

/-- The value of a literal where it stands. -/
def valueAt (c : Compiler) (o : Occurrence) : Value :=
  match o.site with
  | .operand | .leading => c.literalValue o.text
  | .argument name index => c.argumentValue name index o.text
  | .unit name => c.argumentValue name 1 o.text
  | .threshold name unit =>
    if Text.sameName (c.argumentValue name 1 unit).text "m" then (c.literalValue o.text).toDegrees
    else c.literalValue o.text
  | .listed => Literal.value o.text

/-- The bindings of literals, which are numbered from one. A unit has a number and no entry. -/
def bindingsOf (c : Compiler) (os : List Occurrence) : Bindings where
  count := os.length
  table := ⟨((os.zipIdx 1).filter (!·.1.site.isUnit)).map fun (o, i) => (i, c.valueAt o)⟩

end Compiler

namespace Bindings

/-- The bindings of one value. -/
def single (value : Value) : Bindings := ⟨1, ⟨[(1, value)]⟩⟩

/-- A parameter that was dropped. -/
def dropped : Bindings := ⟨1, .empty⟩

variable {base : Bindings}

theorem get?_single (bounded : base.Bounded) (value : Value) (rest : Bindings) :
    (base ++ (single value ++ rest)).table.get? (base.count + 1) = some value := by
  rw [get?_append bounded Nat.one_pos]
  rfl

theorem insert_single (bounded : base.Bounded) (value : Value) (rest : Bindings) (value' : Value) :
    (base ++ (single value ++ rest)).table.insert (base.count + 1) value' =
      (base ++ (single value' ++ rest)).table := by
  rw [insert_append bounded Nat.one_pos]
  rfl

theorem erase_single (bounded : base.Bounded) (value : Value) (rest : Bindings) :
    (base ++ (single value ++ rest)).table.erase (base.count + 1) =
      (base ++ (dropped ++ rest)).table := by
  rw [erase_append bounded Nat.one_pos]
  rfl

end Bindings

theorem Fragment.renumber_ne_param {f : Fragment} (h : ∀ n, f ≠ .param n) (base : Nat) :
    ∀ n, f.renumber base ≠ .param n := by
  cases f with
  | param n => exact absurd rfl (h n)
  | null | clause => simp [renumber]

namespace Compiler

variable {c : Compiler}

@[simp] theorem bindingsOf_nil : c.bindingsOf [] = .empty := rfl

theorem bindingsOf_singleton {o : Occurrence} (h : o.site.isUnit = false) :
    c.bindingsOf [o] = .single (c.valueAt o) := by
  simp [bindingsOf, h, Bindings.single]

theorem bindingsOf_unit (text name : String) : c.bindingsOf [⟨text, .unit name⟩] = .dropped := rfl

theorem bindingsOf_append (os os' : List Occurrence) :
    c.bindingsOf (os ++ os') = c.bindingsOf os ++ c.bindingsOf os' := by
  have later : os'.zipIdx (1 + os.length) = (os'.zipIdx 1).map (Prod.map id (· + os.length)) := by
    rw [List.map_snd_add_zipIdx_eq_zipIdx, Nat.add_comm]
  change Bindings.mk _ ⟨_⟩ = Bindings.mk _ ⟨_⟩
  rw [List.zipIdx_append, later]
  simp [bindingsOf, List.filter_map, Function.comp_def, Nat.add_comm]

/-! ## Values that nothing changes -/

/-- A geometry in the storage system, or as it is written if it cannot be moved there. -/
def reprojectedValue (c : Compiler) (text : String) : Value :=
  match Geodesy.reprojectText c.options.sourceSrid Geodesy.storageSrid (Literal.unquote text) with
  | .ok moved => .string moved
  | .error _ => .string (Literal.unquote text)

/-- The values at a place are changed after they are bound: by a wildcard, or as a threshold. -/
def isAdjusted (c : Compiler) : Site → Bool
  | .argument name index => index == 1 && (c.catalog.get? name).any (·.wildcardSide.isSome)
  | .unit name => (c.catalog.get? name).any (·.wildcardSide.isSome)
  | .threshold _ _ => true
  | .operand | .leading | .listed => false

/-- Texts are bound as they are written at a place: in a list, or where a string is expected. -/
def keepsText (c : Compiler) : Site → Bool
  | .argument name index => (c.catalog.get? name).any (·.argumentFamily index == .string)
  | .unit name => (c.catalog.get? name).any (·.argumentFamily 1 == .string)
  | .listed => true
  | .operand | .leading | .threshold _ _ => false

theorem literalValue_eq (text : String) :
    c.literalValue text = if Literal.isQuoted text && Literal.isSpatial text then
      c.reprojectedValue text else Literal.value text := rfl

theorem argumentValue_of_not_isAdjusted {name : String} {index : Nat}
    (h : c.isAdjusted (.argument name index) = false) (text : String) :
    c.argumentValue name index text =
      if c.keepsText (.argument name index) then Literal.value text else c.literalValue text := by
  cases found : c.catalog.get? name with
  | none => simp [argumentValue, keepsText, found]
  | some f =>
    have plain : ¬(index = 1 ∧ f.wildcardSide.isSome = true) := by
      simpa [isAdjusted, found] using h
    simp only [argumentValue, adornedValue, givenValue, keepsText, found, if_neg plain,
      Option.any_some, beq_iff_eq]

/-- The value of a literal that is not changed. -/
theorem valueAt_of_not_isAdjusted {o : Occurrence} (h : c.isAdjusted o.site = false) :
    c.valueAt o =
      if Literal.isQuoted o.text && Literal.isSpatial o.text && !c.keepsText o.site then
        c.reprojectedValue o.text
      else Literal.value o.text := by
  obtain ⟨text, site⟩ := o
  have argument {name : String} {index : Nat} (plain : c.isAdjusted (.argument name index) = false) :
      c.argumentValue name index text =
        if Literal.isQuoted text && Literal.isSpatial text && !c.keepsText (.argument name index) then
          c.reprojectedValue text
        else Literal.value text := by
    rw [argumentValue_of_not_isAdjusted plain, literalValue_eq]
    cases c.keepsText (.argument name index) <;> simp
  cases site with
  | operand | leading => simp [valueAt, keepsText, literalValue_eq]
  | argument name index => exact argument h
  | unit name => exact argument (by simpa [isAdjusted] using h)
  | threshold name unit => cases h
  | listed => simp [valueAt, keepsText]

end Compiler

end Sql

end FilterSql
