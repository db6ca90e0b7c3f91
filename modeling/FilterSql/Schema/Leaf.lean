import FilterSql.Schema.Model

/-!
# Leaves of an entity type

The primitive properties that can be reached from an entity type through complex types, each with its
path. A complex type is not entered again below itself, so the listing ends for every schema: the
complex types that are left to enter become fewer with every step down.
-/

namespace FilterSql.Schema

open Text

structure Leaf where
  path : String
  typeName : String
deriving Repr, DecidableEq

/-- Whether a type name starts with `Edm.`, in any case. -/
def isPrimitiveName (typeName : String) : Bool := (dropName? "Edm.".toList typeName.toList).isSome

/-- The path of a property below `parent`. -/
def childPath (parent : Option String) (name : String) : String :=
  match parent with
  | some p => p ++ "/" ++ name
  | none => name

/-- The complex type to enter for a type name: a known one whose name is not in `visiting`. -/
def Model.enter? (m : Model) (visiting : List String) (typeName : String) : Option ComplexType :=
  (m.complexType? typeName).filter fun t => !visiting.contains t.name

/-- How many complex types are not being visited. -/
def Model.unvisited (m : Model) (visiting : List String) : Nat :=
  (m.complexTypes.filter fun t => !visiting.contains t.name).length

theorem Model.enter?_mem {m : Model} {visiting : List String} {typeName : String} {t : ComplexType}
    (h : m.enter? visiting typeName = some t) :
    t ∈ m.complexTypes ∧ visiting.contains t.name = false := by
  obtain ⟨found, fresh⟩ := Option.filter_eq_some_iff.1 h
  exact ⟨List.mem_of_find?_eq_some found, by simpa using fresh⟩

theorem Model.unvisited_lt {m : Model} {visiting : List String} {typeName : String}
    {t : ComplexType} (h : m.enter? visiting typeName = some t) :
    m.unvisited (t.name :: visiting) < m.unvisited visiting := by
  obtain ⟨mem, fresh⟩ := enter?_mem h
  have fewer : (m.complexTypes.filter fun u => !(t.name :: visiting).contains u.name) =
      (m.complexTypes.filter fun u => !visiting.contains u.name).filter (·.name != t.name) := by
    simp only [List.filter_filter, List.contains_cons, Bool.not_or, bne]
  rw [unvisited, unvisited, fewer, List.length_filter_lt_length_iff_exists]
  exact ⟨t, List.mem_filter.2 ⟨mem, by rw [fresh, Bool.not_false]⟩, by simp⟩

/-- The leaves of a list of properties below `parent`, in order of declaration and depth first, while
the complex types in `visiting` are being listed. If `only` is given, leaves of other kinds are left
out. -/
def Model.leavesBelow (m : Model) (only : Option Edm.Kind) (visiting : List String)
    (parent : Option String) : List Property → List Leaf
  | [] => []
  | p :: rest =>
    let typeName := trim p.typeName
    let here :=
      if typeName.isEmpty then []
      else if isPrimitiveName typeName then
        if only.all (Edm.Kind.ofTypeName typeName == ·) then [⟨childPath parent p.name, typeName⟩]
        else []
      else
        match _h : m.enter? visiting typeName with
        | some t =>
          m.leavesBelow only (t.name :: visiting) (some (childPath parent p.name)) t.properties
        | none => []
    here ++ m.leavesBelow only visiting parent rest
termination_by properties => (m.unvisited visiting, properties.length)
decreasing_by
  · exact Prod.Lex.left _ _ (unvisited_lt _h)
  · exact Prod.Lex.right _ (by simp)

/-- The leaves of an entity type, of one kind when `only` is given. -/
def Model.leaves (m : Model) (entityType : String) (only : Option Edm.Kind) : List Leaf :=
  match m.entityType? entityType with
  | none => []
  | some entity => m.leavesBelow only [] none entity.properties

end FilterSql.Schema
