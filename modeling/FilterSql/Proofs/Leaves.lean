import FilterSql.Proofs.AsciiCase
import FilterSql.Schema.Leaf
import FilterSql.Validation

/-!
# Chains of properties

A leaf of an entity type is the end of a chain of properties: each but the last has a complex type,
which declares the next one. The path of the leaf is made of the names on its chain. Where names are
no literals and tell the properties of a type apart, the check of a path finds that chain again.

## Main definitions

* `Schema.Model.Descends`: the chains of properties, with their places and the types they pass.
* `Schema.Model.IsAcyclicChain`: the chains that pass no two complex types of one name.

## Main statements

* `Schema.Model.Descends.walk_eq`: the check of a path follows its chain to the end.
-/

namespace FilterSql

open Text FilterSql.Filter

/-! ## Segments -/

namespace Text

theorem segmentsOf_of_notMem {sep : Char} {cs : List Char} (h : sep ∉ cs) :
    segmentsOf sep cs = [cs] := by
  induction cs with
  | nil => rfl
  | cons c cs ih =>
    obtain ⟨first, others⟩ := not_or.1 (mt List.mem_cons.2 h)
    rw [segmentsOf, if_neg (by simpa using Ne.symm first), ih others]

theorem segmentsOf_append {sep : Char} {cs : List Char} (h : sep ∉ cs) (rest : List Char) :
    segmentsOf sep (cs ++ sep :: rest) = cs :: segmentsOf sep rest := by
  induction cs with
  | nil => simp [segmentsOf]
  | cons c cs ih =>
    obtain ⟨first, others⟩ := not_or.1 (mt List.mem_cons.2 h)
    rw [List.cons_append, segmentsOf, if_neg (by simpa using Ne.symm first), ih others]

/-- A text joined from names without the separator is cut into these names. -/
theorem segments_intercalate {name : String} {names : List String}
    (h : ∀ n ∈ name :: names, '/' ∉ n.toList) :
    segments '/' ("/".intercalate (name :: names)) = name :: names := by
  induction names generalizing name with
  | nil =>
    have plain : '/' ∉ name.toList := h name List.mem_cons_self
    simp [segments, segmentsOf_of_notMem plain]
  | cons next names ih =>
    have plain : '/' ∉ name.toList := h name List.mem_cons_self
    have others := ih fun n member => h n (List.mem_cons_of_mem name member)
    simp only [segments, String.toList_intercalate, List.map_cons] at others ⊢
    rw [List.intercalate_cons_cons, List.append_assoc]
    simpa [segmentsOf_append plain] using others

end Text

/-! ## Chains -/

namespace Schema

/-- A chain of properties, each with its place among the properties of a type, that starts among the
`declared` ones and ends at a primitive one. Every property but the last has a complex type, which
declares the next one; the names of these types come last. -/
inductive Model.Descends (m : Model) :
    List (Property × Nat) → List (Property × Nat) → List String → Prop
  | leaf {declared : List (Property × Nat)} {p : Property} {i : Nat} :
    (p, i) ∈ declared → isPrimitiveName (trim p.typeName) = true → m.Descends declared [(p, i)] []
  | enter {declared chain : List (Property × Nat)} {p : Property} {i : Nat} {t : ComplexType}
    {names : List String} :
    (p, i) ∈ declared → trim p.typeName ≠ "" → isPrimitiveName (trim p.typeName) = false →
    m.complexType? (trim p.typeName) = some t → m.Descends t.properties.zipIdx chain names →
    m.Descends declared ((p, i) :: chain) (t.name :: names)

/-- A chain from a type that passes through complex types of different names. -/
def Model.IsAcyclicChain (m : Model) (owner : StructuredType)
    (chain : List (Property × Nat)) : Prop :=
  ∃ names, m.Descends owner.properties.zipIdx chain names ∧ names.Nodup

/-- The path along a chain. -/
def pathOf (chain : List Property) : String := "/".intercalate (chain.map (·.name))

/-- The leaf at the end of a chain below `parent`. -/
def IsEnd (parent : Option String) (chain : List Property) (leaf : Leaf) : Prop :=
  leaf.path = childPath parent (pathOf chain) ∧
    chain.getLast?.map (trim ·.typeName) = some leaf.typeName

section Chains

variable {m : Model} {names : List String} {declared chain : List (Property × Nat)}

theorem Model.Descends.exists_cons (h : m.Descends declared chain names) :
    ∃ x rest, chain = x :: rest ∧ x ∈ declared := by
  cases h with
  | leaf member | enter member => exact ⟨_, _, rfl, member⟩

theorem Model.Descends.mono {declared' : List (Property × Nat)} (sub : declared ⊆ declared')
    (h : m.Descends declared chain names) : m.Descends declared' chain names := by
  cases h with
  | leaf member primitive => exact .leaf (sub member) primitive
  | enter member nonempty complex found rest =>
    exact .enter (sub member) nonempty complex found rest

/-- What holds of all properties holds of those on a chain. -/
theorem Model.Descends.forall_mem {P : Property → Prop} (h : m.Descends declared chain names)
    (here : ∀ x ∈ declared, P x.1) (below : ∀ t ∈ m.complexTypes, ∀ p ∈ t.properties, P p) :
    ∀ p ∈ chain.map (·.1), P p := by
  induction h with
  | leaf member => exact List.forall_mem_singleton.2 (here _ member)
  | enter member _ _ found _ ih =>
    refine List.forall_mem_cons.2 ⟨here _ member, ih fun x inside => ?_⟩
    exact below _ (List.mem_of_find?_eq_some found) x.1 (List.fst_mem_of_mem_zipIdx inside)

end Chains

theorem pathOf_cons (p q : Property) (rest : List Property) :
    pathOf (p :: q :: rest) = p.name ++ "/" ++ pathOf (q :: rest) := by
  simp [pathOf]

theorem IsEnd.unique {parent : Option String} {chain : List Property} {leaf leaf' : Leaf}
    (h : IsEnd parent chain leaf) (h' : IsEnd parent chain leaf') : leaf = leaf' := by
  have path : leaf.path = leaf'.path := h.1.trans h'.1.symm
  have typeName : leaf.typeName = leaf'.typeName := Option.some.inj (h.2.symm.trans h'.2)
  cases leaf
  cases path
  cases typeName
  rfl

theorem isEnd_singleton_iff {parent : Option String} {p : Property} {leaf : Leaf} :
    IsEnd parent [p] leaf ↔ leaf = ⟨childPath parent p.name, trim p.typeName⟩ := by
  rcases leaf with ⟨path, typeName⟩
  simp [IsEnd, pathOf, eq_comm]

/-- The end of a chain below a property is the end of the chain with that property in front. -/
theorem isEnd_cons_iff {parent : Option String} {p q : Property} {rest : List Property}
    {leaf : Leaf} :
    IsEnd parent (p :: q :: rest) leaf ↔
      IsEnd (some (childPath parent p.name)) (q :: rest) leaf := by
  have path : childPath (some (childPath parent p.name)) (pathOf (q :: rest)) =
      childPath parent (pathOf (p :: q :: rest)) := by
    rw [pathOf_cons]
    cases parent <;> simp [childPath, String.append_assoc]
  rw [IsEnd, IsEnd, path, List.getLast?_cons_cons]

/-! ## Following a chain -/

/-- The properties of a type can be told apart by their names, none of which is taken for a literal;
there are no blanks around the names of their types, and they have the kinds of these. -/
structure StructuredType.Navigable (t : StructuredType) : Prop where
  distinct : t.properties.Pairwise fun p q => sameName p.name q.name = false
  notLiteral : ∀ p ∈ t.properties, Literal.isLiteral p.name = false
  trimmed : ∀ p ∈ t.properties, trim p.typeName = p.typeName
  kinds : ∀ p ∈ t.properties, p.kind = .ofTypeName p.typeName

theorem StructuredType.Navigable.property?_eq {t : StructuredType} (h : t.Navigable) {p : Property}
    (member : p ∈ t.properties) : t.property? p.name = some p := by
  obtain ⟨before, after, split⟩ := List.append_of_mem member
  have distinct := h.distinct
  rw [split, List.pairwise_append] at distinct
  have earlier : before.find? (sameName ·.name p.name) = none := by
    refine List.find?_eq_none.2 fun q member => ?_
    rw [distinct.2.2 q member p List.mem_cons_self]
    decide
  simp [property?, split, earlier, sameName_refl]

/-- A type that is not primitive by its name has no known kind. -/
theorem kind_of_isPrimitiveName {typeName : String} (h : isPrimitiveName typeName = false) :
    Edm.Kind.ofTypeName typeName = .unknown := by
  have named : ∀ k ∈ Edm.Kind.known, isPrimitiveName k.typeName = true := by decide +kernel
  cases found : Edm.Kind.known.find? (·.typeName == typeName) with
  | none => simp [Edm.Kind.ofTypeName, found]
  | some k =>
    have primitive := named k (List.mem_of_find?_eq_some found)
    have spelt : k.typeName = typeName := by simpa using List.find?_some found
    rw [spelt, h] at primitive
    cases primitive

open Validation in
/-- The names on a chain lead the check of a path along it to its last property. -/
theorem Model.Descends.walk_eq {m : Model} (complexTypes : ∀ t ∈ m.complexTypes, t.Navigable)
    {owner : StructuredType} (navigable : owner.Navigable) {chain : List (Property × Nat)}
    {names : List String} (h : m.Descends owner.properties.zipIdx chain names)
    (last : Option Property) :
    walk m (.inside owner) last ((chain.map (·.1)).map (·.name)) =
      .ok (chain.map (·.1)).getLast? := by
  generalize places : owner.properties.zipIdx = declared at h
  induction h generalizing owner last with
  | @leaf _ p i member =>
    subst places
    have member := List.fst_mem_of_mem_zipIdx member
    simp [walk, navigable.notLiteral p member, navigable.property?_eq member]
  | @enter _ chain p i t names member _ complex found rest ih =>
    subst places
    have member : p ∈ owner.properties := List.fst_mem_of_mem_zipIdx member
    rw [navigable.trimmed p member] at complex found
    have behind : Place.behind m p = .inside t := by
      simp [Place.behind, Property.isPrimitive, navigable.kinds p member,
        kind_of_isPrimitiveName complex, found]
    obtain ⟨q, others, rfl, -⟩ := rest.exists_cons
    have further := ih (complexTypes t (List.mem_of_find?_eq_some found)) (some p) rfl
    simp only [List.map_cons, List.getLast?_cons_cons] at further ⊢
    rw [← further, walk]
    simp [navigable.notLiteral p member, navigable.property?_eq member, behind]

end Schema

end FilterSql
