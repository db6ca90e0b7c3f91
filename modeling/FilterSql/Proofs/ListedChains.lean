import FilterSql.Proofs.Leaves
import Mathlib.Data.List.Forall2

/-!
# The order of leaves

The leaves of an entity type are listed depth first, in the order of declaration. A chain of properties
is told by the places of its properties among those of the types that declare them, and the listing
goes through the chains in lexicographic order of these places, each of them once.

A complex type is skipped if one of its name is being listed. That cuts a chain exactly where it would
pass through two complex types of one name, and no other chain: what is being listed are the complex
types above a property, and not those entered before it on another way.

## Main statements

* `Schema.Model.exists_lists`: the listing below any property, while some complex types are visited.
* `Schema.Model.leavesBelow_eq_filter`: the listing of one kind.
* `Schema.Model.leaves_chains`: the leaves of an entity type are the ends of its chains, in order.
-/

namespace FilterSql.Schema

open Text

/-! ## Chains with places -/

/-- The order of two chains: by the places of the first properties that differ. -/
def Precedes (chain chain' : List (Property × Nat)) : Prop :=
  List.Lex (· < ·) (chain.map (·.2)) (chain'.map (·.2))

/-- A chain through complex types of different names, none of which is being visited. -/
def Model.IsFreshChain (m : Model) (visiting : List String) (declared chain : List (Property × Nat)) :
    Prop :=
  ∃ names, m.Descends declared chain names ∧ names.Nodup ∧ ∀ name ∈ names, name ∉ visiting

variable {m : Model} {visiting names : List String} {parent : Option String} {p : Property} {i : Nat}
  {declared chain : List (Property × Nat)}

theorem Model.descends_cons_iff {x : Property × Nat} :
    m.Descends (x :: declared) chain names ↔
      m.Descends [x] chain names ∨ m.Descends declared chain names := by
  constructor
  · intro h
    cases h with
    | leaf member primitive =>
      rcases List.mem_cons.1 member with rfl | member
      · exact .inl (.leaf List.mem_cons_self primitive)
      · exact .inr (.leaf member primitive)
    | enter member nonempty complex found rest =>
      rcases List.mem_cons.1 member with rfl | member
      · exact .inl (.enter List.mem_cons_self nonempty complex found rest)
      · exact .inr (.enter member nonempty complex found rest)
  · rintro (first | other)
    · exact first.mono (by simp)
    · exact other.mono (List.subset_cons_self x declared)

theorem Model.isFreshChain_cons_iff {x : Property × Nat} :
    m.IsFreshChain visiting (x :: declared) chain ↔
      m.IsFreshChain visiting [x] chain ∨ m.IsFreshChain visiting declared chain := by
  rw [IsFreshChain, IsFreshChain, IsFreshChain, ← exists_or]
  exact exists_congr fun names => (and_congr_left' descends_cons_iff).trans or_and_right

/-- A chain that starts at a primitive property ends there. -/
theorem Model.isFreshChain_primitive_iff (primitive : isPrimitiveName (trim p.typeName) = true) :
    m.IsFreshChain visiting [(p, i)] chain ↔ chain = [(p, i)] := by
  constructor
  · rintro ⟨names, descends, -⟩
    cases descends with
    | leaf member => rw [List.mem_singleton.1 member]
    | enter member nonempty complex =>
      cases List.mem_singleton.1 member
      simp [primitive] at complex
  · rintro rfl
    exact ⟨[], .leaf List.mem_cons_self primitive, List.nodup_nil, by simp⟩

/-- A chain that starts at another property goes on in the complex type that is entered there. -/
theorem Model.isFreshChain_complex_iff (complex : isPrimitiveName (trim p.typeName) = false) :
    m.IsFreshChain visiting [(p, i)] chain ↔
      trim p.typeName ≠ "" ∧ ∃ t rest, m.enter? visiting (trim p.typeName) = some t ∧
        chain = (p, i) :: rest ∧ m.IsFreshChain (t.name :: visiting) t.properties.zipIdx rest := by
  simp only [enter?, Option.filter_eq_some_iff]
  constructor
  · rintro ⟨names, descends, nodup, fresh⟩
    cases descends with
    | leaf member primitive =>
      cases List.mem_singleton.1 member
      simp [complex] at primitive
    | @enter _ rest _ _ t names member nonempty _ found below =>
      cases List.mem_singleton.1 member
      obtain ⟨new, nodup⟩ := List.nodup_cons.1 nodup
      obtain ⟨first, others⟩ := List.forall_mem_cons.1 fresh
      refine ⟨nonempty, t, rest, ⟨found, by simpa using first⟩, rfl, names, below, nodup, ?_⟩
      intro name member
      rw [List.mem_cons, not_or]
      exact ⟨fun same => new (same ▸ member), others name member⟩
  · rintro ⟨nonempty, t, rest, ⟨found, new⟩, rfl, names, below, nodup, fresh⟩
    refine ⟨t.name :: names, .enter List.mem_cons_self nonempty complex found below, ?_, ?_⟩
    · rw [List.nodup_cons]
      exact ⟨fun member => fresh t.name member List.mem_cons_self, nodup⟩
    · rw [List.forall_mem_cons]
      refine ⟨by simpa using new, fun name member => ?_⟩
      exact fun visited => fresh name member (List.mem_cons_of_mem _ visited)

/-! ## Listings -/

/-- The leaves are the ends of the chains below `parent`, which are all chains that start among the
declared properties, in order. -/
structure Model.Lists (m : Model) (visiting : List String) (parent : Option String)
    (declared : List (Property × Nat)) (chains : List (List (Property × Nat))) (leaves : List Leaf) :
    Prop where
  sorted : chains.Pairwise Precedes
  mem_iff : ∀ chain, chain ∈ chains ↔ m.IsFreshChain visiting declared chain
  ends : List.Forall₂ (fun chain leaf => IsEnd parent (chain.map (·.1)) leaf) chains leaves

namespace Model.Lists

variable {chains chains' : List (List (Property × Nat))} {leaves leaves' : List Leaf}

theorem nil : m.Lists visiting parent [] [] [] where
  sorted := .nil
  mem_iff chain := by
    refine iff_of_false (by simp) ?_
    rintro ⟨names, descends, -⟩
    obtain ⟨x, -, -, member⟩ := descends.exists_cons
    simp at member
  ends := .nil

/-- The chains from one property come before those from properties at later places. -/
theorem cons {x : Property × Nat} (first : m.Lists visiting parent [x] chains leaves)
    (others : m.Lists visiting parent declared chains' leaves') (later : ∀ y ∈ declared, x.2 < y.2) :
    m.Lists visiting parent (x :: declared) (chains ++ chains') (leaves ++ leaves') where
  sorted := by
    refine List.pairwise_append.2 ⟨first.sorted, others.sorted, fun chain member chain' member' => ?_⟩
    obtain ⟨names, descends, -⟩ := (first.mem_iff chain).1 member
    obtain ⟨names', descends', -⟩ := (others.mem_iff chain').1 member'
    obtain ⟨x', rest, rfl, here⟩ := descends.exists_cons
    obtain ⟨y, rest', rfl, there⟩ := descends'.exists_cons
    cases List.mem_singleton.1 here
    exact .rel (later y there)
  mem_iff chain := by
    rw [List.mem_append, first.mem_iff, others.mem_iff]
    exact isFreshChain_cons_iff.symm
  ends := List.rel_append first.ends others.ends

theorem primitive (primitive : isPrimitiveName (trim p.typeName) = true) :
    m.Lists visiting parent [(p, i)] [[(p, i)]] [⟨childPath parent p.name, trim p.typeName⟩] where
  sorted := List.pairwise_singleton _ _
  mem_iff chain := by rw [List.mem_singleton, isFreshChain_primitive_iff primitive]
  ends := .cons (isEnd_singleton_iff.2 rfl) .nil

theorem skipped (complex : isPrimitiveName (trim p.typeName) = false)
    (skip : trim p.typeName = "" ∨ m.enter? visiting (trim p.typeName) = none) :
    m.Lists visiting parent [(p, i)] [] [] where
  sorted := .nil
  mem_iff chain := by
    rw [isFreshChain_complex_iff complex]
    refine iff_of_false (by simp) ?_
    rintro ⟨nonempty, t, rest, entered, -⟩
    rcases skip with empty | missing
    · exact nonempty empty
    · simp [missing] at entered
  ends := .nil

/-- What is listed below a complex type is listed with the property that leads there in front. -/
theorem entered {t : ComplexType} (complex : isPrimitiveName (trim p.typeName) = false)
    (nonempty : trim p.typeName ≠ "") (found : m.enter? visiting (trim p.typeName) = some t)
    (below : m.Lists (t.name :: visiting) (some (childPath parent p.name)) t.properties.zipIdx chains
      leaves) :
    m.Lists visiting parent [(p, i)] (chains.map ((p, i) :: ·)) leaves where
  sorted := by
    refine List.pairwise_map.2 (below.sorted.imp fun precedes => ?_)
    exact .cons precedes
  mem_iff chain := by
    simp only [isFreshChain_complex_iff complex, found, Option.some.injEq, List.mem_map,
      below.mem_iff]
    constructor
    · rintro ⟨rest, fresh, rfl⟩
      exact ⟨nonempty, t, rest, rfl, rfl, fresh⟩
    · rintro ⟨-, _, rest, rfl, rfl, fresh⟩
      exact ⟨rest, fresh, rfl⟩
  ends := by
    have nonempty : ∀ chain ∈ chains, ∃ q rest, chain = q :: rest := by
      intro chain member
      obtain ⟨names, descends, -⟩ := (below.mem_iff chain).1 member
      obtain ⟨q, rest, rfl, -⟩ := descends.exists_cons
      exact ⟨q, rest, rfl⟩
    refine List.forall₂_map_left_iff.2 (((List.forall₂_and_left _ _).2 ⟨nonempty, below.ends⟩).imp ?_)
    rintro _ leaf ⟨⟨q, rest, rfl⟩, isEnd⟩
    exact isEnd_cons_iff.2 isEnd

end Model.Lists

theorem Model.leavesBelow_cons (m : Model) (only : Option Edm.Kind) (visiting : List String)
    (parent : Option String) (p : Property) (rest : List Property) :
    m.leavesBelow only visiting parent (p :: rest) =
      m.leavesBelow only visiting parent [p] ++ m.leavesBelow only visiting parent rest := by
  rw [leavesBelow, leavesBelow, leavesBelow, List.append_nil]

/-- The leaves at one property, where the listings of the complex types entered from it are known. -/
theorem Model.exists_lists_singleton
    (below : ∀ t, m.enter? visiting (trim p.typeName) = some t →
      ∃ chains, m.Lists (t.name :: visiting) (some (childPath parent p.name)) t.properties.zipIdx
        chains (m.leavesBelow none (t.name :: visiting) (some (childPath parent p.name))
          t.properties)) :
    ∃ chains, m.Lists visiting parent [(p, i)] chains (m.leavesBelow none visiting parent [p]) := by
  rw [leavesBelow, leavesBelow, List.append_nil]
  by_cases empty : (trim p.typeName).isEmpty = true
  · have complex : isPrimitiveName (trim p.typeName) = false := by
      rw [String.isEmpty_iff.1 empty]
      decide
    rw [if_pos empty]
    exact ⟨[], .skipped complex (.inl (String.isEmpty_iff.1 empty))⟩
  rw [if_neg empty]
  by_cases primitive : isPrimitiveName (trim p.typeName) = true
  · rw [if_pos primitive, Option.all_none, if_pos rfl]
    exact ⟨_, .primitive primitive⟩
  rw [if_neg primitive]
  have complex : isPrimitiveName (trim p.typeName) = false := by simpa using primitive
  split
  · next t found =>
    obtain ⟨chains, lists⟩ := below t found
    exact ⟨_, .entered complex (mt String.isEmpty_iff.2 empty) found lists⟩
  · next missing => exact ⟨[], .skipped complex (.inr missing)⟩

/-- The leaves below a path are listed chain by chain, in order. -/
theorem Model.exists_lists (m : Model) (visiting : List String) (parent : Option String)
    (properties : List Property) (k : Nat) :
    ∃ chains, m.Lists visiting parent (properties.zipIdx k) chains
      (m.leavesBelow none visiting parent properties) := by
  -- along the recursion of the listing: into the complex type of the first property, and past it
  induction visiting, parent, properties using Model.leavesBelow.induct m none generalizing k with
  | case1 visiting parent =>
    rw [leavesBelow]
    exact ⟨[], .nil⟩
  | case2 visiting parent p rest _ below others =>
    obtain ⟨chains, first⟩ := exists_lists_singleton (i := k) fun t found => below t found 0
    obtain ⟨chains', later⟩ := others (k + 1)
    rw [leavesBelow_cons, List.zipIdx_cons]
    refine ⟨_, first.cons later fun y member => ?_⟩
    exact List.le_snd_of_mem_zipIdx member

/-- A listing of one kind has the leaves of that kind. -/
theorem Model.leavesBelow_eq_filter (m : Model) (kind : Edm.Kind) (visiting : List String)
    (parent : Option String) (properties : List Property) :
    m.leavesBelow (some kind) visiting parent properties =
      (m.leavesBelow none visiting parent properties).filter
        (Edm.Kind.ofTypeName ·.typeName == kind) := by
  induction visiting, parent, properties using Model.leavesBelow.induct m none with
  | case1 visiting parent => rw [leavesBelow, leavesBelow, List.filter_nil]
  | case2 visiting parent p rest _ below others =>
    rw [leavesBelow, leavesBelow, List.filter_append, others]
    refine congrArg (· ++ _) ?_
    split
    · rfl
    · split
      · simp [List.filter_cons]
      · split
        · next t found => exact below t found
        · rfl

/-! ## The leaves of an entity type -/

theorem Model.isFreshChain_nil_iff {owner : StructuredType} :
    m.IsFreshChain [] owner.properties.zipIdx chain ↔ m.IsAcyclicChain owner chain := by
  simp [IsFreshChain, IsAcyclicChain]

theorem exists_mem_of_forall₂ {α β : Type} {R : α → β → Prop} {as : List α} {bs : List β}
    (h : List.Forall₂ R as bs) {b : β} (member : b ∈ bs) : ∃ a ∈ as, R a b := by
  induction h with
  | nil => cases member
  | cons first _ ih =>
    rcases List.mem_cons.1 member with rfl | member
    · exact ⟨_, List.mem_cons_self, first⟩
    · obtain ⟨a, inside, related⟩ := ih member
      exact ⟨a, List.mem_cons_of_mem _ inside, related⟩

/-- Every leaf of an entity type is the end of a chain. -/
theorem Model.mem_leaves_iff {name : String} {entity : EntityType}
    (named : m.entityType? name = some entity) {leaf : Leaf} :
    leaf ∈ m.leaves name none ↔
      ∃ chain, m.IsAcyclicChain entity.toStructuredType chain ∧
        IsEnd none (chain.map (·.1)) leaf := by
  obtain ⟨chains, lists⟩ := m.exists_lists [] none entity.properties 0
  have listed : m.leaves name none = m.leavesBelow none [] none entity.properties := by
    simp only [leaves, named]
  rw [listed]
  constructor
  · intro member
    obtain ⟨chain, inside, isEnd⟩ := exists_mem_of_forall₂ lists.ends member
    exact ⟨chain, isFreshChain_nil_iff.1 ((lists.mem_iff chain).1 inside), isEnd⟩
  · rintro ⟨chain, isChain, isEnd⟩
    have inside := (lists.mem_iff chain).2 (isFreshChain_nil_iff.2 isChain)
    obtain ⟨leaf', member, isEnd'⟩ := exists_mem_of_forall₂ lists.ends.flip inside
    rwa [isEnd.unique isEnd']

/-- The leaves of an entity type are the ends of its chains through complex types of different names:
one leaf for each chain, depth first and in the order of declaration. Those of a kind are the ones
among them whose type has it. -/
theorem Model.leaves_chains (m : Model) {name : String} {entity : EntityType}
    (named : m.entityType? name = some entity) :
    (∃ chains : List (List (Property × Nat)),
      chains.Pairwise Precedes ∧
        (∀ chain, chain ∈ chains ↔ m.IsAcyclicChain entity.toStructuredType chain) ∧
        List.Forall₂ (fun chain leaf => IsEnd none (chain.map (·.1)) leaf) chains
          (m.leaves name none)) ∧
      ∀ kind, m.leaves name (some kind) =
        (m.leaves name none).filter (Edm.Kind.ofTypeName ·.typeName == kind) := by
  constructor
  · obtain ⟨chains, lists⟩ := m.exists_lists [] none entity.properties 0
    refine ⟨chains, lists.sorted, fun chain => ?_, ?_⟩
    · rw [lists.mem_iff, isFreshChain_nil_iff]
    · simpa [leaves, named] using lists.ends
  · intro kind
    simp only [leaves, named, leavesBelow_eq_filter]

/-- People with a home, whose address has a region, which has a capital with an address again. -/
def households : Model where
  entityTypes := [⟨⟨"Person", [.plain "Home" "Address", .plain "Name" "Edm.String"]⟩, []⟩]
  complexTypes := [⟨"Address", [.plain "City" "Edm.String", .plain "Region" "Region"]⟩,
    ⟨"Region", [.plain "Code" " Edm.Int32", .plain "Capital" "Address"]⟩]
  functions := []
  containers := []

/-- The code of a region is listed though its complex types refer to each other. -/
theorem Model.leaves_chains_households :
    (households.entityType? "Person").isSome = true ∧
      ⟨"Home/Region/Code", "Edm.Int32"⟩ ∈ households.leaves "Person" (some .int32) := by
  obtain ⟨entity, named, declared⟩ : ∃ entity, households.entityType? "Person" = some entity ∧
      entity.properties = [.plain "Home" "Address", .plain "Name" "Edm.String"] := ⟨_, rfl, rfl⟩
  have found : households.complexType? (trim (Property.plain "Home" "Address").typeName) =
      some ⟨"Address", [.plain "City" "Edm.String", .plain "Region" "Region"]⟩ := rfl
  have found' : households.complexType? (trim (Property.plain "Region" "Region").typeName) =
      some ⟨"Region", [.plain "Code" " Edm.Int32", .plain "Capital" "Address"]⟩ := rfl
  have code : households.Descends [(.plain "Code" " Edm.Int32", 0), (.plain "Capital" "Address", 1)]
      [(.plain "Code" " Edm.Int32", 0)] [] := .leaf (by decide) (by decide)
  have chain : households.IsAcyclicChain entity.toStructuredType
      [(.plain "Home" "Address", 0), (.plain "Region" "Region", 1),
        (.plain "Code" " Edm.Int32", 0)] := by
    refine ⟨["Address", "Region"], ?_, by decide⟩
    rw [declared]
    exact .enter (by decide) (by decide) (by decide) found
      (.enter (by decide) (by decide) (by decide) found' code)
  obtain ⟨⟨chains, -, all, ends⟩, ofKind⟩ := households.leaves_chains named
  obtain ⟨leaf, listed, isEnd⟩ : ∃ leaf ∈ households.leaves "Person" none,
      IsEnd none [.plain "Home" "Address", .plain "Region" "Region",
        .plain "Code" " Edm.Int32"] leaf :=
    exists_mem_of_forall₂ ends.flip ((all _).2 chain)
  rw [isEnd_cons_iff, isEnd_cons_iff, isEnd_singleton_iff] at isEnd
  have code : leaf = ⟨"Home/Region/Code", "Edm.Int32"⟩ := isEnd.trans (by decide)
  refine ⟨by rw [named]; rfl, ?_⟩
  rw [ofKind, List.mem_filter]
  exact ⟨code ▸ listed, by decide⟩

end FilterSql.Schema
