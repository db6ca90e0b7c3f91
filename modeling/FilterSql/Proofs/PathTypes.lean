import FilterSql.Validation

/-!
# Types at the ends of paths

A path is followed in two ways. The check of a filter remembers the place it has come to, and fails
when it looks for the next segment at a place that cannot be entered. The schema looks ahead: it gives
up at a property that cannot be entered if there are more segments. Both take the same steps, so the
check ends at a property exactly if the path leads there, and the schema names its type.

## Main statements

* `Schema.Model.Leads.typeAlong_eq`, `Schema.Model.typeAlong_of_not_leads`: the schema's way.
* `Schema.Model.Leads.walk_eq`, `Validation.walk_of_not_leads`: the way of the check.
* `Validation.pathType_of_walkPath`: both ways end alike.
-/

namespace FilterSql

open Text FilterSql.Filter Schema

/-! ## Where a path leads -/

namespace Schema.Model

variable {m : Model} {owner : StructuredType} {path : List String} {p : Property}

/-- A path leads from a type to a property: each segment names a property of the type that was
reached, and all properties but the last have complex types. -/
inductive Leads (m : Model) : StructuredType → List String → Property → Prop
  | last {owner : StructuredType} {segment : String} {p : Property} :
    owner.property? segment = some p → m.Leads owner [segment] p
  | next {owner t : StructuredType} {segment : String} {rest : List String} {p q : Property} :
    owner.property? segment = some q → q.isPrimitive = false →
    m.complexType? q.typeName = some t → m.Leads t rest p → m.Leads owner (segment :: rest) p

theorem Leads.ne_nil (h : m.Leads owner path p) : path ≠ [] := by
  cases h <;> simp

theorem Leads.typeAlong_eq (h : m.Leads owner path p) : m.typeAlong owner path = p.typeName := by
  induction h with
  | last found => simp [typeAlong, found]
  | next found complex entered rest ih => simp [typeAlong, found, complex, entered, ih, rest.ne_nil]

/-- A path that leads nowhere has the unknown type. -/
theorem typeAlong_of_not_leads (h : ∀ p, ¬m.Leads owner path p) :
    m.typeAlong owner path = Edm.unknownTypeName := by
  induction path generalizing owner with
  | nil => rfl
  | cons segment rest ih =>
    cases found : owner.property? segment with
    | none => simp [typeAlong, found]
    | some q =>
      have more : rest ≠ [] := by
        rintro rfl
        exact h q (.last found)
      cases complex : q.isPrimitive with
      | true => simp [typeAlong, found, more, complex]
      | false =>
        cases entered : m.complexType? q.typeName with
        | none => simp [typeAlong, found, more, complex, entered]
        | some t =>
          have nowhere : m.typeAlong t rest = Edm.unknownTypeName := by
            apply ih
            intro p below
            exact h p (.next found complex entered below)
          simp [typeAlong, found, more, complex, entered, nowhere]

end Schema.Model

/-! ## The steps of the check -/

namespace Validation

variable {m : Model} {owner : StructuredType} {path : List String}

theorem walk_cons {segment : String} (plain : Literal.isLiteral segment = false) {q : Property}
    (found : owner.property? segment = some q) (last : Option Property) (rest : List String) :
    walk m (.inside owner) last (segment :: rest) = walk m (.behind m q) (some q) rest := by
  simp [walk, plain, found]

/-- A property of a known complex type is entered, any other one is a place to stay at. -/
theorem Place.behind_cases (m : Model) (q : Property) :
    (∃ t, q.isPrimitive = false ∧ m.complexType? q.typeName = some t ∧
      Place.behind m q = .inside t) ∨ Place.behind m q = .atProperty q := by
  cases complex : q.isPrimitive with
  | true => exact .inr (by simp [behind, complex])
  | false =>
    cases entered : m.complexType? q.typeName with
    | none => exact .inr (by simp [behind, complex, entered])
    | some t => exact .inl ⟨t, rfl, rfl, by simp [behind, complex, entered]⟩

/-- There is no way on from a property that cannot be entered. -/
theorem walk_atProperty {segment : String} (plain : Literal.isLiteral segment = false)
    (q : Property) (last : Option Property) (rest : List String) :
    ∃ err, walk m (.atProperty q) last (segment :: rest) = .error err := by
  cases primitive : q.isPrimitive with
  | true => exact ⟨.primitiveNavigation q.name q.typeName segment, by simp [walk, plain, primitive]⟩
  | false => exact ⟨.unknownComplexType q.name q.typeName, by simp [walk, plain, primitive]⟩

end Validation

open Validation in
/-- The check follows a path to the property that it leads to. -/
theorem Schema.Model.Leads.walk_eq {m : Model} {owner : StructuredType} {path : List String}
    {p : Property} (h : m.Leads owner path p) (plain : ∀ s ∈ path, Literal.isLiteral s = false)
    (last : Option Property) : walk m (.inside owner) last path = .ok (some p) := by
  induction h generalizing last with
  | last found =>
    rw [walk_cons (plain _ List.mem_cons_self) found, walk]
  | @next owner t segment rest p q found complex entered _ ih =>
    obtain ⟨first, others⟩ := List.forall_mem_cons.1 plain
    have behind : Place.behind m q = .inside t := by simp [Place.behind, complex, entered]
    rw [walk_cons first found, behind, ih others]

namespace Validation

variable {m : Model} {owner : StructuredType} {path : List String}

/-- The check fails on a path that leads nowhere. -/
theorem walk_of_not_leads (nonempty : path ≠ []) (plain : ∀ s ∈ path, Literal.isLiteral s = false)
    (h : ∀ p, ¬m.Leads owner path p) (last : Option Property) :
    ∃ err, walk m (.inside owner) last path = .error err := by
  induction path generalizing owner last with
  | nil => exact absurd rfl nonempty
  | cons segment rest ih =>
    obtain ⟨first, others⟩ := List.forall_mem_cons.1 plain
    cases found : owner.property? segment with
    | none => exact ⟨.propertyNotFound segment owner.name, by simp [walk, first, found]⟩
    | some q =>
      rw [walk_cons first found]
      cases rest with
      | nil => exact absurd (.last found) (h q)
      | cons next rest =>
        rcases Place.behind_cases m q with ⟨t, complex, entered, eq⟩ | eq
        · rw [eq]
          apply ih (List.cons_ne_nil next rest) others
          intro p below
          exact h p (.next found complex entered below)
        · rw [eq]
          exact walk_atProperty (others next List.mem_cons_self) q (some q) rest

/-! ## Both ways compared -/

theorem segments_ne_nil (sep : Char) (s : String) : segments sep s ≠ [] := by
  have parts : ∀ cs, segmentsOf sep cs ≠ [] := by
    intro cs
    fun_cases segmentsOf sep cs <;> simp
  simpa [segments] using parts s.toList

/-- The check and the schema follow a path alike, if none of its segments is a literal or has blanks
around it. The check ends at the property that the path leads to, and the schema gives its type; where
the check fails, the schema gives the unknown type. There is no path on which the check ends without
a property. -/
theorem pathType_of_walkPath {name path : String} {entity : EntityType}
    (named : m.entityType? name = some entity)
    (plain : ∀ s ∈ segments '/' path, Literal.isLiteral s = false ∧ trim s = s) :
    (∀ p, walkPath m entity path = .ok (some p) ↔
      m.Leads entity.toStructuredType (segments '/' path) p) ∧
    (∀ p, walkPath m entity path = .ok (some p) → m.pathType name path = p.typeName) ∧
    (∀ err, walkPath m entity path = .error err → m.pathType name path = Edm.unknownTypeName) ∧
    walkPath m entity path ≠ .ok none := by
  have notLiteral : ∀ s ∈ segments '/' path, Literal.isLiteral s = false :=
    fun s member => (plain s member).1
  have trimmed : (segments '/' path).map trim = segments '/' path :=
    (List.map_congr_left fun s member => (plain s member).2).trans (List.map_id _)
  have type : m.pathType name path = m.typeAlong entity.toStructuredType (segments '/' path) := by
    simp [Model.pathType, named]
  have walked {p : Property} (leads : m.Leads entity.toStructuredType (segments '/' path) p) :
      walkPath m entity path = .ok (some p) := by
    rw [walkPath, trimmed, leads.walk_eq notLiteral]
  by_cases somewhere : ∃ p, m.Leads entity.toStructuredType (segments '/' path) p
  · obtain ⟨p, leads⟩ := somewhere
    have unique {q : Property} (ran : walkPath m entity path = .ok (some q)) : p = q := by
      simpa [walked leads] using ran
    refine ⟨fun q => ⟨fun ran => unique ran ▸ leads, walked⟩, fun q ran => ?_, ?_, ?_⟩
    · rw [type, leads.typeAlong_eq, unique ran]
    · simp [walked leads]
    · simp [walked leads]
  · have nowhere : ∀ p, ¬m.Leads entity.toStructuredType (segments '/' path) p :=
      not_exists.1 somewhere
    obtain ⟨err, failed⟩ := walk_of_not_leads (segments_ne_nil '/' path) notLiteral nowhere none
    rw [walkPath, trimmed, failed, type, Model.typeAlong_of_not_leads nowhere]
    simpa using nowhere

/-- A shop with an address in a region. -/
def places : Model where
  entityTypes := [⟨⟨"Shop", [.plain "Id" "Edm.Int32", .plain "Home" "Demo.Address"]⟩, ["Id"]⟩]
  complexTypes := [⟨"Address", [.plain "City" "Edm.String", .plain "Region" "Demo.Region"]⟩,
    ⟨"Region", [.plain "Code" "Edm.Int16"]⟩]
  functions := []
  containers := []

/-- A path through two complex types, in letters of either case, and one that goes on behind a
primitive property. -/
theorem pathType_of_walkPath_places :
    places.pathType "Demo.Shop" "home/Region/CODE" = "Edm.Int16" ∧
      places.pathType "Demo.Shop" "Id/Region" = Edm.unknownTypeName := by
  obtain ⟨entity, named, found, refused⟩ : ∃ entity, places.entityType? "Demo.Shop" = some entity ∧
      walkPath places entity "home/Region/CODE" = .ok (some (.plain "Code" "Edm.Int16")) ∧
      walkPath places entity "Id/Region" =
        .error (.primitiveNavigation "Id" "Edm.Int32" "Region") :=
    ⟨_, rfl, rfl, rfl⟩
  have plain : ∀ s ∈ segments '/' "home/Region/CODE", Literal.isLiteral s = false ∧ trim s = s := by
    decide +kernel
  have plain' : ∀ s ∈ segments '/' "Id/Region", Literal.isLiteral s = false ∧ trim s = s := by
    decide +kernel
  obtain ⟨-, type, -⟩ := pathType_of_walkPath named plain
  obtain ⟨-, -, unknown, -⟩ := pathType_of_walkPath named plain'
  exact ⟨type _ found, unknown _ refused⟩

end Validation

end FilterSql
