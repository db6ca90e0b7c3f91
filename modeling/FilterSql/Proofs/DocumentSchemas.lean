import FilterSql.Csdl.Reader
import FilterSql.Proofs.FirstErrors

/-!
# Schemas of documents

A document that gives every name and type it needs becomes a schema with all its declarations, in order
and with nothing added. Any other document fails with the first of its violations. What a document
declares and how it violates the rules is said of it alone: the items of a schema stand in one list,
whatever their sort, some of them do not count, and all that count are checked, though reading stops
at the first that fails.

## Main definitions

* `Lists`: what the items of one sort declare, in order.
* `Document.Complete`: every name and type that is needed is given.
* `Document.Declares`: the schema that a document declares.
* `Document.violations`: all violations of a document, in the order in which they are looked for.

## Main statements

* `yields_sort`: what becomes of the items of one sort.
* `SchemaDecl.toModel_reads`: what becomes of one schema of a document.
* `Document.toModel_declarations`: what becomes of a document.
* `Document.toModel_kinds`: the properties of its schema have the kinds of their types.
-/

namespace FilterSql.Csdl

variable {α β ι : Type}

/-! ## What is declared -/

/-- The attribute has the text, which is not empty. -/
def Gives (value : Option String) (text : String) : Prop := value = some text ∧ text ≠ ""

/-- The attribute is there and not empty. -/
def IsGiven (value : Option String) : Prop := ∃ text, Gives value text

/-- The list has what the items of one sort declare, in order. Items of other sorts do not count. -/
inductive Lists (sort : α → ι) (declares : α → β → Prop) : List ι → List β → Prop
  | nil : Lists sort declares [] []
  | listed {a : α} {b : β} {items : List ι} {bs : List β} : declares a b →
    Lists sort declares items bs → Lists sort declares (sort a :: items) (b :: bs)
  | other {item : ι} {items : List ι} {bs : List β} : (∀ a, item ≠ sort a) →
    Lists sort declares items bs → Lists sort declares (item :: items) bs

structure PropertyDecl.Declares (d : PropertyDecl) (p : Schema.Property) : Prop where
  name : Gives d.name p.name
  typeName : Gives d.typeName p.typeName
  kind : p.kind = .ofTypeName p.typeName
  nullable : p.nullable = false ↔ d.nullable = some "false"
  defaultValue : p.defaultValue = d.defaultValue
  maxLength : p.maxLength = facet? d.maxLength
  precision : p.precision = facet? d.precision
  scale : p.scale = facet? d.scale

/-- A key has the names that its references give. -/
def KeyDecl.Declares (d : KeyDecl) (names : List String) : Prop :=
  names.map some = (d.references.map (·.name)).filter (·.getD "" != "")

structure EntityTypeDecl.Declares (d : EntityTypeDecl) (t : Schema.EntityType) : Prop where
  name : Gives d.name t.name
  properties : Lists TypeItem.property PropertyDecl.Declares d.items t.properties
  keys : ∀ key, d.key = some key → key.Declares t.keys
  keyless : d.key = none → t.keys = []

structure ComplexTypeDecl.Declares (d : ComplexTypeDecl) (t : Schema.ComplexType) : Prop where
  name : Gives d.name t.name
  properties : Lists TypeItem.property PropertyDecl.Declares d.items t.properties

/-- A parameter that is given no name has one that tells its place, counted from one. -/
structure ParameterDecl.Declares (placed : ParameterDecl × Nat) (p : Schema.Parameter) : Prop where
  name : Gives placed.1.name p.name ∨ ¬IsGiven placed.1.name ∧ p.name = s!"param{placed.2 + 1}"
  typeName : Gives placed.1.typeName p.typeName

structure FunctionDecl.Declares (d : FunctionDecl) (f : Schema.Function) : Prop where
  name : Gives d.name f.name
  returnType : ∃ result, d.returnType = some result ∧ Gives result.typeName f.returnType
  parameters : List.Forall₂ ParameterDecl.Declares d.parameters.zipIdx f.parameters

structure EntitySetDecl.Declares (d : EntitySetDecl) (s : Schema.EntitySet) : Prop where
  name : Gives d.name s.name
  entityType : Gives d.entityType s.entityType

structure ContainerDecl.Declares (d : ContainerDecl) (c : Schema.Container) : Prop where
  name : Gives d.name c.name
  entitySets : Lists ContainerItem.entitySet EntitySetDecl.Declares d.items c.entitySets

/-- The schema has what is declared of each sort, in order. -/
structure Declares (items : List SchemaItem) (m : Schema.Model) : Prop where
  containers : Lists SchemaItem.container ContainerDecl.Declares items m.containers
  entityTypes : Lists SchemaItem.entityType EntityTypeDecl.Declares items m.entityTypes
  complexTypes : Lists SchemaItem.complexType ComplexTypeDecl.Declares items m.complexTypes
  functions : Lists SchemaItem.function FunctionDecl.Declares items m.functions

/-- The schema of a document has the declarations of all its schemas. -/
def Document.Declares (d : Document) (m : Schema.Model) : Prop :=
  ∃ services, d.dataServices = some services ∧
    Csdl.Declares (services.schemas.flatMap (·.items)) m

/-! ## What is needed -/

def PropertyDecl.Complete (d : PropertyDecl) : Prop := IsGiven d.name ∧ IsGiven d.typeName

def SchemaItem.Complete : SchemaItem → Prop
  | .container c =>
    IsGiven c.name ∧ ∀ s, .entitySet s ∈ c.items → IsGiven s.name ∧ IsGiven s.entityType
  | .entityType t => IsGiven t.name ∧ ∀ p, .property p ∈ t.items → p.Complete
  | .complexType t => IsGiven t.name ∧ ∀ p, .property p ∈ t.items → p.Complete
  | .function f =>
    IsGiven f.name ∧ (∃ result, f.returnType = some result ∧ IsGiven result.typeName) ∧
      ∀ p ∈ f.parameters, IsGiven p.typeName
  | .enumType | .typeDefinition | .action | .term | .note | .notes => True

def Document.Complete (d : Document) : Prop :=
  ∃ services, d.dataServices = some services ∧
    ∀ schema ∈ services.schemas, ∀ item ∈ schema.items, item.Complete

/-! ## What is violated -/

/-- The violation by an attribute that is missing or empty. -/
def missing (value : Option String) (error : CsdlError) : List CsdlError :=
  if value.getD "" = "" then [error] else []

def ContainerItem.violations : ContainerItem → List CsdlError
  | .entitySet s => missing s.name .entitySetName ++ missing s.entityType .entitySetType
  | .singleton | .functionImport | .actionImport | .note => []

def ContainerDecl.violations (d : ContainerDecl) : List CsdlError :=
  missing d.name .containerName ++ d.items.flatMap (·.violations)

/-- The violations by the properties of a type. -/
def TypeItem.violations (ofProperty : PropertyDecl → List CsdlError) : TypeItem → List CsdlError
  | .property p => ofProperty p
  | .navigationProperty | .note => []

def EntityTypeDecl.violations (d : EntityTypeDecl) : List CsdlError :=
  missing d.name .entityTypeName ++
    d.items.flatMap (TypeItem.violations fun p =>
      missing p.typeName (.entityPropertyType (d.name.getD "")) ++
        missing p.name (.entityPropertyName (d.name.getD "")))

def ComplexTypeDecl.violations (d : ComplexTypeDecl) : List CsdlError :=
  missing d.name .complexTypeName ++
    d.items.flatMap (TypeItem.violations fun p =>
      missing p.name (.complexPropertyName (d.name.getD "")) ++
        missing p.typeName (.complexPropertyType (p.name.getD "") (d.name.getD "")))

/-- The name by which a violation calls a parameter. -/
def ParameterDecl.calledAt (d : ParameterDecl) (place : Nat) : String :=
  if d.name.getD "" = "" then s!"param{place + 1}" else d.name.getD ""

/-- The type that a function gives for its results. -/
def FunctionDecl.givenType (d : FunctionDecl) : Option String :=
  match d.returnType with
  | some result => result.typeName
  | none => none

def FunctionDecl.violations (d : FunctionDecl) : List CsdlError :=
  missing d.name .functionName ++
    (missing d.givenType (.functionReturnType (d.name.getD "")) ++
      d.parameters.zipIdx.flatMap fun (p, place) =>
        missing p.typeName (.parameterType (p.calledAt place) (d.name.getD "")))

/-- The violations in one schema of a document: those of its containers first, then those of its entity
types, of its complex types and of its functions. -/
def violationsOf (items : List SchemaItem) : List CsdlError :=
  (items.flatMap fun | .container c => c.violations | _ => []) ++
    ((items.flatMap fun | .entityType t => t.violations | _ => []) ++
      ((items.flatMap fun | .complexType t => t.violations | _ => []) ++
        items.flatMap fun | .function f => f.violations | _ => []))

def Document.violations (d : Document) : List CsdlError :=
  match d.dataServices with
  | none => [.noDataServices]
  | some services => services.schemas.flatMap fun schema => violationsOf schema.items

/-! ## Attributes -/

theorem Gives.getD_eq {value : Option String} {text : String} (h : Gives value text) :
    value.getD "" = text := by
  rw [h.1, Option.getD_some]

theorem IsGiven.gives {value : Option String} (h : IsGiven value) : Gives value (value.getD "") := by
  obtain ⟨text, given⟩ := h
  exact given.getD_eq.symm ▸ given

theorem gives_iff {value : Option String} {text : String} :
    Gives value text ↔ IsGiven value ∧ value.getD "" = text := by
  refine ⟨fun h => ⟨⟨text, h⟩, h.getD_eq⟩, ?_⟩
  rintro ⟨given, rfl⟩
  exact given.gives

theorem isGiven_iff {value : Option String} : IsGiven value ↔ value.getD "" ≠ "" := by
  cases value <;> simp [IsGiven, Gives]

@[simp] theorem missing_eq_nil_iff {value : Option String} {error : CsdlError} :
    missing value error = [] ↔ IsGiven value := by
  simp [missing, isGiven_iff]

theorem present?_eq_some_iff {value : Option String} {text : String} :
    present? value = some text ↔ Gives value text := by
  simp [present?, Gives, Option.filter_eq_some_iff]

theorem present?_eq_none_iff {value : Option String} : present? value = none ↔ ¬IsGiven value := by
  simp [Option.eq_none_iff_forall_ne_some, present?_eq_some_iff, IsGiven]

theorem required_reads (value : Option String) (error : CsdlError) :
    Yields (required value error) (Gives value) (missing value error) := by
  cases found : present? value with
  | some text =>
    have given := present?_eq_some_iff.1 found
    have none : missing value error = [] := missing_eq_nil_iff.2 ⟨text, given⟩
    rw [required, found, none]
    exact (Yields.ok text).congr fun other => by simp [← present?_eq_some_iff, found]
  | none =>
    have absent := present?_eq_none_iff.1 found
    have violated : missing value error = [error] := by
      simpa [missing, isGiven_iff] using absent
    rw [required, found, violated]
    exact (Yields.error error).congr fun text => by simp [← present?_eq_some_iff, found]

/-- A text that is needed is read before what is read with it. -/
theorem yields_named {value : Option String} {error : CsdlError} {f : String → Except CsdlError α}
    {result : α → Prop} {ws : List CsdlError} (next : Yields (f (value.getD "")) result ws) :
    Yields (required value error >>= f) (fun a => IsGiven value ∧ result a)
      (missing value error ++ ws) := by
  have read : Yields (required value error >>= f) (fun a => ∃ text, Gives value text ∧ result a)
      (missing value error ++ ws) :=
    (required_reads value error).bind fun text given => given.getD_eq ▸ next
  exact read.congr fun a => exists_and_right

theorem yields_named_last {value : Option String} {error : CsdlError} (f : String → α) :
    Yields (required value error >>= fun text => .ok (f text))
      (fun a => IsGiven value ∧ f (value.getD "") = a) (missing value error) := by
  have read : Yields (required value error >>= fun text => .ok (f text))
      (fun a => IsGiven value ∧ f (value.getD "") = a) (missing value error ++ []) :=
    yields_named (.ok (f (value.getD "")))
  rwa [List.append_nil] at read

/-! ## Items of one sort -/

section Sorts

variable {sort : α → ι} {declares : α → β → Prop} {pick : ι → Option α} {items items' : List ι}
  {bs bs' : List β}

theorem lists_iff (picks : ∀ item a, pick item = some a ↔ item = sort a) :
    Lists sort declares items bs ↔ List.Forall₂ declares (items.filterMap pick) bs := by
  constructor
  · intro h
    induction h with
    | nil => exact .nil
    | listed declared _ ih =>
      rw [List.filterMap_cons_some ((picks _ _).2 rfl)]
      exact .cons declared ih
    | other notSort _ ih =>
      have none := Option.eq_none_iff_forall_ne_some.2 fun a found => notSort a ((picks _ a).1 found)
      rwa [List.filterMap_cons_none none]
  · intro h
    induction items generalizing bs with
    | nil =>
      cases h
      exact .nil
    | cons item items ih =>
      cases found : pick item with
      | none =>
        rw [List.filterMap_cons_none found] at h
        refine .other (fun a eq => ?_) (ih h)
        rw [(picks item a).2 eq] at found
        cases found
      | some a =>
        rw [List.filterMap_cons_some found] at h
        obtain rfl := (picks item a).1 found
        cases h with
        | cons declared h => exact .listed declared (ih h)

theorem Lists.append (h : Lists sort declares items bs) (h' : Lists sort declares items' bs') :
    Lists sort declares (items ++ items') (bs ++ bs') := by
  induction h with
  | nil => exact h'
  | listed declared _ ih => exact .listed declared ih
  | other notSort _ ih => exact .other notSort ih

theorem Lists.exists_declares (h : Lists sort declares items bs) : ∀ b ∈ bs, ∃ a, declares a b := by
  induction h with
  | nil => simp
  | listed declared _ ih => exact List.forall_mem_cons.2 ⟨⟨_, declared⟩, ih⟩
  | other _ _ ih => exact ih

/-- The items of one sort are read in order, each with its violations. -/
theorem yields_sort {f : α → Except CsdlError β} {errors : α → List CsdlError}
    {violations : ι → List CsdlError} (picks : ∀ item a, pick item = some a ↔ item = sort a)
    (reads : ∀ a, Yields (f a) (declares a) (errors a))
    (same : ∀ item, violations item = (pick item).toList.flatMap errors) :
    Yields ((items.filterMap pick).mapM f) (Lists sort declares items) (items.flatMap violations) := by
  have flat : (items.filterMap pick).flatMap errors = items.flatMap violations := by
    rw [List.filterMap_eq_flatMap_toList, List.flatMap_assoc, funext same]
  rw [← flat]
  exact (Yields.mapM fun a _ => reads a).congr fun bs => (lists_iff picks).symm

end Sorts

theorem TypeItem.property?_eq_some_iff (item : TypeItem) (p : PropertyDecl) :
    item.property? = some p ↔ item = .property p := by
  cases item <;> simp [property?]

theorem ContainerItem.entitySet?_eq_some_iff (item : ContainerItem) (s : EntitySetDecl) :
    item.entitySet? = some s ↔ item = .entitySet s := by
  cases item <;> simp [entitySet?]

namespace SchemaItem

theorem container?_eq_some_iff (item : SchemaItem) (c : ContainerDecl) :
    item.container? = some c ↔ item = .container c := by
  cases item <;> simp [container?]

theorem entityType?_eq_some_iff (item : SchemaItem) (t : EntityTypeDecl) :
    item.entityType? = some t ↔ item = .entityType t := by
  cases item <;> simp [entityType?]

theorem complexType?_eq_some_iff (item : SchemaItem) (t : ComplexTypeDecl) :
    item.complexType? = some t ↔ item = .complexType t := by
  cases item <;> simp [complexType?]

theorem function?_eq_some_iff (item : SchemaItem) (f : FunctionDecl) :
    item.function? = some f ↔ item = .function f := by
  cases item <;> simp [function?]

end SchemaItem

/-! ## Declarations -/

theorem PropertyDecl.declares_iff {d : PropertyDecl} {p : Schema.Property} :
    d.Declares p ↔ IsGiven d.name ∧ IsGiven d.typeName ∧
      d.toProperty (d.name.getD "") (d.typeName.getD "") = p := by
  constructor
  · intro h
    refine ⟨⟨_, h.name⟩, ⟨_, h.typeName⟩, ?_⟩
    have nullable : (d.nullable != some "false") = p.nullable := by
      rw [Bool.eq_iff_iff, bne_iff_ne, ne_eq, ← h.nullable, Bool.not_eq_false]
    rw [h.name.getD_eq, h.typeName.getD_eq, toProperty, nullable, ← h.kind, ← h.defaultValue,
      ← h.maxLength, ← h.precision, ← h.scale]
  · rintro ⟨named, typed, rfl⟩
    exact ⟨named.gives, typed.gives, rfl, by simp [toProperty], rfl, rfl, rfl, rfl⟩

theorem PropertyDecl.reads_typeName_first (d : PropertyDecl) (untyped unnamed : CsdlError) :
    Yields (do
        let typeName ← required d.typeName untyped
        let name ← required d.name unnamed
        return d.toProperty name typeName)
      d.Declares (missing d.typeName untyped ++ missing d.name unnamed) := by
  refine (yields_named (yields_named_last _)).congr fun p => ?_
  rw [declares_iff, and_left_comm]

theorem PropertyDecl.reads_name_first (d : PropertyDecl) (unnamed : CsdlError)
    (untyped : String → CsdlError) :
    Yields (do
        let name ← required d.name unnamed
        let typeName ← required d.typeName (untyped name)
        return d.toProperty name typeName)
      d.Declares (missing d.name unnamed ++ missing d.typeName (untyped (d.name.getD ""))) :=
  (yields_named (yields_named_last _)).congr fun _ => declares_iff.symm

theorem map_some_filterMap_present? (values : List (Option String)) :
    (values.filterMap present?).map some = values.filter (·.getD "" != "") := by
  induction values with
  | nil => rfl
  | cons value values ih =>
    cases found : present? value with
    | some text =>
      obtain ⟨rfl, nonempty⟩ := present?_eq_some_iff.1 found
      simpa [found, nonempty] using ih
    | none =>
      have absent : value.getD "" = "" := by
        simpa [isGiven_iff] using present?_eq_none_iff.1 found
      simpa [found, absent] using ih

theorem KeyDecl.declares_iff {d : KeyDecl} {names : List String} :
    d.Declares names ↔ d.references.filterMap (present? ·.name) = names := by
  have given : d.references.filterMap (present? ·.name) =
      (d.references.map (·.name)).filterMap present? := List.filterMap_map.symm
  rw [Declares, ← map_some_filterMap_present?, List.map_inj_right fun _ _ => Option.some.inj, given,
    eq_comm]

/-- The properties of a type are read in order. -/
theorem TypeItem.properties_read {f : PropertyDecl → Except CsdlError Schema.Property}
    {errors : PropertyDecl → List CsdlError} (items : List TypeItem)
    (reads : ∀ p, Yields (f p) p.Declares (errors p)) :
    Yields ((items.filterMap (·.property?)).mapM f)
      (Lists TypeItem.property PropertyDecl.Declares items) (items.flatMap (violations errors)) :=
  yields_sort property?_eq_some_iff reads fun item => by cases item <;> simp [violations, property?]

theorem EntityTypeDecl.toEntityType_reads (d : EntityTypeDecl) :
    Yields d.toEntityType d.Declares d.violations := by
  refine (yields_named (TypeItem.properties_read d.items
    fun p => p.reads_typeName_first _ _).map).congr fun t => ?_
  constructor
  · rintro ⟨named, properties, declared, rfl⟩
    refine ⟨named.gives, declared, fun key found => ?_, fun keyless => ?_⟩
    · rw [KeyDecl.declares_iff, found, Option.map_some, Option.getD_some]
    · rw [keyless, Option.map_none, Option.getD_none, List.filterMap_nil]
  · rintro ⟨named, declared, keys, keyless⟩
    have names : ((d.key.map (·.references)).getD []).filterMap (present? ·.name) = t.keys := by
      cases found : d.key with
      | none => simp [keyless found]
      | some key => simpa using KeyDecl.declares_iff.1 (keys key found)
    exact ⟨⟨_, named⟩, _, declared, by rw [named.getD_eq, names]⟩

theorem ComplexTypeDecl.toComplexType_reads (d : ComplexTypeDecl) :
    Yields d.toComplexType d.Declares d.violations := by
  refine (yields_named (TypeItem.properties_read d.items
    fun p => p.reads_name_first _ _).map).congr fun t => ?_
  constructor
  · rintro ⟨named, properties, declared, rfl⟩
    exact ⟨named.gives, declared⟩
  · rintro ⟨named, declared⟩
    exact ⟨⟨_, named⟩, _, declared, by rw [named.getD_eq]⟩

theorem ParameterDecl.calledAt_eq_iff {d : ParameterDecl} {place : Nat} {name : String} :
    d.calledAt place = name ↔
      Gives d.name name ∨ ¬IsGiven d.name ∧ name = s!"param{place + 1}" := by
  rw [gives_iff, isGiven_iff, calledAt]
  split
  · next absent => simp [absent, eq_comm]
  · next given => simp [given]

theorem ParameterDecl.toParameter_reads (d : ParameterDecl) (function : String) (place : Nat) :
    Yields (d.toParameter function place) (Declares (d, place))
      (missing d.typeName (.parameterType (d.calledAt place) function)) := by
  have called : (present? d.name).getD s!"param{place + 1}" = d.calledAt place := by
    rw [eq_comm, calledAt_eq_iff]
    cases found : present? d.name with
    | some text => exact .inl (present?_eq_some_iff.1 found)
    | none => exact .inr ⟨present?_eq_none_iff.1 found, rfl⟩
  rw [toParameter, called]
  refine (yields_named_last _).congr fun p => ?_
  constructor
  · rintro ⟨typed, rfl⟩
    exact ⟨calledAt_eq_iff.1 rfl, typed.gives⟩
  · rintro ⟨named, typed⟩
    exact ⟨⟨_, typed⟩, by rw [calledAt_eq_iff.2 named, typed.getD_eq]⟩

theorem FunctionDecl.bind_returnType (d : FunctionDecl) :
    d.returnType.bind (·.typeName) = d.givenType := by
  cases found : d.returnType <;> simp [givenType, found]

theorem FunctionDecl.gives_givenType_iff {d : FunctionDecl} {text : String} :
    Gives d.givenType text ↔ ∃ result, d.returnType = some result ∧ Gives result.typeName text := by
  cases found : d.returnType <;> simp [givenType, found, Gives]

theorem FunctionDecl.toFunction_reads (d : FunctionDecl) :
    Yields d.toFunction d.Declares d.violations := by
  rw [toFunction, d.bind_returnType]
  refine (yields_named (yields_named (Yields.mapM fun p _ => p.1.toParameter_reads _ p.2).map)).congr
    fun f => ?_
  constructor
  · rintro ⟨named, returned, parameters, declared, rfl⟩
    exact ⟨named.gives, gives_givenType_iff.1 returned.gives, declared⟩
  · rintro ⟨named, returned, declared⟩
    have given := gives_givenType_iff.2 returned
    exact ⟨⟨_, named⟩, ⟨_, given⟩, _, declared, by rw [named.getD_eq, given.getD_eq]⟩

theorem EntitySetDecl.reads (d : EntitySetDecl) :
    Yields (do
        let name ← required d.name .entitySetName
        return ⟨name, ← required d.entityType .entitySetType⟩)
      d.Declares (missing d.name .entitySetName ++ missing d.entityType .entitySetType) := by
  refine (yields_named (yields_named_last _)).congr fun p => ?_
  constructor
  · rintro ⟨named, typed, rfl⟩
    exact ⟨named.gives, typed.gives⟩
  · rintro ⟨named, typed⟩
    exact ⟨⟨_, named⟩, ⟨_, typed⟩, by rw [named.getD_eq, typed.getD_eq]⟩

theorem ContainerDecl.toContainer_reads (d : ContainerDecl) :
    Yields d.toContainer d.Declares d.violations := by
  have same : ∀ item : ContainerItem, item.violations = item.entitySet?.toList.flatMap fun s =>
      missing s.name .entitySetName ++ missing s.entityType .entitySetType := fun item => by
    cases item <;> simp [ContainerItem.violations, ContainerItem.entitySet?]
  refine (yields_named (yields_sort ContainerItem.entitySet?_eq_some_iff EntitySetDecl.reads
    same).map).congr fun t => ?_
  constructor
  · rintro ⟨named, sets, declared, rfl⟩
    exact ⟨named.gives, declared⟩
  · rintro ⟨named, declared⟩
    exact ⟨⟨_, named⟩, _, declared, by rw [named.getD_eq]⟩

/-! ## Schemas of a document -/

theorem SchemaDecl.toModel_reads (d : SchemaDecl) :
    Yields d.toModel (Declares d.items) (violationsOf d.items) := by
  refine ((yields_sort SchemaItem.container?_eq_some_iff ContainerDecl.toContainer_reads
      fun item => by cases item <;> simp [SchemaItem.container?]).bind fun containers _ =>
    (yields_sort SchemaItem.entityType?_eq_some_iff EntityTypeDecl.toEntityType_reads
      fun item => by cases item <;> simp [SchemaItem.entityType?]).bind fun entityTypes _ =>
    (yields_sort SchemaItem.complexType?_eq_some_iff ComplexTypeDecl.toComplexType_reads
      fun item => by cases item <;> simp [SchemaItem.complexType?]).bind fun complexTypes _ =>
    (yields_sort SchemaItem.function?_eq_some_iff FunctionDecl.toFunction_reads
      fun item => by cases item <;> simp [SchemaItem.function?]).map).congr fun m => ?_
  constructor
  · rintro ⟨_, containers, _, entityTypes, _, complexTypes, _, functions, rfl⟩
    exact ⟨containers, entityTypes, complexTypes, functions⟩
  · rintro ⟨containers, entityTypes, complexTypes, functions⟩
    exact ⟨_, containers, _, entityTypes, _, complexTypes, _, functions, rfl⟩

/-- What is declared in one list and then in another. -/
theorem Declares.join {items items' : List SchemaItem} {m m' : Schema.Model}
    (h : Declares items m) (h' : Declares items' m') : Declares (items ++ items') (join m m') where
  containers := h.containers.append h'.containers
  entityTypes := h.entityTypes.append h'.entityTypes
  complexTypes := h.complexTypes.append h'.complexTypes
  functions := h.functions.append h'.functions

theorem declares_foldl_join {schemas : List SchemaDecl} {models : List Schema.Model}
    (h : List.Forall₂ (fun schema => Declares schema.items) schemas models)
    {items : List SchemaItem} {m : Schema.Model} (before : Declares items m) :
    Declares (items ++ schemas.flatMap (·.items)) (models.foldl join m) := by
  induction h generalizing items m with
  | nil => simpa using before
  | cons first _ ih =>
    rw [List.flatMap_cons, ← List.append_assoc]
    exact ih (before.join first)

/-- A list of items declares one schema. -/
theorem Declares.unique {items : List SchemaItem} {m m' : Schema.Model} (h : Declares items m)
    (h' : Declares items m') : m = m' := by
  have read := ((SchemaDecl.toModel_reads ⟨items⟩).ok_iff m).2 h
  have read' := ((SchemaDecl.toModel_reads ⟨items⟩).ok_iff m').2 h'
  simpa [read] using read'

/-! ## Complete documents -/

theorem ContainerDecl.violations_eq_nil_iff (d : ContainerDecl) :
    d.violations = [] ↔ (SchemaItem.container d).Complete := by
  have items : (∀ item ∈ d.items, item.violations = []) ↔
      ∀ s, .entitySet s ∈ d.items → IsGiven s.name ∧ IsGiven s.entityType := by
    constructor
    · intro h s member
      simpa [ContainerItem.violations] using h _ member
    · intro h item member
      cases item with
      | entitySet s => simpa [ContainerItem.violations] using h s member
      | _ => rfl
  simp only [violations, SchemaItem.Complete, List.append_eq_nil_iff, List.flatMap_eq_nil_iff,
    missing_eq_nil_iff, items]

theorem TypeItem.violations_eq_nil_iff {errors : PropertyDecl → List CsdlError}
    {items : List TypeItem} : (∀ item ∈ items, item.violations errors = []) ↔
      ∀ p, .property p ∈ items → errors p = [] := by
  constructor
  · exact fun h p member => h _ member
  · intro h item member
    cases item with
    | property p => exact h p member
    | _ => rfl

theorem EntityTypeDecl.violations_eq_nil_iff (d : EntityTypeDecl) :
    d.violations = [] ↔ (SchemaItem.entityType d).Complete := by
  simp [violations, SchemaItem.Complete, PropertyDecl.Complete, TypeItem.violations_eq_nil_iff,
    and_comm]

theorem ComplexTypeDecl.violations_eq_nil_iff (d : ComplexTypeDecl) :
    d.violations = [] ↔ (SchemaItem.complexType d).Complete := by
  simp [violations, SchemaItem.Complete, PropertyDecl.Complete, TypeItem.violations_eq_nil_iff]

theorem FunctionDecl.violations_eq_nil_iff (d : FunctionDecl) :
    d.violations = [] ↔ (SchemaItem.function d).Complete := by
  have placed : (∀ p ∈ d.parameters.zipIdx.map (·.1), IsGiven p.typeName) ↔
      ∀ p ∈ d.parameters.zipIdx, IsGiven p.1.typeName := List.forall_mem_map
  have returned : IsGiven d.givenType ↔
      ∃ result, d.returnType = some result ∧ IsGiven result.typeName := by
    cases found : d.returnType <;> simp [givenType, found, IsGiven, Gives]
  rw [List.zipIdx_map_fst] at placed
  simp only [violations, SchemaItem.Complete, List.append_eq_nil_iff, List.flatMap_eq_nil_iff,
    missing_eq_nil_iff, placed, returned]

/-- A schema of a document violates nothing if all of its items are complete, whatever their sort. -/
theorem violationsOf_eq_nil_iff {items : List SchemaItem} :
    violationsOf items = [] ↔ ∀ item ∈ items, item.Complete := by
  simp only [violationsOf, List.append_eq_nil_iff, List.flatMap_eq_nil_iff]
  constructor
  · rintro ⟨containers, entityTypes, complexTypes, functions⟩ item member
    cases item with
    | container c => exact c.violations_eq_nil_iff.1 (containers _ member)
    | entityType t => exact t.violations_eq_nil_iff.1 (entityTypes _ member)
    | complexType t => exact t.violations_eq_nil_iff.1 (complexTypes _ member)
    | function f => exact f.violations_eq_nil_iff.1 (functions _ member)
    | _ => exact trivial
  · intro complete
    refine ⟨fun item member => ?_, fun item member => ?_, fun item member => ?_,
      fun item member => ?_⟩
    all_goals
      have whole := complete item member
      cases item <;> first | rfl | skip
    · exact (ContainerDecl.violations_eq_nil_iff _).2 whole
    · exact (EntityTypeDecl.violations_eq_nil_iff _).2 whole
    · exact (ComplexTypeDecl.violations_eq_nil_iff _).2 whole
    · exact (FunctionDecl.violations_eq_nil_iff _).2 whole

theorem Document.violations_eq_nil_iff {d : Document} : d.violations = [] ↔ d.Complete := by
  cases found : d.dataServices with
  | none => simp [violations, Complete, found]
  | some services => simp [violations, Complete, found, violationsOf_eq_nil_iff]

theorem Declares.complete {items : List SchemaItem} {m : Schema.Model} (h : Declares items m) :
    ∀ item ∈ items, item.Complete := by
  have read := ((SchemaDecl.toModel_reads ⟨items⟩).ok_iff m).2 h
  exact violationsOf_eq_nil_iff.1 ((SchemaDecl.toModel_reads ⟨items⟩).exists_ok_iff.1 ⟨m, read⟩)

/-! ## Documents -/

theorem Document.toModel_reads (d : Document) : Yields d.toModel d.Declares d.violations := by
  cases found : d.dataServices with
  | none =>
    simp only [toModel, violations, found]
    exact (Yields.error _).congr fun m => by simp [Declares, found]
  | some services =>
    simp only [toModel, violations, found]
    have models := Yields.mapM fun s (_ : s ∈ services.schemas) => s.toModel_reads
    have nothing : Csdl.Declares [] .empty := ⟨.nil, .nil, .nil, .nil⟩
    have joined : ∀ ms, List.Forall₂ (fun s => Csdl.Declares s.items) services.schemas ms →
        Csdl.Declares (services.schemas.flatMap (·.items)) (ms.foldl join .empty) :=
      fun ms declared => declares_foldl_join declared nothing
    refine models.map.congr fun m => ?_
    constructor
    · rintro ⟨ms, declared, rfl⟩
      exact ⟨services, found, joined ms declared⟩
    · rintro ⟨services', found', declares⟩
      obtain rfl : services = services' := Option.some.inj (found.symm.trans found')
      -- every schema of the document can be read, and what they give together is all there can be
      have complete : services.schemas.flatMap (violationsOf ·.items) = [] :=
        List.flatMap_eq_nil_iff.2 fun s member => violationsOf_eq_nil_iff.2 fun item inside =>
          declares.complete item (List.mem_flatMap_of_mem member inside)
      obtain ⟨ms, read⟩ := models.exists_ok_iff.2 complete
      have declared := (models.ok_iff ms).1 read
      exact ⟨ms, declared, Csdl.Declares.unique (joined ms declared) declares⟩

/-- In the schema of a document every property has the kind of its type. -/
theorem Document.toModel_kinds {d : Document} {m : Schema.Model} (h : d.toModel = .ok m) :
    (∀ t ∈ m.entityTypes, ∀ p ∈ t.properties, p.kind = .ofTypeName p.typeName) ∧
      ∀ t ∈ m.complexTypes, ∀ p ∈ t.properties, p.kind = .ofTypeName p.typeName := by
  obtain ⟨services, -, declares⟩ := (d.toModel_reads.ok_iff m).1 h
  constructor
  · intro t member p inside
    obtain ⟨_, declared⟩ := declares.entityTypes.exists_declares t member
    obtain ⟨_, property⟩ := declared.properties.exists_declares p inside
    exact property.kind
  · intro t member p inside
    obtain ⟨_, declared⟩ := declares.complexTypes.exists_declares t member
    obtain ⟨_, property⟩ := declared.properties.exists_declares p inside
    exact property.kind

/-- A document becomes a schema if it is complete, and the schema is the one that it declares;
otherwise the first of its violations is reported. -/
theorem Document.toModel_declarations (d : Document) :
    ((∃ m, d.toModel = .ok m) ↔ d.Complete) ∧
      (∀ m, d.toModel = .ok m ↔ d.Declares m) ∧
      ∀ error, d.toModel = .error error ↔ d.violations.head? = some error := by
  refine ⟨?_, d.toModel_reads.ok_iff, d.toModel_reads.error_iff⟩
  rw [d.toModel_reads.exists_ok_iff, violations_eq_nil_iff]

-- A container is looked at before the entity types that are declared ahead of it.
example : (Document.mk <| some <| .mk <| List.singleton <| .mk [
    .entityType ⟨some "Shop", none, [.property ⟨some "Id", none, none, none, none, none, none⟩]⟩,
    .notes, .container ⟨some "", [.singleton]⟩]).toModel = .error .containerName := by
  decide

end FilterSql.Csdl
