import FilterSql.Edm.Kind
import FilterSql.Text.Split

/-!
# Schemas

An entity data model: entity types and complex types with their properties, functions, and containers
of entity sets, each in the order of declaration. Names are looked up ignoring ASCII case, and the
first match counts.
-/

namespace FilterSql.Schema

open Text

/-- A property of an entity type or a complex type. Its type is a primitive or the name, with or
without its namespace, of a complex type. -/
structure Property where
  name : String
  typeName : String
  kind : Edm.Kind
  nullable : Bool
  defaultValue : Option String
  maxLength : Option Nat
  precision : Option Nat
  scale : Option Nat
deriving Repr, DecidableEq

/-- A nullable property of the kind of its type, without further facets. -/
def Property.plain (name typeName : String) : Property :=
  ⟨name, typeName, .ofTypeName typeName, true, none, none, none, none⟩

def Property.isPrimitive (p : Property) : Bool := p.kind != .unknown

/-- A type made of properties. -/
structure StructuredType where
  name : String
  properties : List Property
deriving Repr, DecidableEq

abbrev ComplexType := StructuredType

structure EntityType extends StructuredType where
  keys : List String
deriving Repr, DecidableEq

structure EntitySet where
  name : String
  entityType : String
deriving Repr, DecidableEq

structure Container where
  name : String
  entitySets : List EntitySet
deriving Repr, DecidableEq

structure Parameter where
  name : String
  typeName : String
deriving Repr, DecidableEq

structure Function where
  name : String
  parameters : List Parameter
  returnType : String
deriving Repr, DecidableEq

structure Model where
  entityTypes : List EntityType
  complexTypes : List ComplexType
  functions : List Function
  containers : List Container
deriving Repr, DecidableEq

def Model.empty : Model := ⟨[], [], [], []⟩

/-- The part of a qualified name after its last dot. -/
def shortName (qualified : String) : String := (segments '.' qualified).getLastD qualified

def StructuredType.property? (t : StructuredType) (name : String) : Option Property :=
  t.properties.find? (sameName ·.name name)

namespace Model

/-- The entity set of a name, in any container. -/
def entitySet? (m : Model) (name : String) : Option EntitySet :=
  (m.containers.flatMap (·.entitySets)).find? (sameName ·.name name)

/-- The entity type of a name, whose namespace does not count. -/
def entityType? (m : Model) (name : String) : Option EntityType :=
  m.entityTypes.find? (sameName ·.name (shortName name))

/-- The entity type behind an entity set. -/
def entityTypeOfSet? (m : Model) (name : String) : Option EntityType :=
  (m.entitySet? name).bind fun set => m.entityType? set.entityType

/-- The complex type of a full name or of its last part. -/
def complexType? (m : Model) (name : String) : Option ComplexType :=
  m.complexTypes.find? fun t => sameName t.name name || sameName t.name (shortName name)

def function? (m : Model) (name : String) : Option Function :=
  m.functions.find? (sameName ·.name name)

/-- The declared type at the end of a path that starts in `owner`. Every property but the last must
have a complex type. -/
def typeAlong (m : Model) (owner : StructuredType) : List String → String
  | [] => Edm.unknownTypeName
  | segment :: rest =>
    match owner.property? segment with
    | none => Edm.unknownTypeName
    | some p =>
      if rest.isEmpty then p.typeName
      else if p.isPrimitive then Edm.unknownTypeName
      else
        match m.complexType? p.typeName with
        | some next => typeAlong m next rest
        | none => Edm.unknownTypeName

/-- The declared type at the end of a path through an entity type, or the unknown type. -/
def pathType (m : Model) (entityType path : String) : String :=
  match m.entityType? entityType with
  | some root => m.typeAlong root.toStructuredType (segments '/' path)
  | none => Edm.unknownTypeName

end Model

end FilterSql.Schema
