import FilterSql.Csdl.Document
import FilterSql.Decimal.Reader
import FilterSql.Schema.Model

/-!
# Schemas from documents

A document becomes a schema if everything in it that needs a name or a type has one. An empty
attribute counts as a missing one. Each schema of a document is checked in the order containers,
entity types, complex types, functions, and the first violation is the one reported.
-/

namespace FilterSql.Csdl

open Decimal

/-- Why a text is no schema. -/
inductive CsdlError where
  /-- The markup cannot be read. -/
  | unreadable
  | noDataServices
  | containerName
  | entitySetName
  | entitySetType
  | entityTypeName
  | entityPropertyType (entityType : String)
  | entityPropertyName (entityType : String)
  | complexTypeName
  | complexPropertyName (complexType : String)
  | complexPropertyType (property complexType : String)
  | functionName
  | functionReturnType (function : String)
  | parameterType (parameter function : String)
deriving Repr, DecidableEq

/-- The message of an error. There is none of its own for markup that cannot be read. -/
def CsdlError.message? : CsdlError → Option String
  | .unreadable => none
  | .noDataServices => some "Invalid CSDL format."
  | .containerName => some "EntityContainer name is required."
  | .entitySetName => some "EntitySet name is required."
  | .entitySetType => some "EntitySet EntityType is required."
  | .entityTypeName => some "EntityType name is required."
  | .entityPropertyType t => some s!"Property type is required for EntityType '{t}'."
  | .entityPropertyName t => some s!"Property name is required for EntityType '{t}'."
  | .complexTypeName => some "ComplexType name is required."
  | .complexPropertyName t => some s!"Property name is required for ComplexType '{t}'."
  | .complexPropertyType p t =>
    some s!"Property type is required for Property '{p}' in ComplexType '{t}'."
  | .functionName => some "Function name is required."
  | .functionReturnType f => some s!"Function return type is required for Function '{f}'."
  | .parameterType p f => some s!"Parameter type is required for Parameter '{p}' in Function '{f}'."

/-- An attribute that is present and not empty. -/
def present? (value : Option String) : Option String := value.filter (!·.isEmpty)

/-- The value of an attribute that has to be present. -/
def required (value : Option String) (error : CsdlError) : Except CsdlError String :=
  match present? value with
  | some text => .ok text
  | none => .error error

/-- A facet is a number of 32 bits. One that is not counts as missing. -/
def facet? (value : Option String) : Option Nat := value.bind (readBoundedNat? maxNat32 ·.toList)

/-- A property is nullable unless it says `false`. -/
def PropertyDecl.toProperty (p : PropertyDecl) (name typeName : String) : Schema.Property where
  name := name
  typeName := typeName
  kind := .ofTypeName typeName
  nullable := p.nullable != some "false"
  defaultValue := p.defaultValue
  maxLength := facet? p.maxLength
  precision := facet? p.precision
  scale := facet? p.scale

def TypeItem.property? : TypeItem → Option PropertyDecl
  | .property p => some p
  | .navigationProperty | .note => none

/-- In an entity type the type of a property is required before its name. -/
def EntityTypeDecl.toEntityType (t : EntityTypeDecl) : Except CsdlError Schema.EntityType := do
  let name ← required t.name .entityTypeName
  let references := (t.key.map (·.references)).getD []
  let properties ← (t.items.filterMap (·.property?)).mapM fun p => do
    let typeName ← required p.typeName (.entityPropertyType name)
    let propertyName ← required p.name (.entityPropertyName name)
    return p.toProperty propertyName typeName
  return { name, properties, keys := references.filterMap (present? ·.name) }

/-- In a complex type the name of a property is required before its type. -/
def ComplexTypeDecl.toComplexType (t : ComplexTypeDecl) : Except CsdlError Schema.ComplexType := do
  let name ← required t.name .complexTypeName
  let properties ← (t.items.filterMap (·.property?)).mapM fun p => do
    let propertyName ← required p.name (.complexPropertyName name)
    let typeName ← required p.typeName (.complexPropertyType propertyName name)
    return p.toProperty propertyName typeName
  return { name, properties }

/-- A parameter without a name is named for its place, counted from one. -/
def ParameterDecl.toParameter (function : String) (place : Nat) (p : ParameterDecl) :
    Except CsdlError Schema.Parameter := do
  let name := (present? p.name).getD s!"param{place + 1}"
  return ⟨name, ← required p.typeName (.parameterType name function)⟩

def FunctionDecl.toFunction (f : FunctionDecl) : Except CsdlError Schema.Function := do
  let name ← required f.name .functionName
  let returnType ← required (f.returnType.bind (·.typeName)) (.functionReturnType name)
  let parameters ← f.parameters.zipIdx.mapM fun (p, place) => p.toParameter name place
  return { name, parameters, returnType }

def ContainerItem.entitySet? : ContainerItem → Option EntitySetDecl
  | .entitySet s => some s
  | .singleton | .functionImport | .actionImport | .note => none

def ContainerDecl.toContainer (c : ContainerDecl) : Except CsdlError Schema.Container := do
  let name ← required c.name .containerName
  let entitySets ← (c.items.filterMap (·.entitySet?)).mapM fun set => do
    let setName ← required set.name .entitySetName
    return ⟨setName, ← required set.entityType .entitySetType⟩
  return { name, entitySets }

def SchemaItem.container? : SchemaItem → Option ContainerDecl
  | .container c => some c
  | _ => none

def SchemaItem.entityType? : SchemaItem → Option EntityTypeDecl
  | .entityType t => some t
  | _ => none

def SchemaItem.complexType? : SchemaItem → Option ComplexTypeDecl
  | .complexType t => some t
  | _ => none

def SchemaItem.function? : SchemaItem → Option FunctionDecl
  | .function f => some f
  | _ => none

/-- What one schema of a document declares. -/
def SchemaDecl.toModel (s : SchemaDecl) : Except CsdlError Schema.Model := do
  let containers ← (s.items.filterMap (·.container?)).mapM (·.toContainer)
  let entityTypes ← (s.items.filterMap (·.entityType?)).mapM (·.toEntityType)
  let complexTypes ← (s.items.filterMap (·.complexType?)).mapM (·.toComplexType)
  let functions ← (s.items.filterMap (·.function?)).mapM (·.toFunction)
  return { entityTypes, complexTypes, functions, containers }

/-- The declarations of one model followed by those of another. -/
def join (a b : Schema.Model) : Schema.Model where
  entityTypes := a.entityTypes ++ b.entityTypes
  complexTypes := a.complexTypes ++ b.complexTypes
  functions := a.functions ++ b.functions
  containers := a.containers ++ b.containers

/-- The schema of a document: the declarations of all its schemas, in order. -/
def Document.toModel (d : Document) : Except CsdlError Schema.Model :=
  match d.dataServices with
  | none => .error .noDataServices
  | some services => do
    let models ← services.schemas.mapM (·.toModel)
    return models.foldl join .empty

/-- The schema of the text of a document. Nothing is required of a text before its markup is
read. -/
def read (text : String) : Except CsdlError Schema.Model :=
  match Document.ofText? text with
  | none => .error .unreadable
  | some document => document.toModel

end FilterSql.Csdl
