import FilterSql.Catalog.Function
import FilterSql.Filter.Expr
import FilterSql.Filter.Literal
import FilterSql.Schema.Model

/-!
# Checking filters against a schema

Property paths must lead through the entity type behind an entity set, calls must fit the function
catalog in name, number and families of arguments, and lists must hold literals of the type on their
left. The first fault counts, left operands before right ones.
-/

namespace FilterSql

open Text FilterSql.Filter Catalog Schema

inductive ExpressionError
  | propertyNotFound (segment owner : String)
  | primitiveNavigation (property typeName segment : String)
  | unknownComplexType (property typeName : String)
  | unknownFunction (name : String)
  | argumentCount (function : String) (expected actual : Nat)
  | argumentType (position : Nat) (function actual expected : String)
  | distanceUnit (unit : String)
  | notALiteral (text : String)
  | inTypeMismatch (value path : String)
deriving Repr, DecidableEq

def ExpressionError.message : ExpressionError → String
  | .propertyNotFound segment owner => s!"Property '{segment}' not found in EntityType '{owner}'"
  | .primitiveNavigation property typeName segment =>
    s!"Property '{property}' of type '{typeName}' has no member '{segment}'"
  | .unknownComplexType property typeName =>
    s!"ComplexType '{typeName}' of property '{property}' not found in the CSDL model"
  | .unknownFunction name => s!"Unknown function '{name}'."
  | .argumentCount function expected actual =>
    s!"Function '{function}' expects {expected} arguments, but {actual} were provided."
  | .argumentType position function actual expected =>
    s!"Argument {position} of function '{function}' has type '{actual}', " ++
      s!"but expected '{expected}'."
  | .distanceUnit unit =>
    s!"Invalid unit '{unit}' for distance. Allowed: 'm' (meters), 'd' (degrees)."
  | .notALiteral text => s!"'{text}' must be a literal value."
  | .inTypeMismatch value path =>
    s!"Type mismatch in IN clause: '{value}' does not match type of '{path}'"

inductive ValidationError
  | entitySetNotFound (name : String)
  | entityTypeNotFound (entitySet entityType : String)
  | invalidExpression (cause : ExpressionError)
deriving Repr, DecidableEq

def ValidationError.message : ValidationError → String
  | .entitySetNotFound name => s!"EntitySet '{name}' not found in the CSDL model."
  | .entityTypeNotFound entitySet entityType =>
    s!"EntityType '{entityType}' of EntitySet '{entitySet}' not found in the CSDL model."
  | .invalidExpression cause => "Invalid filter expression: " ++ cause.message

namespace Validation

/-- Where a path has led so far: into a type, or to a property that cannot be entered. -/
inductive Place
  | inside (owner : StructuredType)
  | atProperty (property : Property)

/-- The place behind a property. -/
def Place.behind (m : Model) (p : Property) : Place :=
  if p.isPrimitive then .atProperty p
  else (m.complexType? p.typeName).elim (.atProperty p) .inside

/-- Follows a path from a place, and returns the last property on it. Segments that are literals are
passed over. -/
def walk (m : Model) (place : Place) (last : Option Property) :
    List String → Except ExpressionError (Option Property)
  | [] => .ok last
  | segment :: rest =>
    if Literal.isLiteral segment then walk m place last rest
    else
      match place with
      | .atProperty p =>
        if p.isPrimitive then .error (.primitiveNavigation p.name p.typeName segment)
        else .error (.unknownComplexType p.name p.typeName)
      | .inside owner =>
        match owner.property? segment with
        | none => .error (.propertyNotFound segment owner.name)
        | some p => walk m (.behind m p) (some p) rest

/-- The last property on a path through an entity type. -/
def walkPath (m : Model) (entity : EntityType) (path : String) :
    Except ExpressionError (Option Property) :=
  walk m (.inside entity.toStructuredType) none ((segments '/' path).map trim)

/-- Whether a value of one type may stand where another is expected. Families are compared, an integer
may stand for a decimal, and names outside the families must be the same. -/
def typeAccepts (expected actual : String) : Bool :=
  match Edm.Family.ofTypeName expected, Edm.Family.ofTypeName actual with
  | .unknown, _ => sameName (trim expected) (trim actual)
  | .decimal, .integer => true
  | want, given => want == given

/-- The type of an argument must be accepted where one is declared. -/
def checkArgumentType (f : SqlFunction) (index : Nat) (actual : String) :
    Except ExpressionError Unit :=
  match f.argumentTypes[index]? with
  | none => .ok ()
  | some expected =>
    if typeAccepts expected actual then .ok ()
    else .error (.argumentType (index + 1) f.name actual expected)

def distanceUnits : List String := ["m", "d"]

end Validation

/-- What filters are checked against. -/
structure Validator where
  schema : Model
  catalog : FunctionCatalog

namespace Validator

open Validation

/-- The name of the type of an expression, unknown where it has none. -/
def typeOf (v : Validator) (entity : EntityType) : Expr → String
  | .primary text =>
    if Literal.isNull text then Edm.nullTypeName
    else if Literal.isLiteral text then (Literal.kind text).typeName
    else
      match walkPath v.schema entity text with
      | .ok (some p) => p.typeName
      | _ => Edm.unknownTypeName
  | .call name _ _ => (v.catalog.get? name).elim Edm.unknownTypeName (·.returnType)
  | .group e => v.typeOf entity e
  | .not _ | .comparison _ _ _ | .logical _ _ _ | .inList _ _ => Edm.booleanTypeName

/-- The name of the type of an argument, where quoted text fits the declared family. -/
def argumentType (v : Validator) (entity : EntityType) (f : SqlFunction) (index : Nat) :
    Expr → String
  | .primary text =>
    if Literal.isQuoted text then (Literal.kindFor text (f.argumentFamily index)).typeName
    else v.typeOf entity (.primary text)
  | e => v.typeOf entity e

/-- The second argument of a distance must be a known unit. -/
def checkUnit (f : SqlFunction) (index : Nat) (arg : Expr) : Except ExpressionError Unit :=
  let unit := Literal.unquote arg.text
  if f.isDistance && index == 1 && !distanceUnits.contains unit then .error (.distanceUnit unit)
  else .ok ()

/-- Checks units and types of arguments, the first of which has the given index. -/
def checkTypes (v : Validator) (entity : EntityType) (f : SqlFunction) :
    Nat → List Expr → Except ExpressionError Unit
  | _, [] => .ok ()
  | index, arg :: args => do
    checkUnit f index arg
    checkArgumentType f index (v.argumentType entity f index arg)
    v.checkTypes entity f (index + 1) args

/-- Checks number and types of the arguments of a call. A call of one argument may leave it to its
text, if it is quoted there. -/
def checkCall (v : Validator) (entity : EntityType) (f : SqlFunction) (name raw : String)
    (args : List Expr) : Except ExpressionError Unit :=
  if args.isEmpty && f.arity == 1 then
    match (Expr.recoveredArgument? raw).filter Literal.isQuoted with
    | none => .error (.argumentCount name 1 0)
    | some text =>
      checkArgumentType f 0 (Literal.kindFor text (f.argumentFamily 0)).typeName
  else if args.length ≠ f.arity then .error (.argumentCount name f.arity args.length)
  else v.checkTypes entity f 0 args

/-- Every value of a list must be a literal of the declared kind. -/
def checkValues (declared : Edm.Kind) (path : String) : List String → Except ExpressionError Unit
  | [] => .ok ()
  | value :: rest =>
    if !Literal.isLiteral value then .error (.notALiteral value)
    else if !Literal.fits declared value then
      .error (.inTypeMismatch (Literal.unquote value) path)
    else checkValues declared path rest

mutual

/-- Checks an expression against an entity type. -/
def check (v : Validator) (entity : EntityType) : Expr → Except ExpressionError Unit
  | .primary text =>
    if Literal.isLiteral text then .ok () else (walkPath v.schema entity text).map fun _ => ()
  | .call name args raw =>
    match v.catalog.get? name with
    | none => .error (.unknownFunction name)
    | some f => do
      v.checkAll entity args
      v.checkCall entity f name raw args
  | .not e => v.check entity e
  | .group e => v.check entity e
  | .comparison _ l r => do
    v.check entity l
    v.check entity r
  | .logical _ l r => do
    v.check entity l
    v.check entity r
  | .inList l values => do
    v.check entity l
    checkValues (.ofTypeName (v.typeOf entity l)) l.text values

/-- Checks expressions in order. -/
def checkAll (v : Validator) (entity : EntityType) : List Expr → Except ExpressionError Unit
  | [] => .ok ()
  | e :: es => do
    v.check entity e
    v.checkAll entity es

end

/-- Checks a filter on an entity set. -/
def validate (v : Validator) (e : Expr) (entitySet : String) : Except ValidationError Unit :=
  match v.schema.entitySet? entitySet with
  | none => .error (.entitySetNotFound entitySet)
  | some set =>
    match v.schema.entityType? set.entityType with
    | none => .error (.entityTypeNotFound set.name set.entityType)
    | some entity => (v.check entity e).mapError .invalidExpression

end Validator

end FilterSql
