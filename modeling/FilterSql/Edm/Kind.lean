import FilterSql.Text.AsciiCase
import FilterSql.Text.Blank

/-!
# Kinds and families of the entity data model

A *kind* is a primitive or spatial type that a property or a literal can have. Every other type name,
of a complex type or misspelt, has the kind `unknown`. A *family* folds related kinds together: all
widths of integers, all texts, all points in time, all shapes. Comparisons go by family.
-/

namespace FilterSql.Edm

/-- The shape that a spatial kind may fix. -/
inductive Shape
  | point
  | lineString
  | polygon
  | multiPoint
  | multiLineString
  | multiPolygon
deriving Repr, DecidableEq

def Shape.all : List Shape :=
  [.point, .lineString, .polygon, .multiPoint, .multiLineString, .multiPolygon]

def Shape.name : Shape → String
  | .point => "Point"
  | .lineString => "LineString"
  | .polygon => "Polygon"
  | .multiPoint => "MultiPoint"
  | .multiLineString => "MultiLineString"
  | .multiPolygon => "MultiPolygon"

inductive Family
  | string
  | integer
  | decimal
  | boolean
  | dateTime
  | geography
  | unknown
deriving Repr, DecidableEq

inductive Kind
  | string
  | byte
  | sbyte
  | int16
  | int32
  | int64
  | single
  | double
  | decimal
  | boolean
  | guid
  | binary
  | dateTimeOffset
  | date
  | timeOfDay
  | duration
  | geography (shape : Option Shape)
  | geometry (shape : Option Shape)
  | unknown
deriving Repr, DecidableEq

/-- The type name of the kind of no known type. -/
def unknownTypeName : String := "Edm.Unknown"

/-- The type name that the literal `null` has. -/
def nullTypeName : String := "Edm.Null"

def booleanTypeName : String := "Edm.Boolean"

/-- The spelling of a kind in a schema. -/
def Kind.typeName : Kind → String
  | .string => "Edm.String"
  | .byte => "Edm.Byte"
  | .sbyte => "Edm.SByte"
  | .int16 => "Edm.Int16"
  | .int32 => "Edm.Int32"
  | .int64 => "Edm.Int64"
  | .single => "Edm.Single"
  | .double => "Edm.Double"
  | .decimal => "Edm.Decimal"
  | .boolean => booleanTypeName
  | .guid => "Edm.Guid"
  | .binary => "Edm.Binary"
  | .dateTimeOffset => "Edm.DateTimeOffset"
  | .date => "Edm.Date"
  | .timeOfDay => "Edm.TimeOfDay"
  | .duration => "Edm.Duration"
  | .geography shape => "Edm.Geography" ++ (shape.map Shape.name).getD ""
  | .geometry shape => "Edm.Geometry" ++ (shape.map Shape.name).getD ""
  | .unknown => unknownTypeName

/-- Every kind but `unknown`. -/
def Kind.known : List Kind :=
  [.string, .byte, .sbyte, .int16, .int32, .int64, .single, .double, .decimal, .boolean, .guid,
    .binary, .dateTimeOffset, .date, .timeOfDay, .duration] ++
    .geography none :: Shape.all.map (.geography <| some ·) ++
    .geometry none :: Shape.all.map (.geometry <| some ·)

/-- The kind of a type name, which must be spelt exactly. -/
def Kind.ofTypeName (name : String) : Kind :=
  (known.find? (·.typeName == name)).getD .unknown

def Kind.family : Kind → Family
  | .string | .guid | .binary => .string
  | .byte | .sbyte | .int16 | .int32 | .int64 => .integer
  | .single | .double | .decimal => .decimal
  | .boolean => .boolean
  | .dateTimeOffset | .date | .timeOfDay | .duration => .dateTime
  | .geography _ | .geometry _ => .geography
  | .unknown => .unknown

def Kind.isGeography : Kind → Bool
  | .geography _ => true
  | _ => false

def Kind.isGeometry : Kind → Bool
  | .geometry _ => true
  | _ => false

/-- Whether a value of kind `actual` may stand where `declared` is declared: kinds of one family
match, an integer may stand for a decimal, and the unknown kind matches itself only. -/
def Kind.accepts (declared actual : Kind) : Bool :=
  declared == actual ||
    match declared.family, actual.family with
    | .unknown, _ | _, .unknown => false
    | .decimal, .integer => true
    | want, given => want == given

def Family.name : Family → String
  | .string => "string"
  | .integer => "integer"
  | .decimal => "decimal"
  | .boolean => "boolean"
  | .dateTime => "datetime"
  | .geography => "geography"
  | .unknown => "unknown"

/-- The family that a bare name stands for, in small letters. -/
def Family.ofBareName (name : String) : Family :=
  if name ∈ ["string", "guid", "binary"] then .string
  else if name ∈ ["integer", "int", "int32", "int64"] then .integer
  else if name ∈ ["decimal", "double", "float", "single"] then .decimal
  else if name ∈ ["boolean", "bool"] then .boolean
  else if name ∈ ["datetime", "datetimeoffset", "date", "time"] then .dateTime
  else if name ∈ ["geography", "geometry"] then .geography
  else .unknown

/-- The family of a type name, spelt exactly, or of a bare name in any case between blanks. -/
def Family.ofTypeName (name : String) : Family :=
  match Kind.ofTypeName name with
  | .unknown => ofBareName (Text.foldCase (Text.trim name))
  | kind => kind.family

end FilterSql.Edm
