import FilterSql.Catalog.Column
import FilterSql.Catalog.Function
import FilterSql.Json.Record
import FilterSql.Sql.Options

/-!
# Catalogs and options in JSON

The forms in which function catalogs, column maps and options are configured and shown.
-/

namespace FilterSql

open Catalog

namespace Catalog.WildcardSide

def ofName? : String → Option WildcardSide
  | "left" => some .left
  | "right" => some .right
  | "both" | "left_and_right" => some .both
  | _ => none

def name : WildcardSide → String
  | .left => "left"
  | .right => "right"
  | .both => "both"

def ofJson? (surplus : Json.Surplus) (v : Json) : Option WildcardSide :=
  (v.choice? surplus).bind ofName?

end Catalog.WildcardSide

namespace Catalog.SqlFunction

def fieldNames : List String :=
  ["name", "sql_template", "argument_types", "return_type", "wildcard_position",
    "wildcard_symbol"]

def ofJson? (surplus : Json.Surplus) (v : Json) : Option SqlFunction := do
  let v ← v.record? surplus fieldNames
  return {
    name := ← v.required? Json.string? "name"
    template := ← v.required? Json.string? "sql_template"
    argumentTypes := ← v.withDefault? (Json.list? Json.string?) [] "argument_types"
    returnType := ← v.required? Json.string? "return_type"
    wildcardSide := ← v.optional? (WildcardSide.ofJson? surplus) "wildcard_position"
    wildcardSymbol := ← v.optional? Json.string? "wildcard_symbol" }

def toJson (f : SqlFunction) : Json :=
  .object <|
    [("name", .string f.name), ("sql_template", .string f.template),
      ("argument_types", .array (f.argumentTypes.map .string)),
      ("return_type", .string f.returnType)] ++
    Json.optionalField "wildcard_position" (f.wildcardSide.map fun side => .string side.name) ++
    Json.optionalField "wildcard_symbol" (f.wildcardSymbol.map .string)

end Catalog.SqlFunction

def Catalog.FunctionCatalog.ofJson? (surplus : Json.Surplus) (v : Json) :
    Option FunctionCatalog :=
  (v.list? (SqlFunction.ofJson? surplus)).map (⟨·⟩)

def Catalog.FunctionCatalog.toJson (c : FunctionCatalog) : Json :=
  .array (c.functions.map (·.toJson))

namespace Catalog.Column

def fieldNames : List String := ["property", "query", "edm_type", "where_clause"]

def ofJson? (surplus : Json.Surplus) (v : Json) : Option Column := do
  let v ← v.record? surplus fieldNames
  return {
    path := ← v.required? Json.string? "property"
    query := ← v.required? Json.string? "query"
    typeName := ← v.required? Json.string? "edm_type"
    condition := ← v.optional? Json.string? "where_clause" }

def toJson (c : Column) : Json :=
  .object <|
    [("property", .string c.path), ("query", .string c.query), ("edm_type", .string c.typeName)] ++
    Json.optionalField "where_clause" (c.condition.map .string)

end Catalog.Column

def Catalog.ColumnMap.ofJson? (surplus : Json.Surplus) (v : Json) : Option ColumnMap :=
  (v.list? (Column.ofJson? surplus)).map (⟨·⟩)

def Catalog.ColumnMap.toJson (m : ColumnMap) : Json := .array (m.columns.map (·.toJson))

namespace Sql.Options

def fieldNames : List String := ["parameter_prefix", "source_srid", "max_filter_length"]

/-- Options of which some may be left out. -/
def ofJson? (surplus : Json.Surplus) (v : Json) : Option Options := do
  let v ← v.record? surplus fieldNames
  let default : Options := {}
  return {
    sigil := ← v.withDefault? Json.char? default.sigil "parameter_prefix"
    sourceSrid := ← v.withDefault? Json.int32? default.sourceSrid "source_srid"
    maxLength := ← v.withDefault? Json.nat64? default.maxLength "max_filter_length" }

def toJson (o : Options) : Json :=
  .object [("parameter_prefix", .string (String.singleton o.sigil)),
    ("source_srid", .integer o.sourceSrid), ("max_filter_length", .integer o.maxLength)]

end Sql.Options

end FilterSql
