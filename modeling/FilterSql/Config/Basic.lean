import FilterSql.Json.Catalog
import FilterSql.Text.Blank

/-!
# Configurations

The options of a compilation, the function catalog, the column map, and the schema document to use,
with their form in JSON and the checks that the form does not express.
-/

namespace FilterSql

open Catalog Text

structure Config where
  options : Sql.Options := {}
  catalog : FunctionCatalog := .empty
  columns : ColumnMap := .empty
  /-- The path of the schema document. -/
  csdl : Option String := none
deriving Repr, DecidableEq

/-- Why a configuration cannot be used, though it has the right form. -/
inductive ConfigFault
  | unsupportedSystem (srid : Geodesy.Srid)
  | zeroLength
  | incompleteFunction
  | incompleteColumn
deriving Repr, DecidableEq

def ConfigFault.message : ConfigFault → String
  | .unsupportedSystem srid => s!"filter.source_srid {srid} is not a supported coordinate system"
  | .zeroLength => "filter.max_filter_length must be greater than zero"
  | .incompleteFunction => "function entries need a name and an sql_template"
  | .incompleteColumn => "property entries need a property and a query"

namespace Config

/-- A configuration of which every part may be left out. What is too much in it is ignored. -/
def ofJson? : Json → Option Config
  | .object fields => do
    let v := Json.object fields
    return {
      options := ← v.withDefault? (Sql.Options.ofJson? .ignored) {} "filter"
      catalog := ← v.withDefault? (FunctionCatalog.ofJson? .ignored) .empty "functions"
      columns := ← v.withDefault? (ColumnMap.ofJson? .ignored) .empty "properties"
      csdl := ← v.optional? Json.string? "csdl" }
  | _ => none

def toJson (c : Config) : Json :=
  .object <|
    [("filter", c.options.toJson), ("functions", c.catalog.toJson),
      ("properties", c.columns.toJson)] ++
    Json.optionalField "csdl" (c.csdl.map .string)

/-- The first fault of a configuration. -/
def fault? (c : Config) : Option ConfigFault :=
  if !Geodesy.isSupported c.options.sourceSrid then some (.unsupportedSystem c.options.sourceSrid)
  else if c.options.maxLength = 0 then some .zeroLength
  else if c.catalog.functions.any fun f => isBlankText f.name || isBlankText f.template then
    some .incompleteFunction
  else if c.columns.columns.any fun p => isBlankText p.path || isBlankText p.query then
    some .incompleteColumn
  else none

end Config

end FilterSql
