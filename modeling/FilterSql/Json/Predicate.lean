import FilterSql.Json.Value
import FilterSql.Sql.Compiler

/-!
# Predicates in JSON

A condition with the values of its parameters, in the order of the parameter table.
-/

namespace FilterSql.Sql

def Value.toJson : Value → Json
  | .int n => .integer n
  | .double x => .decimal x
  | .bool b => .bool b
  | .dateTime t => .string t.dataText
  | .string s => .string s

def parametersJson (t : Table String Value) : Json :=
  .object (t.entries.map fun (name, value) => (name, value.toJson))

def Predicate.toJson (p : Predicate) : Json :=
  .object [("sql", p.sql.elim .null .string), ("parameters", parametersJson p.parameters)]

end FilterSql.Sql
