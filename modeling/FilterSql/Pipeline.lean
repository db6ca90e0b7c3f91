import FilterSql.Filter.FunctionNames
import FilterSql.Sql.Compiler
import FilterSql.Validation

/-!
# From filter text to SQL

The stages of a filter: the limit on its length, function names in small letters, reading, checking
against the schema, and compiling. The first stage that fails decides.
-/

namespace FilterSql

open Text FilterSql.Filter Catalog Sql

inductive FilterError
  | tooLong (length max : Nat)
  | unreadable (cause : SyntaxError)
  | invalid (cause : ValidationError)
  | notCompiled (cause : CompileError)
deriving Repr, DecidableEq

def FilterError.message : FilterError → String
  | .tooLong length max =>
    s!"Filter expression is too long ({length} characters, maximum {max})."
  | .unreadable cause => cause.message
  | .invalid cause => cause.message
  | .notCompiled cause => cause.message

/-- Compiles a filter text without checking it against a schema. -/
def Sql.Compiler.compileText (c : Compiler) (text : String) : Except FilterError Predicate :=
  let body := dropFilterName text
  if isBlankText body then .ok .empty
  else do
    let e ← (Expr.parse body).mapError .unreadable
    (c.compile e).mapError .notCompiled

structure Pipeline where
  schema : Schema.Model
  catalog : FunctionCatalog
  columns : ColumnMap
  options : Options

namespace Pipeline

/-- Names together with those of `more` that differ from them all in more than ASCII case. -/
def addNames (names : List String) (more : List String) : List String :=
  more.foldl (fun names name => if names.any (sameName · name) then names else names ++ [name]) names

/-- The functions whose names are lower-cased: the standard ones and those of the catalog. -/
def knownFunctions (p : Pipeline) : List String := addNames standardFunctions p.catalog.names

def validator (p : Pipeline) : Validator := ⟨p.schema, p.catalog⟩

def compiler (p : Pipeline) : Compiler := ⟨p.columns, p.catalog, p.options⟩

/-- Compiles a filter on an entity set. A blank filter has no condition. -/
def process (p : Pipeline) (text entitySet : String) : Except FilterError Predicate :=
  let body := trim (dropFilterName text)
  if body.isEmpty then .ok .empty
  else if body.length > p.options.maxLength then .error (.tooLong body.length p.options.maxLength)
  else do
    let e ← (Expr.parse (lowerFunctionNames p.knownFunctions body)).mapError .unreadable
    (p.validator.validate e entitySet).mapError .invalid
    (p.compiler.compile e).mapError .notCompiled

end Pipeline

end FilterSql
