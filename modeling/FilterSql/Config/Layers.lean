import FilterSql.Config.Basic
import FilterSql.Config.Variable
import FilterSql.Text.Split

/-!
# Layers of a configuration

A configuration is put together from layers, each over the ones before it: the defaults, a file, and
environment variables. Fields of objects are put together one by one; every other value takes the
place of the one below it.
-/

namespace FilterSql

open Text

namespace Json

/-- Sets the value of a field, in place if there is one. -/
def setField (name : String) (v : Json) : List (String × Json) → List (String × Json)
  | [] => [(name, v)]
  | (other, w) :: rest => if other = name then (name, v) :: rest else (other, w) :: setField name v rest

mutual

/-- The second value laid over the first. -/
def merge (base : Json) : Json → Json
  | .object fields =>
    match base with
    | .object old => .object (mergeFields old fields)
    | _ => .object fields
  | v => v

def mergeFields (old : List (String × Json)) : List (String × Json) → List (String × Json)
  | [] => old
  | (name, v) :: rest =>
    let merged := match old.lookup name with
      | some below => merge below v
      | none => v
    mergeFields (setField name merged old) rest

end

mutual

/-- The value with fields of different names: of several with one name, the last one counts. -/
def distinct : Json → Json
  | .array items => .array (distinctItems items)
  | .object fields => .object (distinctFields fields)
  | v => v

def distinctItems : List Json → List Json
  | [] => []
  | v :: vs => v.distinct :: distinctItems vs

def distinctFields : List (String × Json) → List (String × Json)
  | [] => []
  | (name, v) :: rest =>
    let others := distinctFields rest
    if others.any (·.1 == name) then others else (name, v.distinct) :: others

end

/-- An object with one field at the end of a path; the value itself for an empty path. -/
def nested : List String → Json → Json
  | [], v => v
  | name :: path, v => .object [(name, nested path v)]

end Json

namespace Config

/-- What the names of the environment variables start with that belong to the configuration. -/
def variableStart : String := "ODATA_FILTER__"

/-- The path that the name of a variable stands for: the parts between double underscores in small
letters. A path with an empty part stands for nothing. -/
def pathOfVariable? (name : String) : Option (List String) := do
  let key ← dropName? variableStart.toList (trim name).toList
  let key := trim (String.ofList key)
  let path := segments '.' (replace "__" "." (foldCase key))
  if path.any (·.isEmpty) then none else some path

/-- The layer of the environment variables, later ones over earlier ones. There is none if the text of
one of them is torn. -/
def ofVariables? (settings : List (String × String)) : Option Json :=
  settings.foldlM (fun layer (name, text) =>
    match pathOfVariable? name with
    | some path => (Variable.read? text).map fun v => layer.merge (Json.nested path v.distinct)
    | none => some layer) (.object [])

def isObject : Json → Bool
  | .object _ => true
  | _ => false

/-- The configuration of layers over the defaults. A layer that is no object, or that gives a part
another form, does not fit. -/
def ofLayers? (layers : List Json) : Option Config :=
  if layers.all isObject then ofJson? (layers.foldl Json.merge (toJson {})) else none

/-- The variables that have an effect on a configuration. -/
def variableNames : List String :=
  ["CSDL", "FILTER", "FILTER__MAX_FILTER_LENGTH", "FILTER__PARAMETER_PREFIX", "FILTER__SOURCE_SRID",
    "FUNCTIONS", "PROPERTIES"].map (variableStart ++ ·)

end Config

end FilterSql
