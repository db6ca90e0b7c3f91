import FilterSql.Cli.Help
import FilterSql.Config.Layers
import FilterSql.Csdl.Reader
import FilterSql.Json.Predicate
import FilterSql.Pipeline
import FilterSql.Yaml.Block
import FilterSql.Yaml.Flow

/-!
# Running the program

What an invocation prints, or why it fails. Files are read through a function that is given, so the
program does not depend on where they are.
-/

namespace FilterSql.Cli

/-- Why an invocation fails. -/
inductive Failure
  | noConfigFile (path : String)
  /-- A layer of the configuration does not fit. -/
  | misfit
  /-- The text of an environment variable is torn. -/
  | tornVariable
  | noDocument
  | unreadableDocument (path : String)
  | invalidDocument (path : String)
  | faultyConfig (fault : ConfigFault)
  | danglingSets (names : List String)
  | unknownEntityType (name : String)
  | filter (error : FilterError)
deriving Repr, DecidableEq

def Failure.message : Failure → String
  | .noConfigFile path => "config file does not exist: " ++ path
  | .misfit => "invalid configuration"
  | .tornVariable => "an environment variable is cut inside a character"
  | .noDocument => "no CSDL document given (use --csdl or set `csdl` in the config)"
  | .unreadableDocument path => "failed to read CSDL document " ++ path
  | .invalidDocument path => "failed to load CSDL document " ++ path
  | .faultyConfig fault => fault.message
  | .danglingSets names =>
    "entity sets reference undeclared entity types: " ++ ", ".intercalate names
  | .unknownEntityType name => s!"EntityType '{name}' not found in the CSDL model."
  | .filter error => error.message

/-- The exit code of a program that fails. That of a torn text is the one of an abort. -/
def Failure.exitCode : Failure → UInt32
  | .tornVariable => 101
  | _ => 1

/-- Something that is printed: a text as it is, or a value as a block of lines. -/
inductive Output
  | text (s : String)
  | value (v : Json)

def Output.render : Output → String
  | .text s => s
  | .value v => Yaml.blockText v

inductive Outcome
  | done (output : List Output)
  | failed (failure : Failure)
  | misused

def Outcome.exitCode : Outcome → UInt32
  | .done _ => 0
  | .failed failure => failure.exitCode
  | .misused => 2

/-- The surroundings of a run: the files and the environment variables. -/
structure World (m : Type → Type) where
  /-- The text of a file, if there is one. -/
  file? : String → m (Option String)
  /-- The environment variables with their texts. -/
  settings : List (String × String)

variable {m : Type → Type} [Monad m]

/-- The layers of a configuration over its defaults. -/
def World.config (w : World m) (path : Option String) : ExceptT Failure m Config := do
  let file ← match path with
    | none => pure none
    | some path =>
      match ← w.file? path with
      | none => throw (.noConfigFile path)
      | some text => pure (some text)
  let some settings := Config.ofVariables? w.settings | throw .tornVariable
  let some layers := file.toList.mapM Yaml.read? | throw .misfit
  let some config := Config.ofLayers? (layers.map Json.distinct ++ [settings]) | throw .misfit
  return config

/-- The configuration with the settings of an invocation over it. -/
def Invocation.adjust (i : Invocation) (c : Config) : Config :=
  { c with
    options := { c.options with
      sigil := i.sigil.getD c.options.sigil
      sourceSrid := i.sourceSrid.getD c.options.sourceSrid }
    csdl := i.csdl <|> c.csdl }

/-- The schema of the document of a configuration. -/
def World.schema (w : World m) (c : Config) : ExceptT Failure m Schema.Model := do
  match c.csdl with
  | none => throw .noDocument
  | some path =>
    match ← w.file? path with
    | none => throw (.unreadableDocument path)
    | some text =>
      match Csdl.read text with
      | .ok model => return model
      | .error _ => throw (.invalidDocument path)

/-- Compiles a filter and prints the predicate. -/
def compile (schema : Schema.Model) (c : Config) (entitySet filter : String) :
    Except Failure (List Output) := do
  let pipeline : Pipeline := ⟨schema, c.catalog, c.columns, c.options⟩
  let predicate ← (pipeline.process filter entitySet).mapError .filter
  return [.text (predicate.toJson.pretty 0 ++ "\n")]

/-- The names of the entity sets whose entity type is not declared. -/
def danglingSets (schema : Schema.Model) : List String :=
  (schema.containers.flatMap (·.entitySets)).filterMap fun set =>
    if (schema.entityType? set.entityType).isNone then some set.name else none

/-- Lists the leaves of an entity type, or prints the columns they would have. -/
def listing (schema : Schema.Model) (entityType : String) (kind : Option String) (mapping : Bool) :
    Except Failure (List Output) :=
  if (schema.entityType? entityType).isNone then .error (.unknownEntityType entityType)
  else
    let leaves := schema.leaves entityType (kind.map .ofTypeName)
    if mapping then .ok [.value (Catalog.ColumnMap.ofLeaves leaves).toJson]
    else .ok [.text (String.join (leaves.map fun l => l.path ++ "\t" ++ l.typeName ++ "\n"))]

/-- Checks a configuration, and its schema document if it has one. -/
def World.check (w : World m) (c : Config) : ExceptT Failure m (List Output) := do
  if let some fault := c.fault? then throw (.faultyConfig fault)
  if c.csdl.isSome then
    let dangling := danglingSets (← w.schema c)
    if !dangling.isEmpty then throw (.danglingSets dangling)
  return [.text "Configuration is valid\n", .value c.toJson]

/-- Does what is asked. Printing the configuration has precedence over the command. -/
def Invocation.run (i : Invocation) (w : World m) : ExceptT Failure m (List Output) := do
  let config := i.adjust (← w.config i.config)
  if i.printConfig then return [.value config.toJson]
  match i.command with
  | .compile entitySet filter => compile (← w.schema config) config entitySet filter
  | .check => w.check config
  | .schema entityType kind mapping => listing (← w.schema config) entityType kind mapping

/-- The outcome of the program for its arguments. -/
def run (w : World m) (args : List String) : m Outcome := do
  match Invocation.ofArguments args with
  | .error .misuse => return .misused
  | .error .version => return .done [.text versionText]
  | .error (.help command) => return .done [.text (helpText command)]
  | .ok invocation =>
    match ← (invocation.run w).run with
    | .ok output => return .done output
    | .error failure => return .failed failure

end FilterSql.Cli
