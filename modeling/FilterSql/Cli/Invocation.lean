import FilterSql.Cli.Argument

/-!
# Invocations

The options of the program and of its commands, and what a list of arguments asks for. Most options of
the program may also be given to a command, where they have precedence.
-/

namespace FilterSql.Cli

namespace OptionSpec

def config : OptionSpec where
  setting := .config
  short := some 'c'
  long := "config"
  form := .path
  about := "YAML configuration (filter options, function catalog, property map)"

def csdl : OptionSpec where
  setting := .csdl
  long := "csdl"
  form := .path
  about := "CSDL document describing the entity model"

def parameterSign : OptionSpec where
  setting := .parameterSign
  long := "parameter-prefix"
  form := .character
  about := "Prefix for bound parameter names (overrides config)"

def sourceSrid : OptionSpec where
  setting := .sourceSrid
  long := "source-srid"
  form := .int32
  about := "SRID of spatial literals in filters (overrides config)"

def printConfig : OptionSpec where
  setting := .printConfig
  long := "print-config"
  form := .flag
  about := "Print effective configuration (YAML) and exit"

def verbose : OptionSpec where
  setting := .verbose
  short := some 'v'
  long := "verbose"
  form := .counter
  about := "Log verbosity level (-v info, -vv debug, -vvv trace)"

def logFormat : OptionSpec where
  setting := .logFormat
  long := "log-format"
  form := .choice ["text", "json"]
  about := "[default: text] [possible values: text, json]"

def help : OptionSpec where
  setting := .help
  short := some 'h'
  long := "help"
  form := .flag
  about := "Print help"

def version : OptionSpec where
  setting := .version
  short := some 'V'
  long := "version"
  form := .flag
  about := "Print version"

def entitySet : OptionSpec where
  setting := .entitySet
  short := some 'e'
  long := "entity-set"
  form := .text
  about := "Entity set the filter applies to"

def entityType : OptionSpec where
  setting := .entityType
  short := some 't'
  long := "entity-type"
  form := .text

def kind : OptionSpec where
  setting := .kind
  long := "kind"
  form := .text
  about := "Only list properties of this EDM type"

def mapping : OptionSpec where
  setting := .mapping
  long := "mapping"
  form := .flag
  about := "Print a property map skeleton (YAML) instead of a listing"

end OptionSpec

def CommandName.all : List CommandName := [.compile, .check, .schema]

def CommandName.text : CommandName → String
  | .compile => "compile"
  | .check => "check"
  | .schema => "schema"

def CommandName.ofText? (text : String) : Option CommandName := all.find? (·.text == text)

namespace LevelSpec

open OptionSpec

/-- The level of the program, whose commands include help on the others. -/
def program : LevelSpec where
  name := none
  options :=
    [config, csdl, parameterSign, sourceSrid, printConfig, verbose, logFormat, help, version]
  commands := CommandName.all.map (·.text) ++ ["help"]

def ofCommand : CommandName → LevelSpec
  | .compile =>
    { name := some .compile
      options := [config, entitySet, csdl, parameterSign, sourceSrid, verbose, logFormat, help]
      operands := [("FILTER", "The filter, with or without a leading `$filter=`")] }
  | .check =>
    { name := some .check
      options := [config, csdl, parameterSign, sourceSrid, verbose, logFormat, help] }
  | .schema =>
    { name := some .schema
      options :=
        [config, entityType, csdl, kind, mapping, parameterSign, sourceSrid, verbose, logFormat,
          help] }

end LevelSpec

inductive Command
  | compile (entitySet filter : String)
  | check
  | schema (entityType : String) (kind : Option String) (mapping : Bool)
deriving Repr, DecidableEq

/-- What the program is asked to do, with the settings that take precedence over a configuration. -/
structure Invocation where
  config : Option String
  csdl : Option String
  sigil : Option Char
  sourceSrid : Option Int
  printConfig : Bool
  command : Command
deriving Repr, DecidableEq

namespace Invocation

/-- The invocation of a command with settings, the first of which count. -/
def of (given : List (Setting × String)) (command : Command) : Invocation where
  config := given.lookup .config
  csdl := given.lookup .csdl
  sigil := (given.lookup .parameterSign).bind (·.toList.head?)
  sourceSrid := (given.lookup .sourceSrid).bind (Decimal.readInt32? ·.toList)
  printConfig := (given.lookup .printConfig).isSome
  command := command

/-- The command that a level gives all that is required. -/
def command? (name : CommandName) (l : Level) : Option Command :=
  match name, l.operands with
  | .compile, [filter] => (l.given.lookup .entitySet).map (.compile · filter)
  | .compile, _ => none
  | .check, _ => some .check
  | .schema, _ =>
    (l.given.lookup .entityType).map
      (.schema · (l.given.lookup .kind) (l.given.lookup .mapping).isSome)

/-- The command that help is asked for by name. -/
def helpOn : List String → Stop
  | [] => .help none
  | [name] => ((CommandName.ofText? name).map fun c => .help (some c)).getD .misuse
  | _ => .misuse

/-- The invocation that arguments stand for. Without a command the configuration is checked. -/
def ofArguments (args : List String) : Except Stop Invocation := do
  match ← ({} : Level).read .program args with
  | (program, none) => return of program.given .check
  | (program, some (name, rest)) =>
    match CommandName.ofText? name with
    | none => .error (helpOn rest)
    | some name =>
      let (level, _) ← ({} : Level).read (.ofCommand name) rest
      match command? name level with
      | some command => return of (level.given ++ program.given) command
      | none => .error .misuse

end Invocation

end FilterSql.Cli
