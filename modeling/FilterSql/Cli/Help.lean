import FilterSql.Cli.Invocation

/-!
# Help on the command line
-/

namespace FilterSql.Cli

def programName : String := "odata-filter"

def versionText : String := programName ++ " 0.2.8\n"

/-- What a command is for, or the program. -/
def aboutLevel : Option CommandName → String
  | none => "Compile OData $filter expressions to parameterized SQL"
  | some .compile => "Compile a filter and print SQL plus parameters as JSON"
  | some .check => "Validate configuration (and the CSDL document, if any) and exit"
  | some .schema => "List the primitive property paths of an entity type"

/-- The name of the value of an option: its own name in capitals, with underscores. -/
def OptionSpec.valueName (o : OptionSpec) : String :=
  String.ofList (o.long.toList.map fun c => if c == '-' then '_' else c.toUpper)

/-- An option as it is written. -/
def OptionSpec.usage (o : OptionSpec) : String :=
  "--" ++ o.long ++
    if o.form.takesValue then " <" ++ o.valueName ++ ">"
    else if o.form = .counter then "..."
    else ""

/-- The lines on an option: how it is written, and below it what it is for. -/
def OptionSpec.helpLines (o : OptionSpec) : List String :=
  let letter := match o.short with
    | some c => "  -" ++ String.singleton c ++ ", "
    | none => "      "
  (letter ++ o.usage) :: if o.about.isEmpty then [] else ["          " ++ o.about]

/-- The options that a command cannot do without. -/
def requiredOptions : Option CommandName → List OptionSpec
  | some .compile => [.entitySet]
  | some .schema => [.entityType]
  | _ => []

def usageLine (level : LevelSpec) : String :=
  let words := [programName] ++ (level.name.map (·.text)).toList ++ ["[OPTIONS]"] ++
    (requiredOptions level.name).map (·.usage) ++
    level.operands.map (fun (name, _) => "<" ++ name ++ ">") ++
    if level.commands.isEmpty then [] else ["[COMMAND]"]
  "Usage: " ++ " ".intercalate words

/-- A titled part of the help; nothing if it has no lines. -/
def helpSection (title : String) (lines : List String) : List String :=
  if lines.isEmpty then [] else ["", title ++ ":"] ++ lines

/-- The lines on the commands of a level, with what they are for in one column. -/
def commandLines (level : LevelSpec) : List String :=
  level.commands.map fun name =>
    let about := match CommandName.ofText? name with
      | some command => aboutLevel (some command)
      | none => "Print this message or the help of the given subcommand(s)"
    "  " ++ name ++ String.ofList (List.replicate (9 - name.length) ' ') ++ about

def helpText (command : Option CommandName) : String :=
  let level := command.elim .program LevelSpec.ofCommand
  let lines := [aboutLevel command, "", usageLine level] ++
    helpSection "Commands" (commandLines level) ++
    helpSection "Arguments" (level.operands.map fun (name, about) => "  <" ++ name ++ ">  " ++ about) ++
    helpSection "Options" (level.options.flatMap (·.helpLines))
  String.join (lines.map (· ++ "\n"))

end FilterSql.Cli
