import FilterSql.Decimal.Reader

/-!
# Command-line arguments

Arguments are read from left to right on two levels: the options of the program, then a command with
the options of that command. A level is described by a table of options. An option is written
`--name value`, `--name=value`, `-n value`, `-nvalue` or `-n=value`; letters without a value may be
put together. After `--` every argument stands for itself.

The first argument that is wrong decides, and so does a request for help or for the version.
-/

namespace FilterSql.Cli

/-- What an option is about. -/
inductive Setting
  | config
  | csdl
  | parameterSign
  | sourceSrid
  | printConfig
  | verbose
  | logFormat
  | entitySet
  | entityType
  | kind
  | mapping
  | help
  | version
deriving Repr, DecidableEq

/-- The values that an option takes. -/
inductive ValueForm
  /-- No value, and given once. -/
  | flag
  /-- No value, and given any number of times. -/
  | counter
  /-- Any text but the empty one. -/
  | path
  | text
  | character
  | int32
  | choice (names : List String)
deriving Repr, DecidableEq

def ValueForm.takesValue : ValueForm → Bool
  | .flag | .counter => false
  | _ => true

def ValueForm.accepts : ValueForm → String → Bool
  | .path, v => !v.isEmpty
  | .character, v => v.length == 1
  | .int32, v => (Decimal.readInt32? v.toList).isSome
  | .choice names, v => names.contains v
  | _, _ => true

structure OptionSpec where
  setting : Setting
  short : Option Char := none
  long : String
  form : ValueForm
  /-- What the option is for. -/
  about : String := ""
deriving Repr, DecidableEq

inductive CommandName
  | compile
  | check
  | schema
deriving Repr, DecidableEq

/-- The options and arguments of the program or of a command. -/
structure LevelSpec where
  /-- No name for the program itself. -/
  name : Option CommandName
  /-- In the order in which they are listed. -/
  options : List OptionSpec
  /-- The arguments that are no options, each with what it is for. -/
  operands : List (String × String) := []
  commands : List String := []
deriving Repr, DecidableEq

/-- Why arguments are not an invocation. -/
inductive Stop
  | misuse
  /-- Help on the program or on a command is asked for. -/
  | help (command : Option CommandName)
  | version
deriving Repr, DecidableEq

/-- What was read of a level. -/
structure Level where
  given : List (Setting × String) := []
  operands : List String := []
  /-- The option whose value comes next. -/
  pending : Option OptionSpec := none
  /-- After `--`. -/
  plain : Bool := false
deriving Repr, DecidableEq

namespace Level

/-- Takes an option with its value. Only a counter may be repeated. -/
def accept (spec : LevelSpec) (l : Level) (o : OptionSpec) (value : String) : Except Stop Level :=
  if !o.form.accepts value then .error .misuse
  else if o.form ≠ .counter ∧ (l.given.lookup o.setting).isSome then .error .misuse
  else
    match o.setting with
    | .help => .error (.help spec.name)
    | .version => .error .version
    | setting => .ok { l with given := l.given ++ [(setting, value)], pending := none }

/-- Takes an argument that is no option. -/
def operand (spec : LevelSpec) (l : Level) (arg : String) : Except Stop Level :=
  if l.operands.length < spec.operands.length then .ok { l with operands := l.operands ++ [arg] }
  else .error .misuse

/-- Takes an option by its long name. -/
def long (spec : LevelSpec) (l : Level) (cs : List Char) : Except Stop Level :=
  let name := String.ofList (cs.takeWhile (· != '='))
  match spec.options.find? (·.long == name), cs.dropWhile (· != '=') with
  | none, _ => .error .misuse
  | some o, [] => if o.form.takesValue then .ok { l with pending := some o } else l.accept spec o ""
  | some o, _ :: value =>
    if o.form.takesValue then l.accept spec o (String.ofList value) else .error .misuse

/-- Takes options by their letters. What follows the letter of an option with a value is the value. -/
def letters (spec : LevelSpec) (l : Level) : List Char → Except Stop Level
  | [] => .ok l
  | c :: cs =>
    match spec.options.find? (·.short == some c) with
    | none => .error .misuse
    | some o =>
      if o.form.takesValue then
        match cs with
        | [] => .ok { l with pending := some o }
        | '=' :: value => l.accept spec o (String.ofList value)
        | value => l.accept spec o (String.ofList value)
      else do
        let l ← l.accept spec o ""
        l.letters spec cs

/-- Takes one argument. -/
def argument (spec : LevelSpec) (l : Level) (arg : String) : Except Stop Level :=
  if l.plain then l.operand spec arg
  else
    match arg.toList, l.pending with
    | '-' :: _ :: _, some _ => .error .misuse
    | _, some o => l.accept spec o arg
    | ['-', '-'], none => .ok { l with plain := true }
    | '-' :: '-' :: cs, none => l.long spec cs
    | '-' :: c :: cs, none => l.letters spec (c :: cs)
    | _, none => l.operand spec arg

/-- Whether an argument names a command at this place. -/
def startsCommand (spec : LevelSpec) (l : Level) (arg : String) : Bool :=
  !l.plain && l.pending.isNone && spec.commands.contains arg

/-- Reads a level, up to a command with the arguments that follow it. -/
def read (spec : LevelSpec) (l : Level) :
    List String → Except Stop (Level × Option (String × List String))
  | [] => if l.pending.isSome then .error .misuse else .ok (l, none)
  | arg :: rest =>
    if l.startsCommand spec arg then .ok (l, some (arg, rest))
    else do
      let l ← l.argument spec arg
      l.read spec rest

end Level

end FilterSql.Cli
