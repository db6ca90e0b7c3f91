import FilterSql.Cli.Run

/-!
# Command line

Compiles filters, checks configurations and lists the leaves of entity types.
-/

namespace FilterSql

/-- The files and variables of the process. -/
def processWorld : IO (Cli.World IO) := do
  let settings ← Config.variableNames.filterMapM fun name => do
    return (← IO.getEnv name).map fun text => (name, text)
  return { file? := fun path => (some <$> IO.FS.readFile path) <|> pure none, settings }

end FilterSql

def main (args : List String) : IO UInt32 := do
  let outcome ← FilterSql.Cli.run (← FilterSql.processWorld) args
  match outcome with
  | .done output => output.forM fun o => IO.print o.render
  | .failed failure => IO.eprintln ("Error: " ++ failure.message)
  | .misused =>
    IO.eprintln "error: the arguments are not understood\n\nFor more information, try '--help'."
  return outcome.exitCode
