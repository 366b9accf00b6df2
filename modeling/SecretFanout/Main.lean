import SecretFanout.CommandLine

/-!
# The program

With the argument `definition` it prints the document that makes copiers known to a
cluster. Without arguments it looks at the settings in its environment and complains if
they are wrong.
-/

namespace SecretFanout.Main

/-- The variables of the environment that matter. -/
def readVariables : IO (String → Option String) := do
  let errorDelay ← IO.getEnv Settings.errorDelayVariable
  let awaitKind ← IO.getEnv Settings.awaitKindVariable
  return fun name =>
    if name = Settings.errorDelayVariable then errorDelay
    else if name = Settings.awaitKindVariable then awaitKind
    else none

/-- Prints what a command has to say. -/
def finish (r : CommandResult) : IO UInt32 := do
  IO.print r.stdout
  IO.eprint r.stderr
  return r.exitCode.toUInt32

end SecretFanout.Main

open SecretFanout Main in
/-- Runs a command. -/
def main (args : List String) : IO UInt32 := do
  if args = ["definition"] then finish printDefinition
  else
    match loadSettings (← readVariables) with
    | .ok _ => return 0
    | .error r => finish r
