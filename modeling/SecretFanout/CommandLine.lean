import SecretFanout.Controller.Settings
import SecretFanout.Copier.Schema
import SecretFanout.Json.Yaml

/-!
# Commands

What the commands print and how they end.

* `printDefinition` prints the document that makes copiers known to a cluster.
* `loadSettings` takes the settings from the environment or says what is wrong with it.
-/

namespace SecretFanout

/-- How a command ends. -/
structure CommandResult where
  /-- The code that it ends with. -/
  exitCode : Nat
  /-- What it prints. -/
  stdout : String := ""
  /-- What it complains about. -/
  stderr : String := ""
  deriving DecidableEq

/-- Prints the document that makes copiers known to a cluster. -/
def printDefinition : CommandResult := { exitCode := 0, stdout := Copier.definition.yaml }

/-- An error and its cause in the form of a complaint. -/
def SettingsError.complaint (e : SettingsError) : String :=
  "Error: " ++ e.message ++ "\n\nCaused by:\n    " ++ e.cause.message ++ "\n"

/-- The settings in an environment, or the end of the command. -/
def loadSettings (lookup : String → Option String) : Except CommandResult Settings :=
  match Settings.ofEnvironment lookup with
  | .ok settings => .ok settings
  | .error e => .error { exitCode := 1, stderr := e.complaint }

end SecretFanout
