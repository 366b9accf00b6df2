import SecretFanout.Duration

/-!
# Settings

What the controller takes from its environment: how long it waits after an error, and
whether it waits at its start until the cluster knows copiers. An unset variable leaves
the default; of the two only the delay can be wrong.

* `Settings.ofEnvironment` reads both, given how to look a variable up.
* `SetsErrorDelay`: which delay an environment sets; any number of 64 bits is accepted.
* `SettingsError.message`, `SettingsError.messageWithCause` are the two ways to report a
  delay that is no number.
-/

namespace SecretFanout

/-- What the controller is told at its start. -/
structure Settings where
  /-- The time to the next attempt after an error. -/
  errorDelay : Duration := .ofSeconds 60
  /-- Whether to wait until the cluster knows copiers. -/
  awaitKind : Bool := true
  deriving DecidableEq

namespace Settings

/-- The variable with the delay after an error, in seconds. -/
def errorDelayVariable : String := "ERROR_REQUEUE_SECS"

/-- The variable that says whether to wait until the cluster knows copiers. -/
def awaitKindVariable : String := "WAIT_FOR_CRD"

/-- Delays in seconds are numbers of 64 bits. -/
def errorDelayBound : Nat := Nat.pow 2 64

end Settings

/-- A delay that is no number. -/
structure SettingsError where
  /-- The value as it was found. -/
  value : String
  /-- What is wrong with it. -/
  cause : Text.NumeralError
  deriving DecidableEq

namespace SettingsError

/-- What is wrong, in words. -/
def message (e : SettingsError) : String :=
  Settings.errorDelayVariable ++ " is not a number: " ++ e.value

/-- What is wrong and why, in words. -/
def messageWithCause (e : SettingsError) : String := e.message ++ ": " ++ e.cause.message

end SettingsError

namespace Settings

/-- Reads a delay in seconds, with blanks around it. -/
def readErrorDelay (value : String) : Except SettingsError Duration :=
  match Text.readBelow errorDelayBound (Text.trim value.toList) with
  | .ok seconds => .ok (.ofSeconds seconds)
  | .error cause => .error { value, cause }

/-- Reads a truth value, with blanks around it. -/
def readFlag? (value : String) : Option Bool :=
  match String.ofList (Text.trim value.toList) with
  | "true" => some true
  | "false" => some false
  | _ => none

/-- The settings in an environment. -/
def ofEnvironment (lookup : String → Option String) : Except SettingsError Settings :=
  let defaults : Settings := {}
  let awaitKind := ((lookup awaitKindVariable).bind readFlag?).getD defaults.awaitKind
  match lookup errorDelayVariable with
  | none => .ok { defaults with awaitKind }
  | some value =>
    match readErrorDelay value with
    | .ok errorDelay => .ok { errorDelay, awaitKind }
    | .error e => .error e

/-! ## Laws -/

/-- Whether an environment sets so many seconds as the delay after errors: a number in the
variable, with blanks around it, or a minute if there is no variable. -/
def SetsErrorDelay (lookup : String → Option String) (seconds : Nat) : Prop :=
  match lookup errorDelayVariable with
  | none => seconds = 60
  | some value => Text.IsNumeral (Text.trim value.toList) seconds

/-- The delay after errors is the one that is set, which may be any number of 64 bits. -/
theorem exists_errorDelay {lookup : String → Option String} {settings : Settings}
    (h : ofEnvironment lookup = .ok settings) :
    ∃ seconds, SetsErrorDelay lookup seconds ∧ seconds < errorDelayBound ∧
      settings.errorDelay = .ofSeconds seconds := by
  rw [ofEnvironment] at h
  unfold SetsErrorDelay
  cases hvalue : lookup errorDelayVariable with
  | none =>
    simp only [hvalue] at h
    obtain rfl := Except.ok.inj h
    exact ⟨60, rfl, by decide, rfl⟩
  | some value =>
    simp only [hvalue, readErrorDelay] at h
    cases hread : Text.readBelow errorDelayBound (Text.trim value.toList) with
    | error cause => simp [hread] at h
    | ok seconds =>
      simp only [hread] at h
      obtain rfl := Except.ok.inj h
      obtain ⟨hnumeral, hbound⟩ := Text.readBelow_eq_ok_iff.1 hread
      exact ⟨seconds, hnumeral, hbound, rfl⟩

/-- Each number of 64 bits that is set as the delay after errors is accepted. -/
theorem exists_settings {lookup : String → Option String} {seconds : Nat}
    (h : SetsErrorDelay lookup seconds) (hbound : seconds < errorDelayBound) :
    ∃ settings, ofEnvironment lookup = .ok settings ∧
      settings.errorDelay = .ofSeconds seconds := by
  rw [SetsErrorDelay] at h
  rw [ofEnvironment]
  cases hvalue : lookup errorDelayVariable with
  | none =>
    simp only [hvalue] at h
    exact ⟨_, rfl, by rw [h]⟩
  | some value =>
    simp only [hvalue] at h
    have hread := Text.readBelow_eq_ok_iff.2 ⟨h, hbound⟩
    simp only [readErrorDelay, hread]
    exact ⟨_, rfl, rfl⟩

end Settings

end SecretFanout
