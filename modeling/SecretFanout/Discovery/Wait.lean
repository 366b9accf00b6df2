import SecretFanout.Discovery.Group

/-!
# Waiting for the copier kind

The cluster is asked again and again whether it serves copiers, with pauses that double up
to a limit. An answer that could not be had is like one that says no.

* `pause_eq`: the pause after the `k`-th question is `10 * 2 ^ k` seconds, 60 at most.
* `awaitCopiers` asks until the answer is yes or the time is up.
-/

namespace SecretFanout

/-! ## Pauses -/

/-- The first pause in seconds. -/
def firstPause : Nat := 10

/-- The longest pause in seconds. -/
def longestPause : Nat := 60

/-- The pause after a question, counted from 0, in seconds. -/
def pause : Nat → Nat
  | 0 => firstPause
  | k + 1 => min (pause k * 2) longestPause

theorem pause_eq (k : Nat) : pause k = min (firstPause * Nat.pow 2 k) longestPause := by
  rw [Nat.pow_eq]
  induction k with
  | zero => rfl
  | succ k ih =>
    rw [pause, ih, Nat.pow_succ]
    simp only [firstPause, longestPause]
    omega

theorem pause_pos (k : Nat) : 0 < pause k := by
  have h : 0 < 2 ^ k := Nat.two_pow_pos k
  rw [pause_eq, Nat.pow_eq]
  simp only [firstPause, longestPause]
  omega

/-! ## Questions -/

/-- Whether an answer says that copiers are served. -/
def saysAvailable {ε : Type} : Except ε (List ServedGroup) → Bool
  | .ok groups => servesCopiers groups
  | .error _ => false

/-- How a wait ended. -/
structure WaitReport where
  /-- Whether copiers are served. -/
  available : Bool
  /-- The seconds that have passed. -/
  elapsed : Nat
  /-- The number of questions asked. -/
  polls : Nat
  deriving DecidableEq

/-- Goes on asking after `k` questions and so many seconds, until the answer is yes or the
time is up. -/
def awaitFrom {σ ε : Type} (ask : σ → Except ε (List ServedGroup) × σ) (limit k elapsed : Nat)
    (s : σ) : WaitReport × σ :=
  if elapsed < limit then
    let (answer, s) := ask s
    if saysAvailable answer then ({ available := true, elapsed, polls := k + 1 }, s)
    else awaitFrom ask limit (k + 1) (elapsed + pause k) s
  else ({ available := false, elapsed := limit, polls := k }, s)
termination_by limit - elapsed
decreasing_by
  have := pause_pos k
  omega

/-- Asks until the answer is yes or the time is up. -/
def awaitCopiers {σ ε : Type} (ask : σ → Except ε (List ServedGroup) × σ) (limit : Nat) (s : σ) :
    WaitReport × σ :=
  awaitFrom ask limit 0 0 s

end SecretFanout
