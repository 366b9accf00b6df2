import SecretFanout.Controller.Settings
import SecretFanout.Proofs.Footprint
import SecretFanout.Proofs.Retry
import SecretFanout.Proofs.WholeSeconds

/-!
# How far ahead passes are planned

A controller plans the next attempt at a copier for the end of its period or, after an error, for
the end of the delay that its environment sets. A period longer than a year is refused before it
gets there; the delay after errors is only looked at as a number.

* `nextPassDelay_bounds` — a period that asks for a pass is above zero and a year at most.
* `Settings.following` — what a controller plans after an attempt, whatever answered its calls.
* `requeues_stay_within_a_year_iff` — nothing is planned beyond a year exactly if the delay after
  errors is a year at most, unless the copier makes no passes at all.
* `error_delay_beyond_a_year_is_planned` — a delay of a year and a second is accepted, and a
  failed listing is followed by a wait as long as that.
-/

namespace SecretFanout

namespace Copier

variable {σ : Type} {c : Copier} {delay : Duration}

/-! ## After a pass -/

/-- The time to the next pass by the clock is the period, which is checked against a year. -/
theorem nextPassDelay_bounds (h : c.nextPassDelay = .ok (some delay)) :
    c.syncPeriod = .ok delay ∧ delay ≠ 0 ∧ delay ≤ .ofSeconds longestPeriod := by
  rw [nextPassDelay] at h
  cases hperiod : c.syncPeriod with
  | error e => simp [hperiod] at h
  | ok period =>
    simp only [hperiod, Except.ok.injEq, Option.ite_none_left_eq_some, Option.some.injEq] at h
    obtain ⟨hzero, rfl⟩ := h
    refine ⟨rfl, hzero, ?_⟩
    rw [syncPeriod] at hperiod
    cases hread : Duration.read c.spec.syncPeriod.toList with
    | error e => simp [hread] at hperiod
    | ok d =>
      simp only [hread] at hperiod
      split at hperiod
      · next hlongest => exact Except.ok.inj hperiod ▸ hlongest
      · cases hperiod

/-- Only the time to the next pass is asked for after a pass. -/
theorem afterPass_eq_ok_requeueAfter {reply : Reply PassSummary}
    (h : c.afterPass reply = .ok (.requeueAfter delay)) : c.nextPassDelay = .ok (some delay) := by
  cases reply with
  | error e => cases h
  | ok summary =>
    rw [afterPass] at h
    cases hnext : c.nextPassDelay with
    | error e => simp [hnext] at h
    | ok next =>
      cases next with
      | none => simp [hnext] at h
      | some d => simpa [hnext] using h

/-- Whatever answers the calls of an attempt: if it succeeds and asks for another one, then by the
period. -/
theorem nextPassDelay_of_reconcile {g : Gateway σ} {s : σ}
    (h : (c.reconcile.run g s).1 = .ok (.requeueAfter delay)) :
    c.nextPassDelay = .ok (some delay) := by
  by_cases hdormant : c.isBeingDeleted = true ∨ c.spec.rules = []
  · rw [reconcile_of_dormant hdormant, Program.run] at h
    cases h
  · rw [reconcile_of_awake hdormant, Program.run] at h
    cases hlist : g.list s with
    | mk reply t =>
      rw [hlist] at h
      cases reply with
      | error e => cases h
      | ok namespaces =>
        simp only [Program.run_bind, Program.run] at h
        exact afterPass_eq_ok_requeueAfter h

end Copier

/-- A cluster that cannot be listed. -/
def Cluster.unlisted : Cluster := { faults := { listing := true } }

/-- It makes every attempt fail that lists namespaces at all. -/
theorem Copier.run_reconcile_unlisted {c : Copier}
    (h : ¬ (c.isBeingDeleted = true ∨ c.spec.rules = [])) :
    (c.reconcile.run Cluster.direct Cluster.unlisted).1 =
      .error (.listing (.store .unreachable)) := by
  rw [reconcile_of_awake h]
  rfl

/-! ## Plans of a controller -/

namespace Settings

variable {settings : Settings} {c : Copier} {seconds limit : Nat}

/-- What follows an attempt at a copier by a controller with these settings. -/
def following (settings : Settings) (c : Copier) {σ : Type} (g : Gateway σ) (s : σ) : Action :=
  Action.afterAttempt settings.errorDelay (c.reconcile.run g s).1

/-- Whatever answers the calls of attempts at a copier, none is planned for later than after so
many seconds. -/
def PlansWithin (settings : Settings) (c : Copier) (seconds : Nat) : Prop :=
  ∀ (σ : Type) (g : Gateway σ) (s : σ) (delay : Duration),
    settings.following c g s = .requeueAfter delay → delay ≤ .ofSeconds seconds

theorem following_of_error {σ : Type} {g : Gateway σ} {s : σ} {e : SyncError}
    (h : (c.reconcile.run g s).1 = .error e) :
    settings.following c g s = .requeueAfter settings.errorDelay := by
  rw [following, h, Action.afterAttempt]

/-- Both sources of delays are within a limit if the delay after errors is. -/
theorem plansWithin_of_le (hset : settings.errorDelay = .ofSeconds seconds)
    (h : seconds ≤ Copier.longestPeriod) : settings.PlansWithin c Copier.longestPeriod := by
  intro σ g s delay hfollowing
  cases hreply : (c.reconcile.run g s).1 with
  | error e =>
    rw [following_of_error hreply, hset] at hfollowing
    exact Action.requeueAfter.inj hfollowing ▸ Duration.ofSeconds_le_iff.2 h
  | ok action =>
    rw [following, hreply, Action.afterAttempt] at hfollowing
    exact (Copier.nextPassDelay_bounds
      (Copier.nextPassDelay_of_reconcile (hfollowing ▸ hreply))).2.2

/-- A copier that makes no passes is never looked at again of itself. -/
theorem plansWithin_of_dormant (h : c.isBeingDeleted = true ∨ c.spec.rules = []) :
    settings.PlansWithin c limit := by
  intro σ g s delay hfollowing
  rw [following, Copier.reconcile_of_dormant h, Program.run, Action.afterAttempt] at hfollowing
  cases hfollowing

/-- For any other copier there is an attempt that fails, so that the delay after errors counts. -/
theorem le_of_plansWithin (hawake : ¬ (c.isBeingDeleted = true ∨ c.spec.rules = []))
    (hset : settings.errorDelay = .ofSeconds seconds) (h : settings.PlansWithin c limit) :
    seconds ≤ limit := by
  have hfailed : settings.following c Cluster.direct Cluster.unlisted =
      .requeueAfter (.ofSeconds seconds) :=
    hset ▸ following_of_error (Copier.run_reconcile_unlisted hawake)
  exact Duration.ofSeconds_le_iff.1 (h _ _ _ _ hfailed)

end Settings

/-- **Only the delay after errors can be longer than a year.**  An environment is accepted exactly
if it sets a delay after errors that is a number of 64 bits, or none at all. Let a controller have
its settings, and let it make attempts at a copier, whatever answers their calls:

* If an attempt succeeds and is to be followed by another one, then after the period of the copier,
  which is above zero and a year at most.
* If it fails, then another one follows after as many seconds as the environment sets.
* So no attempt is planned for later than after a year if and only if the environment sets a year
  at most, or the copier is being deleted, or it has no rules. -/
theorem requeues_stay_within_a_year_iff (lookup : String → Option String) :
    ((∃ settings, Settings.ofEnvironment lookup = .ok settings) ↔
      ∃ seconds, Settings.SetsErrorDelay lookup seconds ∧ seconds < Nat.pow 2 64) ∧
    ∀ settings, Settings.ofEnvironment lookup = .ok settings →
      ∃ seconds, Settings.SetsErrorDelay lookup seconds ∧
        settings.errorDelay = .ofSeconds seconds ∧ ∀ c : Copier,
        (∀ (σ : Type) (g : Gateway σ) (s : σ) (delay : Duration),
          (c.reconcile.run g s).1 = .ok (.requeueAfter delay) →
            c.syncPeriod = .ok delay ∧ delay ≠ 0 ∧ delay ≤ .ofSeconds 31536000) ∧
        (∀ (σ : Type) (g : Gateway σ) (s : σ) (e : SyncError),
          (c.reconcile.run g s).1 = .error e →
            settings.following c g s = .requeueAfter (.ofSeconds seconds)) ∧
        (settings.PlansWithin c 31536000 ↔
          seconds ≤ 31536000 ∨ c.isBeingDeleted = true ∨ c.spec.rules = []) := by
  constructor
  · constructor
    · rintro ⟨settings, haccepted⟩
      obtain ⟨seconds, hset, hbound, -⟩ := Settings.exists_errorDelay haccepted
      exact ⟨seconds, hset, hbound⟩
    · rintro ⟨seconds, hset, hbound⟩
      obtain ⟨settings, haccepted, -⟩ := Settings.exists_settings hset hbound
      exact ⟨settings, haccepted⟩
  · intro settings haccepted
    obtain ⟨seconds, hset, -, hdelay⟩ := Settings.exists_errorDelay haccepted
    refine ⟨seconds, hset, hdelay, fun c => ⟨?_, ?_, ?_, ?_⟩⟩
    · intro σ g s delay hok
      exact Copier.nextPassDelay_bounds (Copier.nextPassDelay_of_reconcile hok)
    · intro σ g s e herror
      rw [Settings.following_of_error herror, hdelay]
    · intro hwithin
      by_cases hdormant : c.isBeingDeleted = true ∨ c.spec.rules = []
      · exact Or.inr hdormant
      · exact Or.inl (Settings.le_of_plansWithin hdormant hdelay hwithin)
    · rintro (hyear | hdormant)
      · exact Settings.plansWithin_of_le hdelay hyear
      · exact Settings.plansWithin_of_dormant hdormant

namespace Sample

/-- An environment with a number in the variable for the delay after errors. -/
def environment (value : String) (name : String) : Option String :=
  if name = Settings.errorDelayVariable then some value else none

/-- Settings with a delay after errors of a year and a second. -/
def unhurried : Settings := { errorDelay := .ofSeconds 31536001 }

end Sample

/-- With a delay of fifteen seconds after errors, a copier with a pass every minute is looked at
again within a year, whatever happens. -/
theorem every_minute_is_planned_within_a_year :
    Settings.ofEnvironment (Sample.environment " 15 ") = .ok { errorDelay := .ofSeconds 15 } ∧
      Settings.PlansWithin { errorDelay := .ofSeconds 15 } Sample.everyMinute 31536000 := by
  have haccepted : Settings.ofEnvironment (Sample.environment " 15 ") =
      .ok { errorDelay := .ofSeconds 15 } := by decide +kernel
  obtain ⟨-, hplans⟩ := requeues_stay_within_a_year_iff (Sample.environment " 15 ")
  obtain ⟨seconds, -, hdelay, hcopier⟩ := hplans _ haccepted
  have hseconds : seconds = 15 := by
    rw [← Duration.seconds_ofSeconds seconds, ← hdelay, Duration.seconds_ofSeconds]
  obtain ⟨-, -, hwithin⟩ := hcopier Sample.everyMinute
  exact ⟨haccepted, hwithin.2 (Or.inl (by rw [hseconds]; decide))⟩

/-- A delay after errors of a year and a second is accepted, and where the namespaces cannot be
listed the next attempt is planned for as late as that, beyond the longest period. -/
theorem error_delay_beyond_a_year_is_planned :
    Settings.ofEnvironment (Sample.environment "31536001") = .ok Sample.unhurried ∧
      Sample.unhurried.following Sample.everyMinute Cluster.direct Cluster.unlisted =
        .requeueAfter (.ofSeconds 31536001) ∧
      ¬ Duration.ofSeconds 31536001 ≤ .ofSeconds Copier.longestPeriod := by
  refine ⟨by decide +kernel, ?_, ?_⟩
  · exact Settings.following_of_error (Copier.run_reconcile_unlisted (by decide))
  · rw [Duration.ofSeconds_le_iff]
    decide

end SecretFanout
