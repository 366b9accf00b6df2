import SecretFanout.Proofs.Rejection

/-!
# What follows rejected writes

A pass goes on after a rejected write, comes to its end and counts it. What is to follow is then
for the period to say: a pass by the clock brings the copy up to date, but a copier without one
waits for the next change, and the copy stays as it is.

* `Action.isRequeue` — the copier is looked at again of itself.
* `run_reconcile` — what follows a pass that has come to its end, and one that has not.
* `rejected_writes_are_retried_iff` — a pass in which writes were rejected is followed by another
  one of itself exactly when the period is not zero; one in which a reading failed always is.
* `rejected_write_awaits_change` — with a period of zero the copy whose write was rejected is left
  to the next change.
-/

namespace SecretFanout

/-- Whether a copier is looked at again of itself, also when nothing changes. -/
def Action.isRequeue : Action → Bool
  | .awaitChange => false
  | .requeueAfter _ => true

namespace Copier

variable {σ : Type} {c : Copier} {period : Duration}

/-- After a pass that has come to its end the period decides, whatever the pass has counted; one
that has ended with an error is an attempt that has failed. -/
theorem run_reconcile (g : Gateway σ) (s : σ) (hdeleted : c.isBeingDeleted = false)
    (hrules : c.spec.rules ≠ []) (hperiod : c.syncPeriod = .ok period) :
    c.reconcile.run g s =
      ((c.pass.run g s).1.map fun _ => if period = 0 then .awaitChange else .requeueAfter period,
        (c.pass.run g s).2) := by
  have hstarts : ¬ (c.isBeingDeleted || c.spec.rules.isEmpty) = true := by
    simp [hdeleted, hrules]
  rw [reconcile, if_neg hstarts, Program.run_bind]
  cases (c.pass.run g s).1 with
  | error e => rfl
  | ok summary =>
    by_cases hzero : period = 0
    · simp [nextPassDelay, hperiod, hzero, Program.run, Except.map]
    · simp [nextPassDelay, hperiod, hzero, Program.run, Except.map]

end Copier

/-- **Rejected writes are retried by the clock only.**  Let a copier with rules and a valid period
make a pass, whatever answers its calls. If the pass comes to its end, then another one follows of
itself exactly when the period is not zero, however many of its writes were rejected. If it ends
with an error, then another one always follows of itself, by the delay after errors. -/
theorem rejected_writes_are_retried_iff {σ : Type} (c : Copier) (g : Gateway σ) (s : σ)
    (errorDelay : Duration) {period : Duration} (hdeleted : c.isBeingDeleted = false)
    (hrules : c.spec.rules ≠ []) (hperiod : c.syncPeriod = .ok period) :
    (∀ summary, (c.pass.run g s).1 = .ok summary →
      ((Action.afterAttempt errorDelay (c.reconcile.run g s).1).isRequeue = true ↔ period ≠ 0)) ∧
    ∀ e, (c.pass.run g s).1 = .error e →
      Action.afterAttempt errorDelay (c.reconcile.run g s).1 = .requeueAfter errorDelay := by
  constructor
  · intro summary hok
    rw [Copier.run_reconcile g s hdeleted hrules hperiod, hok]
    by_cases hzero : period = 0
    · simp [Except.map, Action.afterAttempt, Action.isRequeue, hzero]
    · simp [Except.map, Action.afterAttempt, Action.isRequeue, hzero]
  · intro e herror
    rw [Copier.run_reconcile g s hdeleted hrules hperiod, herror]
    rfl

namespace Sample

/-- A copier that copies the token everywhere and asks for no pass by the clock. -/
def onChange : Copier := { team [spread] with spec := { rules := [spread], syncPeriod := "0s" } }

/-- The same copier with a pass every minute. -/
def everyMinute : Copier := team [spread]

end Sample

/-- In the small cluster a pass every minute comes back to the copy that could not be written. -/
theorem rejected_writes_are_retried_every_minute :
    ((Sample.everyMinute.pass.run Cluster.direct
        (Sample.cluster.rejecting [⟨"apps", "token"⟩])).1 = .ok { failed := 1 }) ∧
      (Action.afterAttempt (.ofSeconds 60) (Sample.everyMinute.reconcile.run Cluster.direct
        (Sample.cluster.rejecting [⟨"apps", "token"⟩])).1).isRequeue = true := by
  have hpass : (Sample.everyMinute.pass.run Cluster.direct
      (Sample.cluster.rejecting [⟨"apps", "token"⟩])).1 = .ok { failed := 1 } := rfl
  have hperiod : Sample.everyMinute.syncPeriod = .ok (.ofSeconds 60) := by decide +kernel
  obtain ⟨hretried, -⟩ := rejected_writes_are_retried_iff Sample.everyMinute Cluster.direct
    (Sample.cluster.rejecting [⟨"apps", "token"⟩]) (.ofSeconds 60) rfl (by decide) hperiod
  exact ⟨hpass, (hretried _ hpass).2 (by decide)⟩

/-- Without passes by the clock the copy that could not be written is left to the next change,
whatever the delay after errors. -/
theorem rejected_write_awaits_change :
    Sample.onChange.isBeingDeleted = false ∧ Sample.onChange.spec.rules ≠ [] ∧
      Sample.onChange.syncPeriod = .ok 0 ∧
      ((Sample.onChange.pass.run Cluster.direct
        (Sample.cluster.rejecting [⟨"apps", "token"⟩])).1 = .ok { failed := 1 }) ∧
      ∀ errorDelay, Action.afterAttempt errorDelay (Sample.onChange.reconcile.run Cluster.direct
        (Sample.cluster.rejecting [⟨"apps", "token"⟩])).1 = .awaitChange := by
  have hperiod : Sample.onChange.syncPeriod = .ok 0 := by decide +kernel
  have hpass : (Sample.onChange.pass.run Cluster.direct
      (Sample.cluster.rejecting [⟨"apps", "token"⟩])).1 = .ok { failed := 1 } := rfl
  refine ⟨rfl, by decide, hperiod, hpass, ?_⟩
  intro errorDelay
  rw [Copier.run_reconcile _ _ rfl (by decide) hperiod, hpass]
  rfl

end SecretFanout
