import SecretFanout.Fanout.Copy

/-!
# Passes

A pass lists the namespaces once and then goes through the rules of a copier in order,
and for each rule through the namespaces it selects, in the order of the list. A
namespace that is being deleted gets no copies. A write that fails concerns its own
copy; any other failure ends the pass.

* `Copier.targets` is the list of copies that a pass goes through.
* `Copier.pass` is the pass, `Copier.reconcile` a pass and what is to follow it.
-/

namespace SecretFanout

/-- How many copies met with what. -/
structure PassSummary where
  /-- Copies made. -/
  created : Nat := 0
  /-- Copies written again. -/
  updated : Nat := 0
  /-- Copies that were up to date. -/
  unchanged : Nat := 0
  /-- Copies left alone for want of a source or of the mark. -/
  skipped : Nat := 0
  /-- Copies that could not be written. -/
  failed : Nat := 0
  deriving DecidableEq

namespace PassSummary

/-- Counts one copy. -/
def record (s : PassSummary) : Outcome → PassSummary
  | .created => { s with created := s.created + 1 }
  | .updated => { s with updated := s.updated + 1 }
  | .unchanged => { s with unchanged := s.unchanged + 1 }
  | .sameNamespace | .sourceMissing | .notManaged => { s with skipped := s.skipped + 1 }

/-- Counts one failed write. -/
def recordFailure (s : PassSummary) : PassSummary := { s with failed := s.failed + 1 }

end PassSummary

namespace Copier

/-- The names of the namespaces that get a copy by a rule. -/
def ruleTargets (r : Rule) (namespaces : List Snapshot) : List String :=
  ((namespaces.filter fun ns => !ns.terminating).filter fun ns => r.selects ns).map Snapshot.name

/-- The copies that a pass goes through: rules in order, then namespaces in order. -/
def targets (c : Copier) (namespaces : List Snapshot) : List (Rule × String) :=
  c.spec.rules.flatMap fun r => (ruleTargets r namespaces).map fun ns => (r, ns)

/-- A pass goes through the active namespaces that a rule selects. -/
theorem mem_targets {c : Copier} {namespaces : List Snapshot} {r : Rule} {ns : String} :
    (r, ns) ∈ c.targets namespaces ↔
      r ∈ c.spec.rules ∧
        ∃ n ∈ namespaces, n.terminating = false ∧ r.selects n = true ∧ n.name = ns := by
  simp only [targets, ruleTargets, List.mem_flatMap, List.mem_map, List.mem_filter,
    Prod.mk.injEq, Bool.not_eq_true']
  constructor
  · rintro ⟨r', hr', -, ⟨n, ⟨⟨hn, hactive⟩, hsel⟩, rfl⟩, rfl, rfl⟩
    exact ⟨hr', n, hn, hactive, hsel, rfl⟩
  · rintro ⟨hr, n, hn, hactive, hsel, rfl⟩
    exact ⟨r, hr, n.name, ⟨n, ⟨⟨hn, hactive⟩, hsel⟩, rfl⟩, rfl, rfl⟩

/-- Brings copies up to date one after the other. -/
def syncTargets (c : Copier) : List (Rule × String) → PassSummary → Program (Reply PassSummary)
  | [], summary => .done (.ok summary)
  | (r, ns) :: rest, summary =>
    (c.syncTarget r ns).bind fun
      | .ok outcome => c.syncTargets rest (summary.record outcome)
      | .error e =>
        if e.isWriteFailure then c.syncTargets rest summary.recordFailure
        else .done (.error e)

/-- One pass over all rules; without rules there is nothing to ask for. -/
def pass (c : Copier) : Program (Reply PassSummary) :=
  if c.spec.rules.isEmpty then .done (.ok {})
  else
    .list fun
      | .error e => .done (.error e)
      | .ok namespaces => c.syncTargets (c.targets namespaces) {}

end Copier

/-! ## What follows a pass -/

/-- When a copier is looked at again. -/
inductive Action where
  /-- When something changes. -/
  | awaitChange
  /-- When something changes, and after this time at the latest. -/
  | requeueAfter (delay : Duration)
  deriving DecidableEq

namespace Copier

/-- A pass and what is to follow it. A copier that is being deleted or has no rules makes
no pass. -/
def reconcile (c : Copier) : Program (Reply Action) :=
  if c.isBeingDeleted || c.spec.rules.isEmpty then .done (.ok .awaitChange)
  else
    c.pass.bind fun
      | .error e => .done (.error e)
      | .ok _ =>
        match c.nextPassDelay with
        | .error e => .done (.error (.period e))
        | .ok none => .done (.ok .awaitChange)
        | .ok (some delay) => .done (.ok (.requeueAfter delay))

end Copier

/-- What follows an attempt: what it asked for, or after an error another attempt. -/
def Action.afterAttempt (errorDelay : Duration) : Reply Action → Action
  | .ok action => action
  | .error _ => .requeueAfter errorDelay

end SecretFanout
