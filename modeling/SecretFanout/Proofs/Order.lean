import Mathlib.Data.List.Perm.Basic
import SecretFanout.Proofs.Interruption
import SecretFanout.Proofs.Rejection

/-!
# The order of copies

Where each copy has a place of its own and none goes where a source is, copies have nothing to do
with each other. The order in which a pass goes through them then shows neither in what stands in
the cluster afterwards nor in the summary.

* `Apart` — neither of two copies goes where the other one is, or where its source is.
* `Copier.counted` — one copy brought up to date and counted; `counted_comm` says that copies apart
  from each other can be taken either way round, and `foldl_counted_perm` that a whole list of them
  can be taken in any order.
* `run_pass_eq_counted` — a pass on a calm cluster is such a way through its copies.
* `targets_perm` — rules and namespaces in another order make the same copies in another order.
* `order_of_rules_and_namespaces_is_irrelevant` — this said of passes.
-/

namespace SecretFanout

/-! ## Counting -/

namespace PassSummary

/-- Counts what came of one copy, a failed write included. -/
def count (s : PassSummary) : Reply Outcome → PassSummary
  | .ok outcome => s.record outcome
  | .error _ => s.recordFailure

/-- It does not matter which of two copies is counted first. -/
theorem count_comm (s : PassSummary) (reply other : Reply Outcome) :
    (s.count reply).count other = (s.count other).count reply := by
  cases reply with
  | error e =>
    cases other with
    | error e' => rfl
    | ok outcome => cases outcome <;> rfl
  | ok outcome =>
    cases other with
    | error e' => cases outcome <;> rfl
    | ok outcome' => cases outcome <;> cases outcome' <;> rfl

/-- A copy after which a pass goes on is counted, whatever came of it. -/
theorem tally_cons {s : PassSummary} {report : Report} {rest : List Report}
    (h : report.goesOn = true) : s.tally (report :: rest) = (s.count report.reply).tally rest := by
  rw [Report.goesOn] at h
  rw [tally]
  cases hreply : report.reply with
  | ok outcome => rfl
  | error e =>
    have hwriting : e.isWriteFailure = true := by simpa [hreply] using h
    simp [hwriting, count]

end PassSummary

/-! ## Two copies -/

/-- Two copies have nothing to do with each other: neither goes in the place of the other one, or
where its source is. -/
structure Apart (copy other : Rule × String) : Prop where
  /-- Each has a place of its own. -/
  place_ne : placeOf copy ≠ placeOf other
  /-- The first one does not go where the source of the second one is. -/
  source_ne : placeOf copy ≠ other.1.source
  /-- The second one does not go where the source of the first one is. -/
  source_ne' : placeOf other ≠ copy.1.source

theorem Apart.symm {copy other : Rule × String} (h : Apart copy other) : Apart other copy :=
  ⟨h.place_ne.symm, h.source_ne', h.source_ne⟩

namespace Copier

variable {c : Copier} {copy other : Rule × String} {v : View} {cl : Cluster}
  {copies copies' : List (Rule × String)}

/-- What comes of a copy is the same before and after a copy apart from it. -/
theorem report_synced (refused : Bool) (h : Apart copy other) :
    c.report other refused (c.synced copy v) = c.report other refused v :=
  report_congr refused (synced_of_ne h.source_ne.symm) (synced_of_ne h.place_ne.symm)

/-- Bringing a copy up to date changes its place in the same way before and after a copy apart from
it. -/
theorem synced_synced_place (h : Apart copy other) :
    c.synced other (c.synced copy v) (placeOf other) = c.synced other v (placeOf other) :=
  synced_congr (synced_of_ne h.source_ne.symm) (synced_of_ne h.place_ne.symm)

/-- Copies apart from each other can be brought up to date either way round. -/
theorem synced_comm (h : Apart copy other) :
    c.synced other (c.synced copy v) = c.synced copy (c.synced other v) := by
  funext key
  by_cases hother : key = placeOf other
  · subst hother
    rw [synced_synced_place h, synced_of_ne h.place_ne.symm]
  · rw [synced_of_ne hother]
    by_cases hcopy : key = placeOf copy
    · subst hcopy
      rw [synced_synced_place h.symm]
    · rw [synced_of_ne hcopy, synced_of_ne hcopy, synced_of_ne hother]

/-! ## Copies in any order -/

/-- What stands under the keys, and what was counted, once a copy is brought up to date. -/
def counted (c : Copier) (now : View × PassSummary) (copy : Rule × String) : View × PassSummary :=
  (c.synced copy now.1, now.2.count (c.report copy false now.1).reply)

theorem counted_comm (h : Apart copy other) (now : View × PassSummary) :
    c.counted (c.counted now copy) other = c.counted (c.counted now other) copy := by
  obtain ⟨v, summary⟩ := now
  simp only [counted]
  rw [synced_comm h, report_synced false h, report_synced false h.symm, PassSummary.count_comm]

/-- Where no copy goes where a source is, copies are equal or apart from each other. -/
theorem eq_or_apart (hseparate : Separate copies)
    (hdetached : ∀ copy ∈ copies, ∀ copy' ∈ copies, placeOf copy ≠ copy'.1.source)
    (hcopy : copy ∈ copies) (hother : other ∈ copies) : copy = other ∨ Apart copy other := by
  by_cases hplace : placeOf copy = placeOf other
  · exact Or.inl (hseparate.eq hcopy hother hplace)
  · exact Or.inr ⟨hplace, hdetached copy hcopy other hother, hdetached other hother copy hcopy⟩

/-- Copies in places of their own, none of them a source, can be taken in any order. -/
theorem foldl_counted_perm (hseparate : Separate copies)
    (hdetached : ∀ copy ∈ copies, ∀ copy' ∈ copies, placeOf copy ≠ copy'.1.source)
    (h : copies.Perm copies') (now : View × PassSummary) :
    copies.foldl c.counted now = copies'.foldl c.counted now := by
  refine h.foldl_eq' ?_ now
  intro copy hcopy other hother now
  rcases eq_or_apart hseparate hdetached hcopy hother with rfl | hapart
  · rfl
  · exact counted_comm hapart now

/-! ## Passes -/

/-- On the way through copies each is brought up to date. -/
theorem foldl_counted_fst (now : View × PassSummary) :
    (copies.foldl c.counted now).1 = c.syncedAll copies now.1 := by
  induction copies generalizing now with
  | nil => rfl
  | cons copy rest ih =>
    rw [List.foldl_cons, ih, syncedAll_cons]
    rfl

/-- On the way through copies the reports on them are counted. -/
theorem tally_reportsOn (now : View × PassSummary) :
    now.2.tally (c.reportsOn [] copies now.1) = .ok (copies.foldl c.counted now).2 := by
  induction copies generalizing now with
  | nil => rfl
  | cons copy rest ih =>
    rw [reportsOn, PassSummary.tally_cons (goesOn_report _ _), List.foldl_cons, ← ih]
    simp [counted]

/-- A pass on a calm cluster is a way through its copies. -/
theorem run_pass_eq_counted (c : Copier) (hf : cl.faults = {}) (hkeyed : cl.Keyed) :
    ∃ after, c.pass.run Cluster.direct cl =
        (.ok ((c.copiesIn cl).foldl c.counted (cl.view, {})).2, after) ∧
      after.view = ((c.copiesIn cl).foldl c.counted (cl.view, {})).1 := by
  obtain ⟨summary, after, hrun, -, hview, htally, hreports⟩ :=
    run_pass_of_readable c (Cluster.readable_of_calm hf) hkeyed
  have hwrites : cl.faults.writes = [] := by rw [hf]
  rw [hwrites] at hview hreports
  have hsummary : summary = ((c.copiesIn cl).foldl c.counted (cl.view, {})).2 := by
    rw [hreports, tally_reportsOn (cl.view, {})] at htally
    exact (Except.ok.inj htally).symm
  refine ⟨after, hsummary ▸ hrun, ?_⟩
  rw [hview, writable_nil, foldl_counted_fst]

/-- Rules and namespaces in another order make the same copies in another order. -/
theorem targets_perm {rules : List Rule} {namespaces namespaces' : List Snapshot}
    (hrules : rules.Perm c.spec.rules) (hnamespaces : namespaces.Perm namespaces') :
    (({ c with spec := { c.spec with rules } } : Copier).targets namespaces).Perm
      (c.targets namespaces') := by
  refine hrules.flatMap fun r _ => List.Perm.map _ ?_
  exact ((hnamespaces.filter _).filter _).map _

end Copier

/-- **The order of rules and namespaces is irrelevant.**  Let a cluster turn no call down, and let a
copier have no two rules that make copies in the same place and none that goes where a source is.
Put its rules in another order, and have the cluster list its namespaces in another order: then
passes end without an error and without a failed write, with one summary for both, and the same
stands under every key afterwards, versions and identities aside. -/
theorem order_of_rules_and_namespaces_is_irrelevant (c : Copier) (cl : Cluster)
    (hf : cl.faults = {}) (hkeyed : cl.Keyed) (hseparate : Separate (c.copiesIn cl))
    (hdetached : c.Detached (cl.namespaces.map Namespace.snapshot))
    {rules : List Rule} (hrules : rules.Perm c.spec.rules)
    {namespaces : List Namespace} (hnamespaces : namespaces.Perm cl.namespaces) :
    ∃ summary after after',
      c.pass.run Cluster.direct cl = (.ok summary, after) ∧
      ({ c with spec := { c.spec with rules } } : Copier).pass.run Cluster.direct
        { cl with namespaces } = (.ok summary, after') ∧
      summary.failed = 0 ∧ ∀ key, after'.view key = after.view key := by
  let shuffled : Copier := { c with spec := { c.spec with rules } }
  let listed : Cluster := { cl with namespaces }
  obtain ⟨after, hrun, hview⟩ := Copier.run_pass_eq_counted c hf hkeyed
  have hf' : listed.faults = {} := hf
  obtain ⟨after', hrun', hview'⟩ := Copier.run_pass_eq_counted shuffled hf' (hkeyed.of_eq rfl)
  -- the rules are named by the copies, so the copier decides about a copy as it did
  have hcounted : shuffled.counted = c.counted := rfl
  have hapart : ∀ copy ∈ c.copiesIn cl, ∀ copy' ∈ c.copiesIn cl,
      placeOf copy ≠ copy'.1.source := by
    intro copy hcopy copy' hcopy'
    exact hdetached copy hcopy copy'.1 (Copier.mem_targets.1 hcopy').1
  have hcopies : (shuffled.copiesIn listed).Perm (c.copiesIn cl) :=
    Copier.targets_perm hrules (hnamespaces.map _)
  have hsame : (shuffled.copiesIn listed).foldl shuffled.counted (listed.view, {}) =
      (c.copiesIn cl).foldl c.counted (cl.view, {}) := by
    rw [hcounted, Copier.foldl_counted_perm hseparate hapart hcopies.symm]
    rfl
  rw [hsame] at hrun' hview'
  refine ⟨_, after, after', hrun, hrun', ?_, ?_⟩
  · obtain ⟨summary, after₁, hrun₁, hfailed, -⟩ := Copier.view_of_calm c hf hkeyed
    rw [hrun] at hrun₁
    cases hrun₁
    exact hfailed
  · intro key
    rw [hview', hview]

/-- In the small cluster the token is copied under two names, and it does not matter under which one
first, nor which namespace is the first one. -/
theorem order_of_rules_and_namespaces_is_irrelevant_sample :
    ∃ after after',
      (Sample.team [Sample.spread, Sample.spare]).pass.run Cluster.direct Sample.cluster =
        (.ok { created := 1, updated := 1 }, after) ∧
      (Sample.team [Sample.spare, Sample.spread]).pass.run Cluster.direct
          { Sample.cluster with namespaces := Sample.cluster.namespaces.reverse } =
        (.ok { created := 1, updated := 1 }, after') ∧
      ∀ key, after'.view key = after.view key := by
  obtain ⟨summary, after, after', hrun, hrun', -, hview⟩ :=
    order_of_rules_and_namespaces_is_irrelevant (Sample.team [Sample.spread, Sample.spare])
      Sample.cluster rfl (Cluster.Keyed.start _ _) (by decide +kernel) (by decide +kernel)
      (List.Perm.swap Sample.spread Sample.spare []) (List.reverse_perm _)
  have hsummary : ((Sample.team [Sample.spread, Sample.spare]).pass.run Cluster.direct
      Sample.cluster).1 = .ok { created := 1, updated := 1 } := rfl
  rw [hrun] at hsummary
  obtain rfl := Except.ok.inj hsummary
  exact ⟨after, after', hrun, hrun', hview⟩

end SecretFanout
