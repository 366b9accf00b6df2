import SecretFanout.Proofs.Walk

/-!
# One pass is enough

A pass on a cluster that turns no call down, with nobody else at work, settles all copies of
its copier at once if the rules that make a source come before those that copy it.

* `Copier.SourcesFirst` — the rules stand in such an order.
* `pairwise_targets` — a pass then never writes a source of a copy that it has been at.
* `pass_converges` — after the pass every copy is settled, nothing was written that was not
  the copier's, and the next pass has nothing to do.
-/

namespace SecretFanout

namespace Copier

variable {c : Copier} {cl : Cluster}

/-- A rule that puts a copy where another rule finds its source comes before that rule. -/
def SourcesFirst (c : Copier) (namespaces : List Snapshot) : Prop :=
  ∀ i (_ : i < c.spec.rules.length) j (_ : j < c.spec.rules.length),
    ∀ n ∈ namespaces, n.terminating = false → c.spec.rules[j].selects n = true →
      c.spec.rules[j].copyKey n.name = c.spec.rules[i].source → j < i

instance (c : Copier) (namespaces : List Snapshot) : Decidable (c.SourcesFirst namespaces) :=
  inferInstanceAs (Decidable (∀ _ _ _ _ _ _, _ → _ → _ → _))

/-- Sources come first among the copies too. -/
theorem pairwise_targets {namespaces : List Snapshot} (h : c.SourcesFirst namespaces) :
    (c.targets namespaces).Pairwise fun copy copy' =>
      copy'.1.copyKey copy'.2 ≠ copy.1.source := by
  rw [targets, List.pairwise_flatMap]
  refine ⟨?_, ?_⟩
  · -- the copies of one rule: none of them goes into the namespace of the source
    intro r hr
    refine List.pairwise_of_forall_mem_list ?_
    intro copy hcopy copy' hcopy'
    obtain ⟨ns, hns, rfl⟩ := List.mem_map.1 hcopy
    obtain ⟨ns', hns', rfl⟩ := List.mem_map.1 hcopy'
    have hmem : (r, ns') ∈ c.targets namespaces :=
      List.mem_flatMap.2 ⟨r, hr, List.mem_map.2 ⟨ns', hns', rfl⟩⟩
    exact copyKey_ne_source (ne_source_of_mem_targets hmem)
  · rw [List.pairwise_iff_getElem]
    intro i j hi hj hij copy hcopy copy' hcopy' hkey
    obtain ⟨ns, hns, rfl⟩ := List.mem_map.1 hcopy
    obtain ⟨ns', hns', rfl⟩ := List.mem_map.1 hcopy'
    have hmem : (c.spec.rules[j], ns') ∈ c.targets namespaces :=
      List.mem_flatMap.2 ⟨_, List.getElem_mem hj, List.mem_map.2 ⟨ns', hns', rfl⟩⟩
    obtain ⟨-, n, hn, hactive, hsel, rfl⟩ := mem_targets.1 hmem
    have hji : j < i := h i hi j hj n hn hactive hsel hkey
    omega

end Copier

open Copier in
/-- **One pass settles everything.**  Let a cluster turn no call down and nobody else write,
and let the rules of a copier be consistent, with those that make a source before those that
copy it. Then a pass ends without an error and without a failed write, and after it:

* Every copy of a source that is there stands in its place, and if it carries the mark its
  type, its data and its labels are what they should be.
* No secret is gone, and a secret that did not carry the mark of a copy that goes in its
  place is as it was.
* A second pass writes nothing and leaves the cluster as it is. -/
theorem pass_converges (c : Copier) (cl : Cluster) (hf : cl.faults = {}) (hkeyed : cl.Keyed)
    (hrules : c.Consistent (cl.namespaces.map Namespace.snapshot))
    (horder : c.SourcesFirst (cl.namespaces.map Namespace.snapshot)) :
    ∃ summary cl', c.pass.run Cluster.direct cl = (.ok summary, cl') ∧ summary.failed = 0 ∧
      cl'.namespaces = cl.namespaces ∧ c.Converged cl' ∧
      (∀ key, cl.secrets.contains key = true → cl'.secrets.contains key = true) ∧
      (∀ key x, cl.secrets.get? key = some x →
        (∀ copy ∈ c.targets (cl.namespaces.map Namespace.snapshot),
          copy.1.copyKey copy.2 = key → (c.ownership copy.1).owns x = false) →
        cl'.secrets.get? key = some x) ∧
      c.PassIsIdle cl' := by
  obtain ⟨summary, calls, cl', written, hrun, hwalk, -, -, hfailed⟩ := run_pass_of_calm c hf hkeyed
  obtain ⟨hnamespaces, hfaults, hkeyed'⟩ := hwalk.frame hkeyed
  have hdirect := Program.run_recorded Cluster.direct c.pass cl []
  rw [hrun] at hdirect
  have hconverged : c.Converged cl' := by
    rw [converged_iff, hnamespaces]
    intro r ns hmem
    refine hwalk.settled (fun _ hcopy => ne_source_of_mem_targets hcopy)
      hrules.slash_free_targets hrules.agree ?_ (r, ns) hmem
    refine (pairwise_targets horder).imp ?_
    intro copy copy' hne _
    exact hne
  refine ⟨summary, cl', Prod.ext hdirect.1.symm hdirect.2.symm, hfailed, hnamespaces, hconverged,
    ?_, ?_, passIsIdle_of_converged (hfaults.trans hf) hkeyed' hconverged⟩
  · intro key hkey
    exact hwalk.contains hkey
  · intro key x hx hforeign
    exact hwalk.untouched hx hforeign

/-- In the small cluster one rule brings a copy up to date and the next one copies it further. -/
theorem pass_converges_chain :
    ∃ cl', (Sample.team [Sample.spread, Sample.echo]).pass.run Cluster.direct Sample.cluster =
        (.ok { created := 1, updated := 1 }, cl') ∧
      (Sample.team [Sample.spread, Sample.echo]).PassIsIdle cl' := by
  obtain ⟨summary, cl', hrun, -, -, -, -, -, hidle⟩ :=
    pass_converges (Sample.team [Sample.spread, Sample.echo]) Sample.cluster rfl
      (Cluster.Keyed.start _ _) (by decide +kernel) (by decide +kernel)
  have hsummary : ((Sample.team [Sample.spread, Sample.echo]).pass.run Cluster.direct
      Sample.cluster).1 = .ok { created := 1, updated := 1 } := rfl
  exact ⟨cl', by rw [← hsummary, hrun], hidle⟩

end SecretFanout
