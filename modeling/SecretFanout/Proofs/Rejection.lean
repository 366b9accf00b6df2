import SecretFanout.Proofs.Flow

/-!
# Rejected writes

A pass on a cluster that rejects the writes of some keys, beside the pass on the same cluster
that rejects none. As long as none of the keys is a source the first differs from the second
at those keys only.

* `Cluster.rejecting` — the cluster that rejects the writes of some keys.
* `eqOn_of_rejected` — one copy: what a rejected write leaves out lies under its own key.
* `eqOn_syncedAll_writable`, `filter_reportsOn` — all copies: what stands under the other keys
  and what comes of the other copies is the same.
* `Copier.accounts` — what came of each copy in a pass.
* `rejected_writes_stay_local` — this said of passes, with the number of failures.
-/

namespace SecretFanout

/-- The cluster, as one that rejects the writes of these keys and turns down nothing else. -/
def Cluster.rejecting (cl : Cluster) (unwritable : List SecretKey) : Cluster :=
  { cl with faults := { writes := unwritable } }

namespace Copier

variable {c : Copier} {copy : Rule × String} {copies : List (Rule × String)}
  {unwritable : List SecretKey} {v w : View}

/-- What comes of a copy depends on what stands under two keys. -/
theorem report_congr (refused : Bool) (hsource : v copy.1.source = w copy.1.source)
    (hplace : v (placeOf copy) = w (placeOf copy)) :
    c.report copy refused v = c.report copy refused w := by
  rw [report, report, verdict_congr hsource hplace, readings, readings, hsource]

section Beside

variable (hsources : ∀ copy ∈ copies, copy.1.source ∉ unwritable)
include hsources

/-- A copy that cannot be written is left out on one side only, and that shows under its own
key, which is no source. -/
theorem eqOn_of_rejected (hmem : copy ∈ copies) (h : Set.EqOn v w {key | key ∈ unwritable}ᶜ) :
    Set.EqOn (if placeOf copy ∈ unwritable then v else c.synced copy v) (c.synced copy w)
      {key | key ∈ unwritable}ᶜ := by
  by_cases hplace : placeOf copy ∈ unwritable
  · rw [if_pos hplace]
    intro key hkey
    have hne : key ≠ placeOf copy := by
      rintro rfl
      exact hkey hplace
    rw [synced_of_ne hne, h hkey]
  · rw [if_neg hplace]
    exact eqOn_synced h fun hsource => absurd hsource (hsources copy hmem)

/-- What stands under the other keys is the same after all copies. -/
theorem eqOn_syncedAll_writable (h : Set.EqOn v w {key | key ∈ unwritable}ᶜ) :
    Set.EqOn (c.syncedAll (writable unwritable copies) v) (c.syncedAll copies w)
      {key | key ∈ unwritable}ᶜ := by
  induction copies generalizing v w with
  | nil => exact h
  | cons copy rest ih =>
    have hfirst := eqOn_of_rejected (c := c) hsources (List.mem_cons_self ..) h
    have hrest := ih (fun copy hc => hsources copy (by simp [hc])) hfirst
    rw [syncedAll_cons, writable, List.filter_cons]
    by_cases hplace : placeOf copy ∈ unwritable
    · simpa [hplace, writable] using hrest
    · simpa [hplace, writable] using hrest

/-- What comes of the other copies is the same. -/
theorem filter_reportsOn (h : Set.EqOn v w {key | key ∈ unwritable}ᶜ) :
    ((copies.zip (c.reportsOn unwritable copies v)).filter fun e => placeOf e.1 ∉ unwritable) =
      (copies.zip (c.reportsOn [] copies w)).filter fun e => placeOf e.1 ∉ unwritable := by
  induction copies generalizing v w with
  | nil => rfl
  | cons copy rest ih =>
    have hfirst := eqOn_of_rejected (c := c) hsources (List.mem_cons_self ..) h
    have hrest := ih (fun copy hc => hsources copy (by simp [hc])) hfirst
    simp only [reportsOn, List.not_mem_nil, if_false, List.zip_cons_cons, List.filter_cons, hrest]
    by_cases hplace : placeOf copy ∈ unwritable
    · simp [hplace]
    · have hreport := report_congr (c := c) false (h (hsources copy (by simp))) (h hplace)
      simp [hplace, hreport]

end Beside

theorem length_reportsOn (v : View) : (c.reportsOn unwritable copies v).length = copies.length := by
  induction copies generalizing v with
  | nil => rfl
  | cons copy rest ih => rw [reportsOn, List.length_cons, List.length_cons, ih]

/-- The copies that a pass on a cluster goes through, each with what came of it. -/
def accounts (c : Copier) (cl : Cluster) : List ((Rule × String) × Report) :=
  (c.copiesIn cl).zip (c.reports Cluster.direct (c.copiesIn cl) cl)

/-- Where every copy is reported on, the accounts tell copies and reports. -/
theorem accounts_of_reportsOn {cl : Cluster}
    (h : c.reports Cluster.direct (c.copiesIn cl) cl = c.reportsOn unwritable (c.copiesIn cl) v) :
    (c.accounts cl).map Prod.fst = c.copiesIn cl ∧
      (c.accounts cl).map Prod.snd = c.reports Cluster.direct (c.copiesIn cl) cl := by
  have hlength : (c.reports Cluster.direct (c.copiesIn cl) cl).length = (c.copiesIn cl).length := by
    rw [h, length_reportsOn]
  exact ⟨List.map_fst_zip hlength.ge, List.map_snd_zip hlength.le⟩

end Copier

/-- **Rejected writes stay local.**  Let a cluster turn no call down, and let it be run beside
the same cluster that rejects the writes of some keys, none of them a source of the copier.
Both passes come to their end and have an account of every copy, of which the summary is the
tally, and:

* Outside of the keys the same stands in both clusters afterwards.
* Under the keys nothing has changed where their writes are rejected.
* What came of the copies that go elsewhere is the same in both passes, their calls included.
* The failures are the copies under the keys for which a write was attempted. -/
theorem rejected_writes_stay_local (c : Copier) (cl : Cluster) (unwritable : List SecretKey)
    (hf : cl.faults = {}) (hkeyed : cl.Keyed)
    (hsources : ∀ r ∈ c.spec.rules, r.source ∉ unwritable) :
    ∃ summary after summary' after',
      c.pass.run Cluster.direct (cl.rejecting unwritable) = (.ok summary, after) ∧
      c.pass.run Cluster.direct cl = (.ok summary', after') ∧
      (c.accounts (cl.rejecting unwritable)).map Prod.fst = c.copiesIn cl ∧
      (c.accounts cl).map Prod.fst = c.copiesIn cl ∧
      ({} : PassSummary).tally ((c.accounts (cl.rejecting unwritable)).map Prod.snd) = .ok summary ∧
      ({} : PassSummary).tally ((c.accounts cl).map Prod.snd) = .ok summary' ∧
      (∀ key, key ∉ unwritable → after.view key = after'.view key) ∧
      (∀ key ∈ unwritable, after.secrets.get? key = cl.secrets.get? key) ∧
      ((c.accounts (cl.rejecting unwritable)).filter fun e => placeOf e.1 ∉ unwritable) =
        ((c.accounts cl).filter fun e => placeOf e.1 ∉ unwritable) ∧
      summary.failed = (c.accounts (cl.rejecting unwritable)).countP fun e =>
        placeOf e.1 ∈ unwritable && e.2.attempted := by
  have hreadable : (cl.rejecting unwritable).Readable := ⟨rfl, rfl, rfl⟩
  have hrejecting : (cl.rejecting unwritable).Keyed := hkeyed.of_eq rfl
  obtain ⟨summary, after, hrun, hgoes, hview, htally, hreports⟩ :=
    Copier.run_pass_of_readable c hreadable hrejecting
  obtain ⟨summary', after', hrun', -, hview', htally', hreports'⟩ :=
    Copier.run_pass_of_readable c (Cluster.readable_of_calm hf) hkeyed
  have hwrites : cl.faults.writes = [] := by rw [hf]
  rw [hwrites] at hview' hreports'
  rw [Copier.writable_nil] at hview'
  obtain ⟨hcopies, hall⟩ := Copier.accounts_of_reportsOn hreports
  obtain ⟨hcopies', hall'⟩ := Copier.accounts_of_reportsOn hreports'
  have hapart : ∀ copy ∈ c.copiesIn cl, copy.1.source ∉ unwritable := fun copy hmem =>
    hsources copy.1 (Copier.mem_targets.1 hmem).1
  have hstart : Set.EqOn (cl.rejecting unwritable).view cl.view {key | key ∈ unwritable}ᶜ :=
    fun _ _ => rfl
  refine ⟨summary, after, summary', after', hrun, hrun', hcopies, hcopies', hall ▸ htally,
    hall' ▸ htally', ?_, hgoes.unwritable_eq, ?_, ?_⟩
  · intro key hkey
    rw [hview, hview']
    exact Copier.eqOn_syncedAll_writable hapart hstart hkey
  · rw [Copier.accounts, Copier.accounts, hreports, hreports']
    exact Copier.filter_reportsOn hapart hstart
  · rw [PassSummary.failed_of_tally htally, Copier.accounts, hreports]
    exact (Nat.zero_add _).trans (Copier.countP_failed_reportsOn _ _)

/-- In the small cluster one copy cannot be made, and the one after it is brought up to date
nevertheless. -/
theorem rejected_writes_stay_local_sample :
    ∃ summary after summary' after',
      (Sample.team [Sample.echo, Sample.spread]).pass.run Cluster.direct
        (Sample.cluster.rejecting [⟨"vault", "echo"⟩]) = (.ok summary, after) ∧
      (Sample.team [Sample.echo, Sample.spread]).pass.run Cluster.direct Sample.cluster =
        (.ok summary', after') ∧
      summary = { updated := 1, failed := 1 } ∧ summary' = { created := 1, updated := 1 } ∧
      after.secrets.get? ⟨"vault", "echo"⟩ = none ∧
      ∀ key, key ∉ [(⟨"vault", "echo"⟩ : SecretKey)] → after.view key = after'.view key := by
  obtain ⟨summary, after, summary', after', hrun, hrun', -, -, -, -, hother, hrejected, -, -⟩ :=
    rejected_writes_stay_local (Sample.team [Sample.echo, Sample.spread]) Sample.cluster
      [⟨"vault", "echo"⟩] rfl (Cluster.Keyed.start _ _) (by decide +kernel)
  have hsummary : ((Sample.team [Sample.echo, Sample.spread]).pass.run Cluster.direct
      (Sample.cluster.rejecting [⟨"vault", "echo"⟩])).1 = .ok { updated := 1, failed := 1 } := rfl
  have hsummary' : ((Sample.team [Sample.echo, Sample.spread]).pass.run Cluster.direct
      Sample.cluster).1 = .ok { created := 1, updated := 1 } := rfl
  rw [hrun] at hsummary
  rw [hrun'] at hsummary'
  refine ⟨summary, after, summary', after', hrun, hrun', Except.ok.inj hsummary,
    Except.ok.inj hsummary', ?_, hother⟩
  rw [hrejected _ (by simp)]
  rfl

end SecretFanout
