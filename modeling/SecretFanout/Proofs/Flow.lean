import Mathlib.Data.Set.Function
import SecretFanout.Proofs.Reports

/-!
# Where contents can flow

What stands under one key can only come to matter under another one by way of a rule that
copies the first to the second.

* `ClosedUnder` — some keys have, with the source of each copy, the place of the copy among
  them.
* `eqOn_synced`, `eqOn_syncedAll` — what is the same in two views under all other keys stays so
  as copies are brought up to date in both.
* `Cluster.afterPasses` — a cluster after passes one after the other.
* `contents_flow_along_rules` — nothing that is done to the secrets under such keys ever shows
  under another key.
-/

namespace SecretFanout

variable {K : Set SecretKey} {v w : View} {c : Copier} {copy : Rule × String}
  {copies : List (Rule × String)}

/-! ## Views that are the same outside of some keys -/

/-- With the source of a copy its place is among the keys. -/
def ClosedUnder (K : Set SecretKey) (copies : List (Rule × String)) : Prop :=
  ∀ copy ∈ copies, copy.1.source ∈ K → placeOf copy ∈ K

namespace Copier

/-- A copy whose place is not among the keys has its source elsewhere too, so that the same
becomes of it in both views. -/
theorem eqOn_synced (h : Set.EqOn v w Kᶜ) (hclosed : copy.1.source ∈ K → placeOf copy ∈ K) :
    Set.EqOn (c.synced copy v) (c.synced copy w) Kᶜ := by
  intro key hkey
  by_cases hplace : key = placeOf copy
  · subst hplace
    have hsource : copy.1.source ∈ Kᶜ := fun hs => hkey (hclosed hs)
    exact synced_congr (h hsource) (h hkey)
  · rw [synced_of_ne hplace, synced_of_ne hplace, h hkey]

theorem eqOn_syncedAll (h : Set.EqOn v w Kᶜ) (hclosed : ClosedUnder K copies) :
    Set.EqOn (c.syncedAll copies v) (c.syncedAll copies w) Kᶜ := by
  induction copies generalizing v w with
  | nil => exact h
  | cons copy rest ih =>
    have hfirst : Set.EqOn (c.synced copy v) (c.synced copy w) Kᶜ :=
      eqOn_synced h (hclosed copy (by simp))
    exact ih hfirst fun copy hc => hclosed copy (by simp [hc])

end Copier

/-! ## Passes one after the other -/

namespace Cluster

/-- A cluster after a pass of each copier, one after the other. -/
def afterPasses (cl : Cluster) (passes : List Copier) : Cluster :=
  passes.foldl (fun cl c => (c.pass.run direct cl).2) cl

@[simp] theorem afterPasses_cons (cl : Cluster) (c : Copier) (passes : List Copier) :
    cl.afterPasses (c :: passes) = (c.pass.run direct cl).2.afterPasses passes := rfl

end Cluster

/-- **Contents flow along rules only.**  Let two clusters have the same namespaces and turn no
call down, and let the same stand in both outside of some keys; and let these keys have, with
each source of a rule, the places of its copies among them. Then the same stands outside of the
keys in both after any passes, however much the secrets under the keys differ. -/
theorem contents_flow_along_rules (passes : List Copier) (cl cl' : Cluster) (K : Set SecretKey)
    (hnamespaces : cl'.namespaces = cl.namespaces)
    (hf : cl.faults = {}) (hf' : cl'.faults = {}) (hkeyed : cl.Keyed) (hkeyed' : cl'.Keyed)
    (hclosed : ∀ c ∈ passes, ∀ r ∈ c.spec.rules, ∀ n ∈ cl.namespaces.map Namespace.snapshot,
      n.terminating = false → r.selects n = true → r.source ∈ K → r.copyKey n.name ∈ K)
    (hagree : Set.EqOn cl.view cl'.view Kᶜ) :
    Set.EqOn (cl.afterPasses passes).view (cl'.afterPasses passes).view Kᶜ := by
  induction passes generalizing cl cl' with
  | nil => exact hagree
  | cons c passes ih =>
    obtain ⟨summary, after, hrun, -, hgoes, hview⟩ := Copier.view_of_calm c hf hkeyed
    obtain ⟨summary', after', hrun', -, hgoes', hview'⟩ := Copier.view_of_calm c hf' hkeyed'
    have hcopies : ClosedUnder K (c.copiesIn cl) := by
      rintro ⟨r, ns⟩ hmem hsource
      obtain ⟨hr, n, hn, hactive, hsel, rfl⟩ := Copier.mem_targets.1 hmem
      exact hclosed c (by simp) r hr n hn hactive hsel hsource
    have hsame : c.copiesIn cl' = c.copiesIn cl := by
      rw [Copier.copiesIn, Copier.copiesIn, hnamespaces]
    rw [Cluster.afterPasses_cons, Cluster.afterPasses_cons, hrun, hrun']
    refine ih after after' ?_ (hgoes.faults_eq.trans hf) (hgoes'.faults_eq.trans hf') hgoes.keyed
      hgoes'.keyed ?_ ?_
    · rw [hgoes.namespaces_eq, hgoes'.namespaces_eq, hnamespaces]
    · intro d hd
      rw [hgoes.namespaces_eq]
      exact hclosed d (by simp [hd])
    · rw [hview, hview', hsame]
      exact Copier.eqOn_syncedAll hagree hcopies

/-- In the small cluster the token goes by one copier to two namespaces and from one of them by
another copier under another name; whether it is there or not shows nowhere else. -/
theorem contents_flow_along_rules_sample :
    Set.EqOn (Sample.cluster.afterPasses [Sample.team [Sample.spread], Sample.relay]).view
      (((Change.deleteSecret ⟨"vault", "token"⟩).apply Sample.cluster).afterPasses
        [Sample.team [Sample.spread], Sample.relay]).view
      {key : SecretKey | key.name = "token" ∨ key.name = "echo"}ᶜ := by
  have hkeyed : Sample.cluster.Keyed := Cluster.Keyed.start _ _
  refine contents_flow_along_rules _ _ _ _ rfl rfl rfl hkeyed (hkeyed.change _) ?_ ?_
  · simp only [Set.mem_ofPred_eq]
    decide +kernel
  · intro key hkey
    have hne : key ≠ ⟨"vault", "token"⟩ := by
      rintro rfl
      exact hkey (Or.inl rfl)
    rw [Cluster.view, Cluster.view, Change.apply, SortedMap.get?_erase, if_neg hne]

end SecretFanout
