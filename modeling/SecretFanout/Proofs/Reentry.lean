import SecretFanout.Proofs.Traffic
import SecretFanout.Proofs.Walk

/-!
# Passes of one copier at the same time

Any number of passes of one copier on a cluster where nobody else writes, all calls in any
order. A pass that loses the race for a copy drops its write, and nothing is lost by that:
whoever won has settled the copy.

* `Copier.Detached` — no copy goes where a source is.
* `Copier.Rely` — what the calls of such passes do to a cluster: where they write at all they
  leave settled copies, and sources stay.
* `Copier.Underway` — where a pass can stand, and what is true then: the copies behind it are
  settled, and what it found in the place of the next one is still there, unless that copy
  was settled in the meantime.
* `concurrent_passes_converge` — a pass that has come to its end did so without an error, and
  all copies are settled.
-/

namespace SecretFanout

namespace Copier

variable {c : Copier} {namespaces : List Snapshot} {cl cl' : Cluster} {r : Rule} {ns : String}
  {rest : List (Rule × String)} {summary : PassSummary} {source old copy : Secret}
  {p : Program (Reply PassSummary)}

/-- No copy goes where a source is. -/
def Detached (c : Copier) (namespaces : List Snapshot) : Prop :=
  ∀ copy ∈ c.targets namespaces, ∀ r ∈ c.spec.rules, copy.1.copyKey copy.2 ≠ r.source

instance (c : Copier) (namespaces : List Snapshot) : Decidable (c.Detached namespaces) :=
  inferInstanceAs (Decidable (∀ _ ∈ _, ∀ _ ∈ _, _))

/-! ## What a pass does to the others -/

/-- What passes of one copier do to a cluster: they leave alone what matters to the copier, or
settle it. -/
structure Rely (c : Copier) (namespaces : List Snapshot) (cl cl' : Cluster) : Prop where
  /-- Secrets stay under their own keys. -/
  keyed : cl'.Keyed
  /-- The namespaces stay. -/
  namespaces_eq : cl'.namespaces = cl.namespaces
  /-- Nothing is set to go wrong. -/
  faults_eq : cl'.faults = cl.faults
  /-- The sources stay. -/
  source_eq : ∀ copy ∈ c.targets namespaces,
    cl'.secrets.get? copy.1.source = cl.secrets.get? copy.1.source
  /-- What stands in the place of a copy stays, or the copy is settled. -/
  place : ∀ copy ∈ c.targets namespaces,
    cl'.secrets.get? (copy.1.copyKey copy.2) = cl.secrets.get? (copy.1.copyKey copy.2) ∨
      c.Settled copy.1 copy.2 cl'

theorem Rely.refl (h : cl.Keyed) : c.Rely namespaces cl cl :=
  ⟨h, rfl, rfl, fun _ _ => rfl, fun _ _ => Or.inl rfl⟩

/-- The write of a copy settles every copy that goes in the same place. -/
theorem rely_put (hrules : c.Consistent namespaces) (hdetached : c.Detached namespaces)
    (hkeyed : cl.Keyed) (hmem : (r, ns) ∈ c.targets namespaces)
    (hkey : copy.key = r.copyKey ns) (hmark : (c.ownership r).owns copy = true)
    (hcurrent : ∀ source, cl.secrets.get? r.source = some source → r.IsCurrent source copy) :
    c.Rely namespaces cl (cl.put (r.copyKey ns) copy) := by
  refine ⟨hkeyed.put hkey, rfl, rfl, ?_, ?_⟩
  · intro target htarget
    have hne := hdetached (r, ns) hmem target.1 (mem_targets.1 htarget).1
    rw [Cluster.get?_put, if_neg hne.symm]
  · intro target htarget
    by_cases hplace : r.copyKey ns = target.1.copyKey target.2
    · have hsource := hdetached (r, ns) hmem target.1 (mem_targets.1 htarget).1
      exact Or.inr (settled_put_same (hrules.slash_free_targets _ hmem)
        (hrules.slash_free_targets _ htarget) (hrules.agree _ hmem _ htarget hplace) hsource hplace
        hmark hcurrent)
    · rw [Cluster.get?_put, if_neg (Ne.symm hplace)]
      exact Or.inl rfl

/-- What is settled stays settled. -/
theorem Rely.settled (h : c.Rely namespaces cl cl') (hmem : (r, ns) ∈ c.targets namespaces)
    (hsettled : c.Settled r ns cl) : c.Settled r ns cl' := by
  rcases h.place (r, ns) hmem with heq | hsettled'
  · exact hsettled.congr (h.source_eq (r, ns) hmem) heq
  · exact hsettled'

/-- What was found in the place of a copy is there, or the copy is settled. -/
theorem Rely.found (h : c.Rely namespaces cl cl') (hmem : (r, ns) ∈ c.targets namespaces)
    {found : Option Secret}
    (hfound : cl.secrets.get? (r.copyKey ns) = found ∨ c.Settled r ns cl) :
    cl'.secrets.get? (r.copyKey ns) = found ∨ c.Settled r ns cl' := by
  rcases hfound with hfound | hsettled
  · rcases h.place (r, ns) hmem with heq | hsettled
    · exact Or.inl (heq.trans hfound)
    · exact Or.inr hsettled
  · exact Or.inr (h.settled hmem hsettled)

/-! ## How far a pass has come -/

/-- The copies before these are settled. -/
def Reached (c : Copier) (namespaces : List Snapshot) (cl : Cluster) (rest : List (Rule × String)) :
    Prop :=
  ∃ done, c.targets namespaces = done ++ rest ∧ ∀ copy ∈ done, c.Settled copy.1 copy.2 cl

theorem reached_targets : c.Reached namespaces cl (c.targets namespaces) := ⟨[], rfl, by simp⟩

namespace Reached

theorem mem (h : c.Reached namespaces cl ((r, ns) :: rest)) : (r, ns) ∈ c.targets namespaces := by
  obtain ⟨done, htargets, -⟩ := h
  simp [htargets]

/-- One copy further. -/
theorem next (h : c.Reached namespaces cl ((r, ns) :: rest)) (hsettled : c.Settled r ns cl) :
    c.Reached namespaces cl rest := by
  obtain ⟨done, htargets, hdone⟩ := h
  refine ⟨done ++ [(r, ns)], by simp [htargets], ?_⟩
  intro copy hcopy
  rcases List.mem_append.1 hcopy with hcopy | hcopy
  · exact hdone copy hcopy
  · obtain rfl := List.mem_singleton.1 hcopy
    exact hsettled

/-- At the end all copies are settled. -/
theorem all_settled (h : c.Reached namespaces cl []) :
    ∀ copy ∈ c.targets namespaces, c.Settled copy.1 copy.2 cl := by
  obtain ⟨done, htargets, hdone⟩ := h
  rw [htargets, List.append_nil]
  exact hdone

theorem rely (h : c.Reached namespaces cl rest) (hrely : c.Rely namespaces cl cl') :
    c.Reached namespaces cl' rest := by
  obtain ⟨done, htargets, hdone⟩ := h
  refine ⟨done, htargets, ?_⟩
  intro copy hcopy
  exact hrely.settled (by simp [htargets, hcopy]) (hdone copy hcopy)

end Reached

/-- What is left of a pass once one copy is dealt with. -/
def afterCopy (c : Copier) (rest : List (Rule × String)) (summary : PassSummary) :
    Reply Outcome → Program (Reply PassSummary)
  | .ok outcome => c.syncTargets rest (summary.record outcome)
  | .error e =>
    if e.isWriteFailure then c.syncTargets rest summary.recordFailure else .done (.error e)

theorem syncTargets_cons :
    c.syncTargets ((r, ns) :: rest) summary =
      (c.syncTarget r ns).bind (c.afterCopy rest summary) := by
  rw [syncTargets]
  refine congrArg _ (funext fun reply => ?_)
  cases reply <;> rfl

/-- Where a pass can stand among other passes of its copier. -/
inductive Underway (c : Copier) (namespaces : List Snapshot) (cl : Cluster) :
    Program (Reply PassSummary) → Prop
  /-- It has not begun. -/
  | start : Underway c namespaces cl c.pass
  /-- It is between two copies, or at its end. -/
  | between {rest : List (Rule × String)} (h : c.Reached namespaces cl rest)
    (summary : PassSummary) : Underway c namespaces cl (c.syncTargets rest summary)
  /-- It has read a source. -/
  | place {r : Rule} {ns : String} {rest : List (Rule × String)}
    (h : c.Reached namespaces cl ((r, ns) :: rest)) (summary : PassSummary) {source : Secret}
    (hsource : cl.secrets.get? r.source = some source) :
    Underway c namespaces cl ((c.afterSource r ns source).bind (c.afterCopy rest summary))
  /-- It has found nothing in the place of the copy. -/
  | create {r : Rule} {ns : String} {rest : List (Rule × String)}
    (h : c.Reached namespaces cl ((r, ns) :: rest)) (summary : PassSummary) {source : Secret}
    (hsource : cl.secrets.get? r.source = some source)
    (hfree : cl.secrets.get? (r.copyKey ns) = none ∨ c.Settled r ns cl) :
    Underway c namespaces cl
      ((Decision.create (c.newCopy r ns source)).carryOut.bind (c.afterCopy rest summary))
  /-- It has found the copy out of date. -/
  | replace {r : Rule} {ns : String} {rest : List (Rule × String)}
    (h : c.Reached namespaces cl ((r, ns) :: rest)) (summary : PassSummary) {source : Secret}
    (hsource : cl.secrets.get? r.source = some source) {old : Secret}
    (hold : cl.secrets.get? (r.copyKey ns) = some old ∨ c.Settled r ns cl)
    (hkey : old.key = r.copyKey ns) (howns : (c.ownership r).owns old = true) :
    Underway c namespaces cl
      ((Decision.replace (source.refreshed old (r.copyLabels source))).carryOut.bind
        (c.afterCopy rest summary))

/-- What is true of a pass is not undone by the calls of the others. -/
theorem Underway.rely (h : c.Underway namespaces cl p) (hrely : c.Rely namespaces cl cl') :
    c.Underway namespaces cl' p := by
  cases h with
  | start => exact .start
  | between h summary => exact .between (h.rely hrely) summary
  | place h summary hsource =>
    exact .place (h.rely hrely) summary ((hrely.source_eq _ h.mem).trans hsource)
  | create h summary hsource hfree =>
    exact .create (h.rely hrely) summary ((hrely.source_eq _ h.mem).trans hsource)
      (hrely.found h.mem hfree)
  | replace h summary hsource hold hkey howns =>
    exact .replace (h.rely hrely) summary ((hrely.source_eq _ h.mem).trans hsource)
      (hrely.found h.mem hold) hkey howns

/-! ## Calls of a pass -/

/-- A pass between two copies reads the source of the next one. -/
theorem Reached.step_read_source (h : c.Reached namespaces cl rest) (hf : cl.faults = {})
    (summary : PassSummary) :
    ((c.syncTargets rest summary).step Cluster.direct cl).2 = cl ∧
      c.Underway namespaces cl ((c.syncTargets rest summary).step Cluster.direct cl).1 := by
  cases rest with
  | nil => exact ⟨rfl, .between h summary⟩
  | cons copy rest =>
    obtain ⟨r, ns⟩ := copy
    rw [syncTargets_cons, step_syncTarget_bind _ _ (ne_source_of_mem_targets h.mem),
      Cluster.direct_read_of_calm hf]
    refine ⟨rfl, ?_⟩
    cases hsource : cl.secrets.get? r.source with
    | none => exact .between (h.next (settled_of_missing hsource)) (summary.record .sourceMissing)
    | some source => exact .place h summary hsource

/-- Then it reads what stands in the place of the copy. -/
theorem Reached.step_read_place (h : c.Reached namespaces cl ((r, ns) :: rest))
    (hf : cl.faults = {}) (hkeyed : cl.Keyed) (summary : PassSummary)
    (hsource : cl.secrets.get? r.source = some source) :
    (((c.afterSource r ns source).bind (c.afterCopy rest summary)).step Cluster.direct cl).2 = cl ∧
      c.Underway namespaces cl
        (((c.afterSource r ns source).bind (c.afterCopy rest summary)).step Cluster.direct cl).1 := by
  rw [step_afterSource_bind, Cluster.direct_read_of_calm hf]
  refine ⟨rfl, ?_⟩
  dsimp only
  cases hdecide : c.decide r ns source (cl.secrets.get? (r.copyKey ns)) with
  | leave outcome =>
    have hsettled : c.Settled r ns cl := (exists_leave_iff_settled hsource).1 ⟨outcome, hdecide⟩
    exact .between (h.next hsettled) (summary.record outcome)
  | create copy =>
    obtain ⟨hfree, rfl⟩ := decide_eq_create_iff.1 hdecide
    exact .create h summary hsource (Or.inl hfree)
  | replace copy =>
    obtain ⟨old, hold, howns, -, rfl⟩ := decide_eq_replace_iff.1 hdecide
    exact .replace h summary hsource (Or.inl hold) (hkeyed _ _ hold) howns

section Writes

variable (hrules : c.Consistent namespaces) (hdetached : c.Detached namespaces)
include hrules hdetached

/-- The write of a copy, if it goes through, brings the pass past the copy. -/
theorem Reached.put (h : c.Reached namespaces cl ((r, ns) :: rest)) (hkeyed : cl.Keyed)
    (hkey : copy.key = r.copyKey ns) (hmark : (c.ownership r).owns copy = true)
    (hcurrent : ∀ source, cl.secrets.get? r.source = some source → r.IsCurrent source copy) :
    c.Rely namespaces cl (cl.put (r.copyKey ns) copy) ∧
      c.Reached namespaces (cl.put (r.copyKey ns) copy) rest := by
  have hrely := rely_put hrules hdetached hkeyed h.mem hkey hmark hcurrent
  have hsettled : c.Settled r ns (cl.put (r.copyKey ns) copy) :=
    settled_put_self (ne_source_of_mem_targets h.mem) (hrules.slash_free_targets _ h.mem) hmark
      hcurrent
  exact ⟨hrely, (h.rely hrely).next hsettled⟩

/-- A copy that was missing is made, unless another pass has settled it. -/
theorem Reached.step_create (h : c.Reached namespaces cl ((r, ns) :: rest)) (hf : cl.faults = {})
    (hkeyed : cl.Keyed) (summary : PassSummary)
    (hsource : cl.secrets.get? r.source = some source)
    (hfree : cl.secrets.get? (r.copyKey ns) = none ∨ c.Settled r ns cl) :
    let step := ((Decision.create (c.newCopy r ns source)).carryOut.bind
      (c.afterCopy rest summary)).step Cluster.direct cl
    c.Rely namespaces cl step.2 ∧ c.Underway namespaces step.2 step.1 := by
  intro step
  rcases Cluster.create_cases cl (r.copyKey ns) (c.newCopy r ns source) with
    ⟨-, hcreate⟩ | ⟨fault, hcreate⟩
  · have hstep : step = (c.syncTargets rest (summary.record .created),
        cl.put (r.copyKey ns) (Cluster.withAssignedUid (r.copyKey ns) (c.newCopy r ns source))) := by
      simp [step, Decision.carryOut, Program.bind, Program.step, Cluster.direct, hcreate, reply,
        Except.map, afterCopy]
    rw [hstep]
    have hcurrent :=
      ((isCurrent_newCopy c r ns source).withAssignedUid (r.copyKey ns)).of_stored hsource
    obtain ⟨hrely, hreached⟩ := h.put hrules hdetached hkeyed (by simp) (by simp) hcurrent
    exact ⟨hrely, .between hreached _⟩
  · have hstep : step = (c.syncTargets rest summary.recordFailure, cl) := by
      simp [step, Decision.carryOut, Program.bind, Program.step, Cluster.direct, hcreate, reply,
        Except.map, afterCopy, SyncError.isWriteFailure]
    rw [hstep]
    have hsettled : c.Settled r ns cl := by
      rcases hfree with hfree | hsettled
      · -- nothing stands there, so the write cannot have been turned down
        rw [Cluster.create_of_calm hf hfree] at hcreate
        simp at hcreate
      · exact hsettled
    exact ⟨Rely.refl hkeyed, .between (h.next hsettled) _⟩

/-- A copy that was out of date is written again, unless another pass has settled it. -/
theorem Reached.step_replace (h : c.Reached namespaces cl ((r, ns) :: rest)) (hf : cl.faults = {})
    (hkeyed : cl.Keyed) (summary : PassSummary)
    (hsource : cl.secrets.get? r.source = some source)
    (hold : cl.secrets.get? (r.copyKey ns) = some old ∨ c.Settled r ns cl)
    (hkey : old.key = r.copyKey ns) (howns : (c.ownership r).owns old = true) :
    let step := ((Decision.replace (source.refreshed old (r.copyLabels source))).carryOut.bind
      (c.afterCopy rest summary)).step Cluster.direct cl
    c.Rely namespaces cl step.2 ∧ c.Underway namespaces step.2 step.1 := by
  intro step
  rcases Cluster.replace_cases cl (r.copyKey ns) (source.refreshed old (r.copyLabels source)) with
    ⟨-, -, -, hreplace⟩ | ⟨fault, hreplace⟩
  · have hstep : step = (c.syncTargets rest (summary.record .updated),
        cl.put (r.copyKey ns) (source.refreshed old (r.copyLabels source))) := by
      simp [step, Decision.carryOut, Program.bind, Program.step, Cluster.direct, hkey, hreplace,
        reply, Except.map, afterCopy]
    rw [hstep]
    have hcurrent := (isCurrent_refreshed r source old).of_stored hsource
    have hplace : (source.refreshed old (r.copyLabels source)).key = r.copyKey ns := hkey
    have hmark : (c.ownership r).owns (source.refreshed old (r.copyLabels source)) = true := howns
    obtain ⟨hrely, hreached⟩ := h.put hrules hdetached hkeyed hplace hmark hcurrent
    exact ⟨hrely, .between hreached _⟩
  · have hstep : step = (c.syncTargets rest summary.recordFailure, cl) := by
      simp [step, Decision.carryOut, Program.bind, Program.step, Cluster.direct, hkey, hreplace,
        reply, Except.map, afterCopy, SyncError.isWriteFailure]
    rw [hstep]
    have hsettled : c.Settled r ns cl := by
      rcases hold with hold | hsettled
      · -- the version that was read is still there, so the write cannot have been turned down
        have hv : old.metadata.resourceVersion =
            (source.refreshed old (r.copyLabels source)).metadata.resourceVersion := rfl
        rw [Cluster.replace_of_calm hf hold hv] at hreplace
        simp at hreplace
      · exact hsettled
    exact ⟨Rely.refl hkeyed, .between (h.next hsettled) _⟩

/-- Whatever call a pass makes, it disturbs no other one and stands at such a place again. -/
theorem Underway.step (h : c.Underway namespaces cl p) (hf : cl.faults = {})
    (hkeyed : cl.Keyed) (hnamespaces : cl.namespaces.map Namespace.snapshot = namespaces) :
    c.Rely namespaces cl (p.step Cluster.direct cl).2 ∧
      c.Underway namespaces (p.step Cluster.direct cl).2 (p.step Cluster.direct cl).1 := by
  cases h with
  | start =>
    by_cases hnone : c.spec.rules.isEmpty = true
    · have hpass : c.pass.step Cluster.direct cl = (c.pass, cl) := by
        rw [pass, if_pos hnone, Program.step]
      rw [hpass]
      exact ⟨Rely.refl hkeyed, .start⟩
    · have hpass : c.pass.step Cluster.direct cl =
          (c.syncTargets (c.targets namespaces) {}, cl) := by
        rw [pass, if_neg hnone, Program.step]
        simp [Cluster.direct, Cluster.list, hf, reply, Except.map, hnamespaces]
      rw [hpass]
      exact ⟨Rely.refl hkeyed, .between reached_targets {}⟩
  | between h summary =>
    obtain ⟨hcl, hunderway⟩ := h.step_read_source hf summary
    rw [hcl]
    exact ⟨Rely.refl hkeyed, hunderway⟩
  | place h summary hsource =>
    obtain ⟨hcl, hunderway⟩ := h.step_read_place hf hkeyed summary hsource
    rw [hcl]
    exact ⟨Rely.refl hkeyed, hunderway⟩
  | create h summary hsource hfree =>
    exact h.step_create hrules hdetached hf hkeyed summary hsource hfree
  | replace h summary hsource hold hkey howns =>
    exact h.step_replace hrules hdetached hf hkeyed summary hsource hold hkey howns

end Writes

/-- A pass at its end has no error, and all copies are settled. -/
theorem Underway.finished (h : c.Underway namespaces cl p) {result : Reply PassSummary}
    (hp : p = .done result) :
    (∃ summary, result = .ok summary) ∧ ∀ copy ∈ c.targets namespaces, c.Settled copy.1 copy.2 cl := by
  cases h with
  | start =>
    by_cases hnone : c.spec.rules.isEmpty = true
    · rw [pass, if_pos hnone] at hp
      cases hp
      refine ⟨⟨{}, rfl⟩, ?_⟩
      rw [targets, List.isEmpty_iff.1 hnone]
      simp
    · rw [pass, if_neg hnone] at hp
      cases hp
  | @between rest h summary =>
    cases rest with
    | nil =>
      cases hp
      exact ⟨⟨summary, rfl⟩, h.all_settled⟩
    | cons copy rest =>
      obtain ⟨r, ns⟩ := copy
      rw [syncTargets_cons, syncTarget_bind_of_ne (ne_source_of_mem_targets h.mem)] at hp
      cases hp
  | place h summary hsource => cases hp
  | create h summary hsource hfree => cases hp
  | replace h summary hsource hold hkey howns => cases hp

end Copier

open Copier in
/-- **Passes of one copier do not get in each other's way.**  Let any number of passes of one
copier be under way on a cluster where nothing else goes wrong and nobody else writes, and
let the rules be consistent and no copy go where a source is. Whatever the order of their
calls, a pass that has come to its end has no error, however many of its writes came too
late; and by then each copy of a source that is there stands in its place, and if it carries
the mark its type, its data and its labels are what they should be. -/
theorem concurrent_passes_converge {ι : Type} [DecidableEq ι] (c : Copier) (cl : Cluster)
    (hf : cl.faults = {}) (hkeyed : cl.Keyed)
    (hrules : c.Consistent (cl.namespaces.map Namespace.snapshot))
    (hdetached : c.Detached (cl.namespaces.map Namespace.snapshot))
    {now : Traffic Cluster ι (Reply PassSummary)}
    (h : Traffic.Reachable Cluster.direct (fun _ _ => False) ⟨cl, fun _ => c.pass⟩ now) (i : ι)
    {result : Reply PassSummary} (hdone : now.programs i = .done result) :
    (∃ summary, result = .ok summary) ∧ now.state.namespaces = cl.namespaces ∧
      c.Converged now.state := by
  have hnow := Traffic.invariant
    (fun s => s.faults = {} ∧ s.Keyed ∧ s.namespaces = cl.namespaces)
    (fun _ p s => c.Underway (cl.namespaces.map Namespace.snapshot) s p)
    (c.Rely (cl.namespaces.map Namespace.snapshot)) (fun _ hother => hother.elim) ?_ ?_ ?_
    ⟨hf, hkeyed, rfl⟩ (fun _ => .start) h
  · obtain ⟨⟨-, -, hnamespaces⟩, hunderway⟩ := hnow
    obtain ⟨hok, hsettled⟩ := (hunderway i).finished hdone
    refine ⟨hok, hnamespaces, ?_⟩
    rw [converged_iff, hnamespaces]
    exact fun r ns hmem => hsettled (r, ns) hmem
  · rintro i p s ⟨hf, hkeyed, hnamespaces⟩ hp
    exact hp.step hrules hdetached hf hkeyed (by rw [hnamespaces])
  · rintro s t ⟨hf, hkeyed, hnamespaces⟩ hrely
    exact ⟨hrely.faults_eq.trans hf, hrely.keyed, hrely.namespaces_eq.trans hnamespaces⟩
  · rintro i p s t - hrely hp
    exact hp.rely hrely

/-- Two passes race for the stale copy in the small cluster; the one that comes too late counts
a failure. -/
theorem concurrent_passes_converge_race :
    ∃ now : Traffic Cluster Bool (Reply PassSummary),
      Traffic.Reachable Cluster.direct (fun _ _ => False)
        ⟨Sample.cluster, fun _ => (Sample.team [Sample.spread]).pass⟩ now ∧
      now.programs false = .done (.ok { updated := 1 }) ∧
      now.programs true = .done (.ok { failed := 1 }) ∧
      (Sample.team [Sample.spread]).Converged now.state := by
  have hlist : Traffic.Reachable Cluster.direct (fun _ _ => False)
      ⟨Sample.cluster, fun _ : Bool => (Sample.team [Sample.spread]).pass⟩ _ :=
    .single (.call _ false)
  have hread := ((hlist.tail (.call _ true)).tail (.call _ false)).tail (.call _ true)
  have hplace := (hread.tail (.call _ false)).tail (.call _ true)
  have hwrite := (hplace.tail (.call _ false)).tail (.call _ true)
  obtain ⟨-, -, hconverged⟩ := concurrent_passes_converge _ _ rfl (Cluster.Keyed.start _ _)
    (by decide +kernel) (by decide +kernel) hwrite true rfl
  exact ⟨_, hwrite, rfl, rfl, hconverged⟩

end SecretFanout
