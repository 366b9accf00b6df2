import SecretFanout.Proofs.Flow

/-!
# Copies that are up to date

A copy that has the contents it should have is left alone. It comes to the same, versions aside,
as writing it again with these contents every time.

* `Policy`, `Copier.passBy` — passes in which copies are decided about in another way;
  `passBy_decide` says that by the copier's own decisions these are its passes.
* `Copier.decideAnew` — the decision without the test whether an update is due, and
  `Copier.rewritingPass` the passes by it.
* `Secret.standard` — a secret in a form that shows neither its version nor whether labels are
  missing or empty; `standard_refreshed_of_isCurrent` says that writing a copy again that is up to
  date does not show.
* `Cluster.Beside` — two clusters in which the same secrets stand in this form.
* `run_syncTarget_beside`, `run_syncTargets_beside`, `run_pass_beside` — one copy, all copies and a
  pass: clusters beside each other stay so, and what is left alone in one is written in the other.
* `rewriting_comes_to_the_same` — this said of passes one after the other.
-/

namespace SecretFanout

/-! ## Passes by other decisions -/

/-- A way to decide about a copy: from the rule, the namespace, the source and what stands in the
copy's place. -/
abbrev Policy := Rule → String → Secret → Option Secret → Decision

namespace Copier

/-- Works on one copy as a policy decides. -/
def syncTargetBy (decide : Policy) (r : Rule) (ns : String) : Program (Reply Outcome) :=
  if ns = r.source.ns then .done (.ok .sameNamespace)
  else
    .read r.source fun
      | .error e => .done (.error e)
      | .ok none => .done (.ok .sourceMissing)
      | .ok (some source) =>
        .read (r.copyKey ns) fun
          | .error e => .done (.error e)
          | .ok existing => (decide r ns source existing).carryOut

/-- Works on copies one after the other as a policy decides. -/
def syncTargetsBy (decide : Policy) : List (Rule × String) → PassSummary →
    Program (Reply PassSummary)
  | [], summary => .done (.ok summary)
  | (r, ns) :: rest, summary =>
    (syncTargetBy decide r ns).bind fun
      | .ok outcome => syncTargetsBy decide rest (summary.record outcome)
      | .error e =>
        if e.isWriteFailure then syncTargetsBy decide rest summary.recordFailure
        else .done (.error e)

/-- One pass over all rules as a policy decides. -/
def passBy (c : Copier) (decide : Policy) : Program (Reply PassSummary) :=
  if c.spec.rules.isEmpty then .done (.ok {})
  else
    .list fun
      | .error e => .done (.error e)
      | .ok namespaces => syncTargetsBy decide (c.targets namespaces) {}

variable {c : Copier} {copy : Rule × String} {copies : List (Rule × String)}

theorem syncTargetsBy_decide (c : Copier) (copies : List (Rule × String)) (summary : PassSummary) :
    syncTargetsBy c.decide copies summary = c.syncTargets copies summary := by
  induction copies generalizing summary with
  | nil => rfl
  | cons copy rest ih =>
    rw [syncTargetsBy, syncTargets]
    simp only [ih]
    rfl

/-- By the copier's own decisions it is the copier's pass. -/
theorem passBy_decide (c : Copier) : c.passBy c.decide = c.pass := by
  have hcopies : syncTargetsBy c.decide = c.syncTargets := funext₂ (syncTargetsBy_decide c)
  rw [passBy, hcopies]
  rfl

/-- The decision about a copy without the test whether an update is due: one that carries the mark
is always written again. -/
def decideAnew (c : Copier) : Policy
  | r, ns, source, none => .create (c.newCopy r ns source)
  | r, _, source, some existing =>
    if !(c.ownership r).owns existing then .leave .notManaged
    else .replace (source.refreshed existing (r.copyLabels source))

theorem decideAnew_of_owns {r : Rule} {ns : String} {source old : Secret}
    (h : (c.ownership r).owns old = true) :
    c.decideAnew r ns source (some old) =
      .replace (source.refreshed old (r.copyLabels source)) := by
  rw [decideAnew, h]
  rfl

theorem decideAnew_of_not_owns {r : Rule} {ns : String} {source old : Secret}
    (h : (c.ownership r).owns old = false) :
    c.decideAnew r ns source (some old) = .leave .notManaged := by
  rw [decideAnew, h]
  rfl

/-- A pass that writes every copy again that carries the mark. -/
def rewritingPass (c : Copier) : Program (Reply PassSummary) := c.passBy c.decideAnew

end Copier

/-- A cluster after passes of this kind, one after the other. -/
def Cluster.afterRewritingPasses (cl : Cluster) (passes : List Copier) : Cluster :=
  passes.foldl (fun cl c => (c.rewritingPass.run direct cl).2) cl

/-! ## What is left alone and what is written -/

/-- What becomes of a copy that is not left alone for being up to date. -/
def Outcome.anew : Outcome → Outcome
  | .unchanged => .updated
  | outcome => outcome

/-- The counts of a pass in which no copy is left alone for being up to date. -/
def PassSummary.anew (s : PassSummary) : PassSummary :=
  { s with updated := s.updated + s.unchanged, unchanged := 0 }

theorem PassSummary.anew_record (s : PassSummary) (outcome : Outcome) :
    (s.record outcome).anew = s.anew.record outcome.anew := by
  cases outcome <;> simp [record, anew, Outcome.anew] <;> omega

/-! ## Secrets without their versions -/

namespace Secret

/-- The secret in a form that shows neither its version nor whether labels are missing or empty. -/
def standard (s : Secret) : Secret :=
  { s with metadata := { s.metadata with resourceVersion := none, labels := some s.labels } }

@[simp] theorem standard_withVersion (s : Secret) (v : String) :
    (s.withVersion v).standard = s.standard := rfl

theorem standard_refreshed (source copy : Secret) (labels : TextMap) :
    (source.refreshed copy labels).standard = source.standard.refreshed copy.standard labels := rfl

/-- Writing a copy again that is up to date changes at most its version. -/
theorem standard_refreshed_of_isCurrent {r : Rule} {source copy : Secret}
    (h : r.IsCurrent source copy) :
    (source.refreshed copy (r.copyLabels source)).standard = copy.standard := by
  obtain ⟨htype, hdata, hlabels⟩ := h
  rw [standard, standard, hlabels, refreshed, ← htype, ← hdata]
  rfl

end Secret

section Standard

variable {c : Copier} {r : Rule} {ns : String} {source source' old old' : Secret}

theorem Copier.newCopy_congr (h : source'.standard = source.standard) :
    c.newCopy r ns source' = c.newCopy r ns source := by
  show c.newCopy r ns source'.standard = c.newCopy r ns source.standard
  rw [h]

theorem Rule.copyLabels_congr (h : source'.standard = source.standard) :
    r.copyLabels source' = r.copyLabels source := by
  show r.copyLabels source'.standard = r.copyLabels source.standard
  rw [h]

theorem Ownership.owns_congr (o : Ownership) (h : old'.standard = old.standard) :
    o.owns old' = o.owns old := by
  show o.owns old'.standard = o.owns old.standard
  rw [h]

end Standard

/-! ## Clusters beside each other -/

namespace Cluster

variable {cl cl' : Cluster} {key : SecretKey} {x x' : Secret}

/-- Two clusters turn no call down, have the same namespaces, and hold the same secrets under
their own keys, versions aside. -/
structure Beside (cl cl' : Cluster) : Prop where
  /-- The first one turns no call down. -/
  calm : cl.faults = {}
  /-- The second one turns no call down. -/
  calm' : cl'.faults = {}
  /-- In the first one secrets stand under their own keys. -/
  keyed : cl.Keyed
  /-- In the second one secrets stand under their own keys. -/
  keyed' : cl'.Keyed
  /-- They have the same namespaces. -/
  namespaces_eq : cl'.namespaces = cl.namespaces
  /-- They hold the same secrets. -/
  same : ∀ key,
    (cl'.secrets.get? key).map Secret.standard = (cl.secrets.get? key).map Secret.standard

theorem Beside.refl (hf : cl.faults = {}) (hkeyed : cl.Keyed) : cl.Beside cl :=
  ⟨hf, hf, hkeyed, hkeyed, rfl, fun _ => rfl⟩

theorem Beside.missing (h : cl.Beside cl') (hx : cl.secrets.get? key = none) :
    cl'.secrets.get? key = none := by
  have hsame := h.same key
  rw [hx] at hsame
  exact Option.map_eq_none_iff.1 hsame

theorem Beside.found (h : cl.Beside cl') (hx : cl.secrets.get? key = some x) :
    ∃ x', cl'.secrets.get? key = some x' ∧ x'.standard = x.standard := by
  have hsame := h.same key
  rw [hx] at hsame
  exact Option.map_eq_some_iff.1 hsame

/-- The same secret is stored in both. -/
theorem Beside.put (h : cl.Beside cl') (hkey : x.key = key) (hkey' : x'.key = key)
    (hsame : x'.standard = x.standard) : (cl.put key x).Beside (cl'.put key x') := by
  refine ⟨h.calm, h.calm', h.keyed.put hkey, h.keyed'.put hkey', h.namespaces_eq, ?_⟩
  intro k
  rw [get?_put, get?_put]
  split
  · simpa using hsame
  · exact h.same k

/-- What is stored in the first one is stored again in the second one. -/
theorem Beside.putAgain (h : cl.Beside cl') (hx : cl.secrets.get? key = some x)
    (hkey' : x'.key = key) (hsame : x'.standard = x.standard) : cl.Beside (cl'.put key x') := by
  refine ⟨h.calm, h.calm', h.keyed, h.keyed'.put hkey', h.namespaces_eq, ?_⟩
  intro k
  rw [get?_put]
  split
  · next hk => simpa [hk, hx] using hsame
  · exact h.same k

end Cluster

namespace Copier

variable {c : Copier} {copy : Rule × String} {copies : List (Rule × String)} {cl cl' : Cluster}

/-- On a calm cluster a copy is worked on as is decided about what is stored. -/
theorem run_syncTargetBy_of_calm (decide : Policy) (hf : cl.faults = {})
    (hns : copy.2 ≠ copy.1.source.ns) :
    (syncTargetBy decide copy.1 copy.2).run Cluster.direct cl =
      match cl.secrets.get? copy.1.source with
      | none => (.ok .sourceMissing, cl)
      | some source =>
        (decide copy.1 copy.2 source (cl.secrets.get? (placeOf copy))).carryOut.run
          Cluster.direct cl := by
  rw [syncTargetBy, if_neg hns, Program.run, Cluster.direct_read_of_calm hf]
  cases cl.secrets.get? copy.1.source with
  | none => rfl
  | some source => simp [Program.run, Cluster.direct_read_of_calm hf]

/-- A calm cluster adds a copy where nothing stands. -/
theorem run_carryOut_create (hf : cl.faults = {}) {x : Secret} {key : SecretKey}
    (hkey : x.key = key) (hfree : cl.secrets.get? key = none) :
    (Decision.create x).carryOut.run Cluster.direct cl =
      (.ok .created, cl.put key (Cluster.withAssignedUid key x)) := by
  subst hkey
  simp [Decision.carryOut, Program.run, Cluster.direct, reply, Except.map,
    Cluster.create_of_calm hf hfree]

/-- A calm cluster replaces a copy by one that was made from it. -/
theorem run_carryOut_replace (hf : cl.faults = {}) {x old : Secret} {key : SecretKey}
    (hkey : x.key = key) (hold : cl.secrets.get? key = some old)
    (hversion : old.metadata.resourceVersion = x.metadata.resourceVersion) :
    (Decision.replace x).carryOut.run Cluster.direct cl = (.ok .updated, cl.put key x) := by
  subst hkey
  simp [Decision.carryOut, Program.run, Cluster.direct, reply, Except.map,
    Cluster.replace_of_calm hf hold hversion]

/-- A copy that carries the mark is written again in the second cluster, with the contents that it
should have. -/
theorem run_decideAnew_of_owns (h : cl.Beside cl') {source source' old : Secret}
    (hsource : source'.standard = source.standard)
    (hold : cl.secrets.get? (placeOf copy) = some old)
    (howns : (c.ownership copy.1).owns old = true) :
    ∃ new, (c.decideAnew copy.1 copy.2 source' (cl'.secrets.get? (placeOf copy))).carryOut.run
        Cluster.direct cl' = (.ok .updated, cl'.put (placeOf copy) new) ∧
      new.key = placeOf copy ∧
      new.standard = (source.refreshed old (copy.1.copyLabels source)).standard := by
  obtain ⟨old', hold', hsame⟩ := h.found hold
  have hkey' : old'.key = placeOf copy := h.keyed' _ _ hold'
  refine ⟨source'.refreshed old' (copy.1.copyLabels source'), ?_, hkey', ?_⟩
  · rw [hold', decideAnew_of_owns ((Ownership.owns_congr _ hsame).trans howns)]
    exact run_carryOut_replace h.calm' hkey' hold' rfl
  · rw [Secret.standard_refreshed, Secret.standard_refreshed, hsource, hsame,
      Rule.copyLabels_congr hsource]

/-- One copy is worked on in both clusters, and in the second one it is written even if it is up to
date. -/
theorem run_syncTarget_beside (c : Copier) (h : cl.Beside cl') (hns : copy.2 ≠ copy.1.source.ns) :
    ∃ outcome now now',
      (syncTargetBy c.decide copy.1 copy.2).run Cluster.direct cl = (.ok outcome, now) ∧
      (syncTargetBy c.decideAnew copy.1 copy.2).run Cluster.direct cl' = (.ok outcome.anew, now') ∧
      now.Beside now' := by
  rw [run_syncTargetBy_of_calm c.decide h.calm hns,
    run_syncTargetBy_of_calm c.decideAnew h.calm' hns]
  cases hs : cl.secrets.get? copy.1.source with
  | none =>
    rw [h.missing hs]
    exact ⟨_, _, _, rfl, rfl, h⟩
  | some source =>
    obtain ⟨source', hs', hsource⟩ := h.found hs
    rw [hs']
    dsimp only
    cases hd : c.decide copy.1 copy.2 source (cl.secrets.get? (placeOf copy)) with
    | create new =>
      obtain ⟨hfree, rfl⟩ := decide_eq_create_iff.1 hd
      rw [h.missing hfree, decideAnew, newCopy_congr hsource]
      exact ⟨_, _, _, run_carryOut_create h.calm (key_newCopy ..) hfree,
        run_carryOut_create h.calm' (key_newCopy ..) (h.missing hfree), h.put rfl rfl rfl⟩
    | replace new =>
      obtain ⟨old, hold, howns, -, rfl⟩ := decide_eq_replace_iff.1 hd
      obtain ⟨new', hrun', hkey', hsame⟩ := run_decideAnew_of_owns h hsource hold howns
      have hkey : old.key = placeOf copy := h.keyed _ _ hold
      exact ⟨_, _, _, run_carryOut_replace h.calm hkey hold rfl, hrun', h.put hkey hkey' hsame⟩
    | leave outcome =>
      obtain ⟨old, hold, ⟨rfl, howns⟩ | ⟨rfl, howns, hcurrent⟩⟩ := decide_eq_leave hd
      · obtain ⟨old', hold', hsame⟩ := h.found hold
        rw [hold', decideAnew_of_not_owns ((Ownership.owns_congr _ hsame).trans howns)]
        exact ⟨_, _, _, rfl, rfl, h⟩
      · -- the copy is left alone in the first cluster, and written as it is in the second one
        obtain ⟨new', hrun', hkey', hsame⟩ := run_decideAnew_of_owns h hsource hold howns
        exact ⟨_, _, _, rfl, hrun',
          h.putAgain hold hkey' (hsame.trans (Secret.standard_refreshed_of_isCurrent hcurrent))⟩

/-- All copies are worked on in both clusters. -/
theorem run_syncTargets_beside (c : Copier) (h : cl.Beside cl')
    (hns : ∀ copy ∈ copies, copy.2 ≠ copy.1.source.ns) (summary : PassSummary) :
    ∃ final now now',
      (syncTargetsBy c.decide copies summary).run Cluster.direct cl = (.ok final, now) ∧
      (syncTargetsBy c.decideAnew copies summary.anew).run Cluster.direct cl' =
        (.ok final.anew, now') ∧
      now.Beside now' := by
  induction copies generalizing cl cl' summary with
  | nil => exact ⟨summary, cl, cl', rfl, rfl, h⟩
  | cons copy rest ih =>
    obtain ⟨outcome, mid, mid', hfirst, hfirst', hmid⟩ :=
      run_syncTarget_beside c h (hns copy (by simp))
    obtain ⟨final, now, now', hrest, hrest', hnow⟩ :=
      ih hmid (fun copy hc => hns copy (by simp [hc])) (summary.record outcome)
    refine ⟨final, now, now', ?_, ?_, hnow⟩
    · rw [syncTargetsBy, Program.run_bind, hfirst]
      exact hrest
    · rw [syncTargetsBy, Program.run_bind, hfirst']
      dsimp only
      rw [← PassSummary.anew_record]
      exact hrest'

/-- A pass is made in both clusters. -/
theorem run_pass_beside (c : Copier) (h : cl.Beside cl') :
    ∃ summary now now',
      c.pass.run Cluster.direct cl = (.ok summary, now) ∧
      c.rewritingPass.run Cluster.direct cl' = (.ok summary.anew, now') ∧
      now.Beside now' := by
  rw [← passBy_decide, rewritingPass, passBy, passBy]
  by_cases hrules : c.spec.rules.isEmpty = true
  · rw [if_pos hrules, if_pos hrules]
    exact ⟨{}, cl, cl', rfl, rfl, h⟩
  · rw [if_neg hrules, if_neg hrules, Program.run, Program.run,
      (Cluster.readable_of_calm h.calm).list, (Cluster.readable_of_calm h.calm').list,
      h.namespaces_eq]
    exact run_syncTargets_beside c h (fun _ hmem => ne_source_of_mem_targets hmem) {}

end Copier

/-- Passes one after the other are made in both clusters. -/
theorem beside_afterPasses {cl cl' : Cluster} (h : cl.Beside cl') (passes : List Copier) :
    (cl.afterPasses passes).Beside (cl'.afterRewritingPasses passes) := by
  induction passes generalizing cl cl' with
  | nil => exact h
  | cons c rest ih =>
    obtain ⟨summary, now, now', hrun, hrun', hnow⟩ := Copier.run_pass_beside c h
    rw [Cluster.afterPasses_cons, Cluster.afterRewritingPasses, List.foldl_cons, hrun, hrun']
    exact ih hnow

/-- **Leaving alone what is up to date comes to the same as writing it again.**  Let a cluster turn
no call down. After passes of any copiers the same secrets stand in it as after passes that write
every copy again that carries the mark, versions and the difference between missing and empty labels
aside. In each pass the same copies are made, passed over and written, but for those that are up to
date, which are left alone by the one and written by the other. -/
theorem rewriting_comes_to_the_same (cl : Cluster) (hf : cl.faults = {}) (hkeyed : cl.Keyed)
    (passes : List Copier) :
    (∀ key, ((cl.afterRewritingPasses passes).secrets.get? key).map Secret.standard =
      ((cl.afterPasses passes).secrets.get? key).map Secret.standard) ∧
    ∀ earlier c later, passes = earlier ++ c :: later →
      ∃ summary now summary' now',
        c.pass.run Cluster.direct (cl.afterPasses earlier) = (.ok summary, now) ∧
        c.rewritingPass.run Cluster.direct (cl.afterRewritingPasses earlier) =
          (.ok summary', now') ∧
        summary'.created = summary.created ∧
        summary'.updated = summary.updated + summary.unchanged ∧ summary'.unchanged = 0 ∧
        summary'.skipped = summary.skipped ∧ summary.failed = 0 ∧ summary'.failed = 0 := by
  constructor
  · exact (beside_afterPasses (.refl hf hkeyed) passes).same
  · rintro earlier c later -
    have hbeside := beside_afterPasses (.refl hf hkeyed) earlier
    obtain ⟨summary, now, now', hrun, hrun', -⟩ := Copier.run_pass_beside c hbeside
    obtain ⟨summary₁, now₁, hrun₁, hfailed, -⟩ := Copier.view_of_calm c hbeside.calm hbeside.keyed
    rw [hrun] at hrun₁
    cases hrun₁
    exact ⟨summary, now, summary.anew, now', hrun, hrun', rfl, rfl, rfl, rfl, hfailed, hfailed⟩

/-- In the small cluster the second pass of the first copier finds its copy up to date; where copies
are written again it writes it, and the copy that was made from it in between is the same. -/
theorem rewriting_comes_to_the_same_onward :
    (((Sample.cluster.afterRewritingPasses [Sample.team [Sample.spread], Sample.relay,
        Sample.team [Sample.spread]]).secrets.get? ⟨"vault", "echo"⟩).map Secret.standard =
      ((Sample.cluster.afterPasses [Sample.team [Sample.spread], Sample.relay,
        Sample.team [Sample.spread]]).secrets.get? ⟨"vault", "echo"⟩).map Secret.standard) ∧
    ∃ summary now summary' now',
      (Sample.team [Sample.spread]).pass.run Cluster.direct
        (Sample.cluster.afterPasses [Sample.team [Sample.spread], Sample.relay]) =
          (.ok summary, now) ∧
      (Sample.team [Sample.spread]).rewritingPass.run Cluster.direct
        (Sample.cluster.afterRewritingPasses [Sample.team [Sample.spread], Sample.relay]) =
          (.ok summary', now') ∧
      summary = { unchanged := 1 } ∧ summary' = { updated := 1 } := by
  have hkeyed : Sample.cluster.Keyed := Cluster.Keyed.start _ _
  obtain ⟨hsame, hcounts⟩ := rewriting_comes_to_the_same Sample.cluster rfl hkeyed
    [Sample.team [Sample.spread], Sample.relay, Sample.team [Sample.spread]]
  refine ⟨hsame _, ?_⟩
  obtain ⟨summary, now, summary', now', hrun, hrun', -⟩ :=
    hcounts [Sample.team [Sample.spread], Sample.relay] _ [] rfl
  have hsummary : ((Sample.team [Sample.spread]).pass.run Cluster.direct
      (Sample.cluster.afterPasses [Sample.team [Sample.spread], Sample.relay])).1.toOption =
        some { unchanged := 1 } := by decide +kernel
  have hsummary' : ((Sample.team [Sample.spread]).rewritingPass.run Cluster.direct
      (Sample.cluster.afterRewritingPasses
        [Sample.team [Sample.spread], Sample.relay])).1.toOption =
        some { updated := 1 } := by decide +kernel
  rw [hrun] at hsummary
  rw [hrun'] at hsummary'
  exact ⟨summary, now, summary', now', hrun, hrun', Option.some.inj hsummary,
    Option.some.inj hsummary'⟩

end SecretFanout
