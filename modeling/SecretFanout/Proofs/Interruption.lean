import SecretFanout.Proofs.Reentry
import SecretFanout.Proofs.Reports

/-!
# Interrupted passes

Passes whose calls are turned down at will: any call of any pass, for any cause. A call that is
turned down changes nothing, and a pass goes on after a failed write and ends at any other
failure. Whatever has come of such passes, one that nothing interrupts makes up for it.

* `Gateway.flaky` — calls are turned down as a script says, and answered as before otherwise.
* `run_syncTarget_flaky` — one copy: it is brought up to date, or a call failed and nothing was
  changed.
* `run_syncTargets_flaky`, `run_pass_flaky` — a pass brings some of its copies up to date, and
  where it ends with an error it has gone through the copies before one, and no further.
* `Cluster.interrupted` — a cluster after passes that go by scripts.
* `interrupted_passes_leave_no_trace` — a pass afterwards leaves what it would have left without
  them.
-/

namespace SecretFanout

/-! ## Calls that fail by a script -/

/-- Why the next call is turned down, if it is; calls beyond the script are answered. -/
def nextRefusal : List (Option Cause) → Option Cause
  | some cause :: _ => some cause
  | _ => none

/-- Turns a call down if the script says so, and has it answered otherwise. -/
def answerOr {α σ : Type} (error : Cause → SyncError) (answer : σ → Reply α × σ)
    (s : σ × List (Option Cause)) : Reply α × (σ × List (Option Cause)) :=
  match nextRefusal s.2 with
  | some cause => (.error (error cause), s.1, s.2.tail)
  | none => ((answer s.1).1, (answer s.1).2, s.2.tail)

theorem answerOr_of_none {α σ : Type} {script : List (Option Cause)} (h : nextRefusal script = none)
    (error : Cause → SyncError) (answer : σ → Reply α × σ) (s : σ) :
    answerOr error answer (s, script) = ((answer s).1, (answer s).2, script.tail) := by
  rw [answerOr, h]

theorem answerOr_of_some {α σ : Type} {script : List (Option Cause)} {cause : Cause}
    (h : nextRefusal script = some cause) (error : Cause → SyncError) (answer : σ → Reply α × σ)
    (s : σ) : answerOr error answer (s, script) = (.error (error cause), s, script.tail) := by
  rw [answerOr, h]

/-- A gateway whose calls are turned down by a script, which has an entry for each call. -/
def Gateway.flaky {σ : Type} (g : Gateway σ) : Gateway (σ × List (Option Cause)) where
  list := answerOr .listing g.list
  read key := answerOr (.reading key) (g.read key)
  create secret := answerOr (.writing .create secret.key) (g.create secret)
  replace secret := answerOr (.writing .replace secret.key) (g.replace secret)

/-- Some reading of this copy failed. -/
def SyncError.IsReadingOf (copy : Rule × String) (e : SyncError) : Prop :=
  ∃ cause, e = .reading copy.1.source cause ∨ e = .reading (placeOf copy) cause

namespace Copier

variable {c : Copier} {copy : Rule × String} {cl : Cluster} {copies : List (Rule × String)}

/-! ## One copy -/

/-- A decision is carried out as it would be, or the write fails. -/
theorem run_carryOut_flaky {σ : Type} (g : Gateway σ) (d : Decision) (s : σ)
    (script : List (Option Cause)) :
    (∃ script', d.carryOut.run g.flaky (s, script) =
      ((d.carryOut.run g s).1, (d.carryOut.run g s).2, script')) ∨
    ∃ e script', d.carryOut.run g.flaky (s, script) = (.error e, s, script') ∧
      e.isWriteFailure = true := by
  cases d with
  | leave outcome => exact Or.inl ⟨script, rfl⟩
  | create secret =>
    cases hnext : nextRefusal script with
    | none =>
      refine Or.inl ⟨script.tail, ?_⟩
      simp [Decision.carryOut, Program.run, Gateway.flaky, answerOr_of_none hnext]
    | some cause =>
      refine Or.inr ⟨.writing .create secret.key cause, script.tail, ?_, rfl⟩
      simp [Decision.carryOut, Program.run, Gateway.flaky, answerOr_of_some hnext, Except.map]
  | replace secret =>
    cases hnext : nextRefusal script with
    | none =>
      refine Or.inl ⟨script.tail, ?_⟩
      simp [Decision.carryOut, Program.run, Gateway.flaky, answerOr_of_none hnext]
    | some cause =>
      refine Or.inr ⟨.writing .replace secret.key cause, script.tail, ?_, rfl⟩
      simp [Decision.carryOut, Program.run, Gateway.flaky, answerOr_of_some hnext, Except.map]

/-- A calm cluster carries out what is decided. -/
theorem run_carryOut_of_calm (c : Copier) (copy : Rule × String) (hf : cl.faults = {})
    (hkeyed : cl.Keyed) :
    ∃ outcome, (c.verdict copy cl.secrets.get?).carryOut.run Cluster.direct cl =
      (.ok outcome, c.visited copy cl) := by
  have hrun := run_carryOut_verdict c copy hkeyed []
  obtain ⟨hreply, hstate⟩ := Program.run_recorded Cluster.direct
    (c.verdict copy cl.secrets.get?).carryOut cl []
  rw [hrun] at hreply hstate
  have hwritable : placeOf copy ∉ cl.faults.writes := by simp [hf]
  have hok : ∃ outcome, (c.verdict copy cl.secrets.get?).reply (placeOf copy) false =
      .ok outcome := by
    cases c.verdict copy cl.secrets.get? with
    | create secret => exact ⟨.created, rfl⟩
    | replace secret => exact ⟨.updated, rfl⟩
    | leave outcome => exact ⟨outcome, rfl⟩
  obtain ⟨outcome, houtcome⟩ := hok
  refine ⟨outcome, Prod.ext ?_ hstate.symm⟩
  rw [← hreply, decide_eq_false hwritable, houtcome]

/-- Without its source a copy is not worked on. -/
theorem visited_of_missing (h : cl.secrets.get? copy.1.source = none) : c.visited copy cl = cl := by
  rw [visited, verdict, h]
  exact ite_self cl

/-- The work on a copy is done, or a call failed and nothing was changed. -/
theorem run_syncTarget_flaky (hf : cl.faults = {}) (hkeyed : cl.Keyed)
    (hns : copy.2 ≠ copy.1.source.ns) (script : List (Option Cause)) :
    (∃ outcome script', (c.syncTarget copy.1 copy.2).run Cluster.direct.flaky (cl, script) =
      (.ok outcome, c.visited copy cl, script')) ∨
    ∃ e script', (c.syncTarget copy.1 copy.2).run Cluster.direct.flaky (cl, script) =
      (.error e, cl, script') ∧ (e.isWriteFailure = true ∨ e.IsReadingOf copy) := by
  have hread := (Cluster.readable_of_calm hf).read
  cases hnext : nextRefusal script with
  | some cause =>
    refine Or.inr ⟨.reading copy.1.source cause, script.tail, ?_, Or.inr ⟨cause, Or.inl rfl⟩⟩
    simp [syncTarget, hns, Gateway.flaky, answerOr_of_some hnext, Program.run]
  | none =>
    cases hs : cl.secrets.get? copy.1.source with
    | none =>
      refine Or.inl ⟨.sourceMissing, script.tail, ?_⟩
      simp [syncTarget, hns, Gateway.flaky, answerOr_of_none hnext, hread, hs, Program.run,
        visited_of_missing hs]
    | some source =>
      cases hnext' : nextRefusal script.tail with
      | some cause =>
        refine Or.inr ⟨.reading (placeOf copy) cause, script.tail.tail, ?_,
          Or.inr ⟨cause, Or.inr rfl⟩⟩
        simp [syncTarget, hns, Gateway.flaky, answerOr_of_none hnext, answerOr_of_some hnext', hread,
          hs, Program.run]
      | none =>
        have hverdict : c.verdict copy cl.secrets.get? =
            c.decide copy.1 copy.2 source (cl.secrets.get? (placeOf copy)) := by
          rw [verdict, hs]
        -- both readings were answered, what is left is the decision
        have hrun : (c.syncTarget copy.1 copy.2).run Cluster.direct.flaky (cl, script) =
            (c.verdict copy cl.secrets.get?).carryOut.run Cluster.direct.flaky
              (cl, script.tail.tail) := by
          simp [syncTarget, hns, Gateway.flaky, answerOr_of_none hnext, answerOr_of_none hnext',
            hread, hs, Program.run, hverdict]
        rw [hrun]
        rcases run_carryOut_flaky Cluster.direct (c.verdict copy cl.secrets.get?) cl
          script.tail.tail with ⟨script', hdone⟩ | ⟨e, script', hfailed, he⟩
        · obtain ⟨outcome, hcalm⟩ := run_carryOut_of_calm c copy hf hkeyed
          rw [hcalm] at hdone
          exact Or.inl ⟨outcome, script', hdone⟩
        · exact Or.inr ⟨e, script', hfailed, Or.inl he⟩

/-! ## Passes -/

/-- A pass goes on after a copy that it brought up to date or left alone, and ends where a
reading fails. -/
theorem run_syncTargets_cons_flaky (hf : cl.faults = {}) (hkeyed : cl.Keyed)
    (hns : copy.2 ≠ copy.1.source.ns) (summary : PassSummary) (script : List (Option Cause)) :
    (∃ mid summary' script' written, written.Sublist [copy] ∧ cl.GoesOn mid ∧
      mid.view = c.syncedAll written cl.view ∧
      ∀ rest, (c.syncTargets (copy :: rest) summary).run Cluster.direct.flaky (cl, script) =
        (c.syncTargets rest summary').run Cluster.direct.flaky (mid, script')) ∨
    ∃ e script', e.IsReadingOf copy ∧
      ∀ rest, (c.syncTargets (copy :: rest) summary).run Cluster.direct.flaky (cl, script) =
        (.error e, cl, script') := by
  rcases run_syncTarget_flaky (c := c) hf hkeyed hns script with
    ⟨outcome, script', hdone⟩ | ⟨e, script', hfailed, hwriting | hreading⟩
  · refine Or.inl ⟨c.visited copy cl, summary.record outcome, script', [copy], .refl _,
      goesOn_visited hkeyed, ?_, ?_⟩
    · simp [view_visited, hf]
    · intro rest
      rw [syncTargets, Program.run_bind, hdone]
  · refine Or.inl ⟨cl, summary.recordFailure, script', [], List.nil_sublist _, .refl hkeyed, rfl,
      ?_⟩
    intro rest
    rw [syncTargets, Program.run_bind, hfailed]
    simp [hwriting]
  · refine Or.inr ⟨e, script', hreading, ?_⟩
    have he : e.isWriteFailure = false := by
      obtain ⟨cause, rfl | rfl⟩ := hreading <;> rfl
    intro rest
    rw [syncTargets, Program.run_bind, hfailed]
    simp [he, Program.run]

/-- The copies before one of these were gone through, whether their writes failed or not, and
then this one could not be read: what is there is what the copies before it have come to. -/
def StoppedIn (c : Copier) (copies : List (Rule × String)) (summary : PassSummary) (cl : Cluster)
    (script : List (Option Cause)) (e : SyncError) (after : Cluster) : Prop :=
  ∃ done copy rest final script', copies = done ++ copy :: rest ∧ e.IsReadingOf copy ∧
    (c.syncTargets done summary).run Cluster.direct.flaky (cl, script) = (.ok final, after, script')

/-- Some of the copies are brought up to date, and where the pass ends with an error it was
stopped in the copies. -/
theorem run_syncTargets_flaky (hf : cl.faults = {}) (hkeyed : cl.Keyed)
    (hns : ∀ copy ∈ copies, copy.2 ≠ copy.1.source.ns) (summary : PassSummary)
    (script : List (Option Cause)) :
    ∃ reply after script' written,
      (c.syncTargets copies summary).run Cluster.direct.flaky (cl, script) =
        (reply, after, script') ∧
      cl.GoesOn after ∧ written.Sublist copies ∧ after.view = c.syncedAll written cl.view ∧
      ∀ e, reply = .error e → c.StoppedIn copies summary cl script e after := by
  induction copies generalizing cl summary script with
  | nil => exact ⟨.ok summary, cl, script, [], rfl, .refl hkeyed, .slnil, rfl, by simp⟩
  | cons copy rest ih =>
    rcases run_syncTargets_cons_flaky (c := c) hf hkeyed (hns copy (by simp)) summary script with
      ⟨mid, summary₁, script₁, first, hfirst, hgoes, hview, hnext⟩ | ⟨e, script₁, he, hend⟩
    · obtain ⟨reply, after, script', written, hrun, hafter, hwritten, hviewAfter, hstopped⟩ :=
        ih (hgoes.faults_eq.trans hf) hgoes.keyed (fun copy hc => hns copy (by simp [hc])) summary₁
          script₁
      refine ⟨reply, after, script', first ++ written, (hnext rest).trans hrun, hgoes.trans hafter,
        hfirst.append hwritten, ?_, ?_⟩
      · rw [hviewAfter, hview, syncedAll_append]
      · intro e he
        obtain ⟨done, last, more, final, script'', rfl, hreading, hdone⟩ := hstopped e he
        exact ⟨copy :: done, last, more, final, script'', rfl, hreading, (hnext done).trans hdone⟩
    · refine ⟨.error e, cl, script₁, [], hend rest, .refl hkeyed, List.nil_sublist _, rfl, ?_⟩
      intro _ hend
      cases hend
      exact ⟨[], copy, rest, summary, script, rfl, he, rfl⟩

/-- A pass whose calls may be turned down brings some of its copies up to date. Where it ends with
an error it could not list the namespaces and has done nothing, or it was stopped in its copies. -/
theorem run_pass_flaky (c : Copier) (hf : cl.faults = {}) (hkeyed : cl.Keyed)
    (script : List (Option Cause)) :
    ∃ reply after script' written,
      c.pass.run Cluster.direct.flaky (cl, script) = (reply, after, script') ∧
      cl.GoesOn after ∧ written.Sublist (c.copiesIn cl) ∧
      after.view = c.syncedAll written cl.view ∧
      ∀ e, reply = .error e → (∃ cause, e = .listing cause ∧ after = cl) ∨
        c.StoppedIn (c.copiesIn cl) {} cl script.tail e after := by
  have hlist := (Cluster.readable_of_calm hf).list
  by_cases hrules : c.spec.rules.isEmpty = true
  · refine ⟨.ok {}, cl, script, [], ?_, .refl hkeyed, List.nil_sublist _, rfl, by simp⟩
    rw [pass, if_pos hrules, Program.run]
  · cases hnext : nextRefusal script with
    | some cause =>
      refine ⟨.error (.listing cause), cl, script.tail, [], ?_, .refl hkeyed, List.nil_sublist _,
        rfl, ?_⟩
      · simp [pass, hrules, Gateway.flaky, answerOr_of_some hnext, Program.run]
      · intro _ hend
        cases hend
        exact Or.inl ⟨cause, rfl, rfl⟩
    | none =>
      obtain ⟨reply, after, script', written, hrun, hgoes, hwritten, hview, hstopped⟩ :=
        run_syncTargets_flaky (c := c) hf hkeyed (fun _ hmem => ne_source_of_mem_targets hmem) {}
          script.tail
      refine ⟨reply, after, script', written, ?_, hgoes, hwritten, hview,
        fun e he => Or.inr (hstopped e he)⟩
      rw [← hrun]
      simp [pass, hrules, Gateway.flaky, answerOr_of_none hnext, hlist, Program.run]

end Copier

/-! ## Passes one after the other -/

/-- A cluster after passes of a copier that go by scripts. -/
def Cluster.interrupted (cl : Cluster) (c : Copier) (scripts : List (List (Option Cause))) :
    Cluster :=
  scripts.foldl (fun cl script => (c.pass.run direct.flaky (cl, script)).2.1) cl

/-- Interrupted passes bring copies up to date, and do nothing else. -/
theorem goesOn_interrupted (c : Copier) {cl : Cluster} (hf : cl.faults = {}) (hkeyed : cl.Keyed)
    (scripts : List (List (Option Cause))) :
    ∃ written, cl.GoesOn (cl.interrupted c scripts) ∧ (∀ copy ∈ written, copy ∈ c.copiesIn cl) ∧
      (cl.interrupted c scripts).view = c.syncedAll written cl.view := by
  induction scripts generalizing cl with
  | nil => exact ⟨[], .refl hkeyed, by simp, rfl⟩
  | cons script scripts ih =>
    obtain ⟨reply, mid, script', first, hrun, hgoes, hfirst, hview, -⟩ :=
      Copier.run_pass_flaky c hf hkeyed script
    obtain ⟨written, hafter, hwritten, hviewAfter⟩ := ih (hgoes.faults_eq.trans hf) hgoes.keyed
    have hsame : c.copiesIn mid = c.copiesIn cl := c.copiesIn_of_goesOn hgoes
    have hnext : cl.interrupted c (script :: scripts) = mid.interrupted c scripts := by
      rw [Cluster.interrupted, List.foldl_cons, hrun, Cluster.interrupted]
    rw [hnext]
    refine ⟨first ++ written, hgoes.trans hafter, ?_, ?_⟩
    · intro copy hcopy
      rcases List.mem_append.1 hcopy with hcopy | hcopy
      · exact hfirst.subset hcopy
      · exact hsame ▸ hwritten copy hcopy
    · rw [hviewAfter, hview, Copier.syncedAll_append]

/-- **Interrupted passes leave no trace.**  Let a cluster turn no call down of itself, and let
passes of a copier be run in which any calls are turned down, for any cause. Then:

* A pass in which no call is turned down ends without an error and without a failed write. If no
  two rules of the copier make copies in the same place and none goes where a source is, then it
  leaves what it would have left at the outset, versions and identities aside.
* A pass that ends with an error could not list the namespaces and has changed nothing, or it has
  gone through its copies in order up to one that could not be read. -/
theorem interrupted_passes_leave_no_trace (c : Copier) (cl : Cluster) (hf : cl.faults = {})
    (hkeyed : cl.Keyed) (scripts : List (List (Option Cause))) :
    (∃ summary after summary' after',
      c.pass.run Cluster.direct (cl.interrupted c scripts) = (.ok summary, after) ∧
      c.pass.run Cluster.direct cl = (.ok summary', after') ∧
      summary.failed = 0 ∧ summary'.failed = 0 ∧
      (Separate (c.copiesIn cl) → c.Detached (cl.namespaces.map Namespace.snapshot) →
        after.view = after'.view)) ∧
    ∀ script e after script',
      c.pass.run Cluster.direct.flaky (cl.interrupted c scripts, script) =
        (.error e, after, script') →
      (∃ cause, e = .listing cause ∧ after = cl.interrupted c scripts) ∨
        c.StoppedIn (c.copiesIn cl) {} (cl.interrupted c scripts) script.tail e after := by
  obtain ⟨written, hgoes, hwritten, hview⟩ := goesOn_interrupted c hf hkeyed scripts
  have hfaults : (cl.interrupted c scripts).faults = {} := hgoes.faults_eq.trans hf
  have hsame : c.copiesIn (cl.interrupted c scripts) = c.copiesIn cl := c.copiesIn_of_goesOn hgoes
  constructor
  · obtain ⟨summary, after, hrun, hok, -, hafter⟩ := Copier.view_of_calm c hfaults hgoes.keyed
    obtain ⟨summary', after', hrun', hok', -, hafter'⟩ := Copier.view_of_calm c hf hkeyed
    refine ⟨summary, after, summary', after', hrun, hrun', hok, hok', ?_⟩
    intro hseparate hdetached
    have hapart : ∀ copy ∈ c.copiesIn cl, ∀ copy' ∈ c.copiesIn cl,
        placeOf copy ≠ copy'.1.source := by
      intro copy hcopy copy' hcopy'
      exact hdetached copy hcopy copy'.1 (Copier.mem_targets.1 hcopy').1
    -- whatever copies the interrupted passes wrote, a pass through all of them comes after
    rw [hafter, hafter', hsame, hview, ← Copier.syncedAll_append,
      Copier.syncedAll_append_of_mem hseparate hapart hwritten]
  · intro script e after script' hrun
    obtain ⟨reply, after₁, script₁, -, hrun₁, -, -, -, hstopped⟩ :=
      Copier.run_pass_flaky c hfaults hgoes.keyed script
    rw [hrun] at hrun₁
    cases hrun₁
    exact hsame ▸ hstopped e rfl

namespace Sample

/-- A rule that copies the token everywhere under another name. -/
def spare : Rule := { source := ⟨"vault", "token"⟩, template := { name := some "spare" } }

/-- One pass that cannot read the token again for its second copy, and one that cannot make the
second copy. -/
def mishaps : List (List (Option Cause)) :=
  [[none, none, none, none, some (.store .timeout)],
    [none, none, none, none, none, some (.store .forbidden)]]

end Sample

/-- In the small cluster the first of two interrupted passes brings one copy up to date, so that a
pass afterwards has one copy left to make, where without them it would have written both. -/
theorem interrupted_passes_leave_no_trace_sample :
    ∃ after after',
      (Sample.team [Sample.spread, Sample.spare]).pass.run Cluster.direct
          (Sample.cluster.interrupted (Sample.team [Sample.spread, Sample.spare]) Sample.mishaps) =
        (.ok { created := 1, unchanged := 1 }, after) ∧
      (Sample.team [Sample.spread, Sample.spare]).pass.run Cluster.direct Sample.cluster =
        (.ok { created := 1, updated := 1 }, after') ∧
      after.view = after'.view := by
  obtain ⟨⟨summary, after, summary', after', hrun, hrun', -, -, hview⟩, -⟩ :=
    interrupted_passes_leave_no_trace (Sample.team [Sample.spread, Sample.spare]) Sample.cluster rfl
      (Cluster.Keyed.start _ _) Sample.mishaps
  have hsummary : ((Sample.team [Sample.spread, Sample.spare]).pass.run Cluster.direct
      (Sample.cluster.interrupted (Sample.team [Sample.spread, Sample.spare]) Sample.mishaps)).1 =
        .ok { created := 1, unchanged := 1 } := rfl
  have hsummary' : ((Sample.team [Sample.spread, Sample.spare]).pass.run Cluster.direct
      Sample.cluster).1 = .ok { created := 1, updated := 1 } := rfl
  exact ⟨after, after', by rw [← hsummary, hrun], by rw [← hsummary', hrun'],
    hview (by decide +kernel) (by decide +kernel)⟩

end SecretFanout
