import Mathlib.Algebra.GroupWithZero.Nat
import SecretFanout.Proofs.Outcomes

/-!
# Summaries

The summary of a pass that comes to its end, held against the calls of the pass and against what
the cluster had in store when each copy's turn came.

* `Gateway.TellsReadings` — a failed reading is not taken for a failed write;
  `Copier.run_syncTarget_inv` says what the work on one copy can do, whatever else its calls are
  answered with, if the pass goes on after it.
* `Copier.Stop`, `Copier.stops` — the copies that a pass goes through, each with the state in which
  its turn came and with what came of it; `Copier.run_before_stop` says that this is the state in
  which the copies before it were left.
* `PassSummary.Agrees` — a summary agrees with the writes that were heard; the work on one copy
  keeps this up, and so does a run through copies.
* `Copier.leavesAlone` — a copy is to be left alone, told from the cluster in which its turn came;
  `Copier.reply_of_reached` says that this is when the pass skips it.
* `summary_accounts_for_every_copy` — what this comes to for a pass.
-/

namespace SecretFanout

variable {σ : Type} {g : Gateway σ}

/-! ## Failed readings -/

/-- A failed reading is not taken for a failed write. -/
def Gateway.TellsReadings (g : Gateway σ) : Prop :=
  ∀ key s e, (g.read key s).1 = .error e → e.isWriteFailure = false

theorem Cluster.direct_tellsReadings : Cluster.direct.TellsReadings := by
  intro key cl e h
  by_cases hfault : key ∈ cl.faults.reads
  · simp only [direct, read, hfault, if_true, reply, Except.error.injEq] at h
    subst h
    rfl
  · simp [direct, read, hfault, reply] at h

theorem Gateway.TellsReadings.flaky (h : g.TellsReadings) : g.flaky.TellsReadings := by
  rintro key ⟨s, script⟩ e herror
  cases hnext : nextRefusal script with
  | some cause =>
    simp only [Gateway.flaky, answerOr_of_some hnext, Except.error.injEq] at herror
    subst herror
    rfl
  | none =>
    simp only [Gateway.flaky, answerOr_of_none hnext] at herror
    exact h key s e herror

theorem Gateway.TellsReadings.overheard (h : g.TellsReadings) : g.overheard.TellsReadings :=
  fun key s => h key s.1

/-! ## Copies one after the other -/

/-- Counts what came of one copy. -/
def PassSummary.account (summary : PassSummary) : Reply Outcome → PassSummary
  | .ok outcome => summary.record outcome
  | .error _ => summary.recordFailure

/-- The copies that a summary counts. -/
def PassSummary.total (summary : PassSummary) : Nat :=
  summary.created + summary.updated + summary.unchanged + summary.skipped + summary.failed

/-- One copy is counted once. -/
theorem PassSummary.total_account (summary : PassSummary) (reply : Reply Outcome) :
    (summary.account reply).total = summary.total + 1 := by
  cases reply with
  | error e => rfl
  | ok outcome => cases outcome <;> simp only [account, record, total] <;> omega

namespace Copier

variable {c : Copier} {r : Rule} {ns : String} {copy : Rule × String}
  {copies : List (Rule × String)}

/-- A copy that a pass goes through. -/
structure Stop (σ : Type) where
  /-- The copy. -/
  copy : Rule × String
  /-- The state in which its turn came. -/
  reached : σ
  /-- What came of it. -/
  reply : Reply Outcome

/-- The copies that are gone through one after the other, up to one after which this ends. -/
def stops (c : Copier) (g : Gateway σ) : List (Rule × String) → σ → List (Stop σ)
  | [], _ => []
  | copy :: rest, s =>
    let (reply, t) := (c.syncTarget copy.1 copy.2).run g s
    ⟨copy, s, reply⟩ ::
      match reply with
      | .ok _ => c.stops g rest t
      | .error e => if e.isWriteFailure then c.stops g rest t else []

/-- A pass goes on after a copy of which this came: it is an outcome, or a write failed. -/
def GoesOnAfter (reply : Reply Outcome) : Prop :=
  ∀ e, reply = .error e → e.isWriteFailure = true

/-- A run that comes to its end has got over its first copy, and goes on with the others. -/
theorem run_syncTargets_cons_ok {rest : List (Rule × String)} {s t : σ}
    {summary final : PassSummary}
    (h : (c.syncTargets (copy :: rest) summary).run g s = (.ok final, t)) :
    ∃ reply s', (c.syncTarget copy.1 copy.2).run g s = (reply, s') ∧ GoesOnAfter reply ∧
      c.stops g (copy :: rest) s = ⟨copy, s, reply⟩ :: c.stops g rest s' ∧
      (c.syncTargets rest (summary.account reply)).run g s' = (.ok final, t) := by
  rw [syncTargets, Program.run_bind] at h
  rw [stops]
  rcases hfirst : (c.syncTarget copy.1 copy.2).run g s with ⟨e | outcome, s'⟩
  all_goals rw [hfirst] at h
  · by_cases he : e.isWriteFailure = true
    · simp only [he, if_true] at h
      refine ⟨.error e, s', rfl, ?_, by simp only [he, if_true], h⟩
      rintro _ ⟨⟩
      exact he
    · simp [he, Program.run] at h
  · exact ⟨.ok outcome, s', rfl, by simp [GoesOnAfter], rfl, h⟩

/-- The turn of a copy comes in the state in which a run through the copies before it ends. -/
theorem run_before_stop {before rest : List (Stop σ)} {stop : Stop σ} {s : σ}
    (h : c.stops g copies s = before ++ stop :: rest) (summary : PassSummary) :
    ∃ mid, (c.syncTargets (before.map Stop.copy) summary).run g s = (.ok mid, stop.reached) ∧
      ((c.syncTarget stop.copy.1 stop.copy.2).run g stop.reached).1 = stop.reply := by
  induction before generalizing copies s summary with
  | nil =>
    cases copies with
    | nil => cases h
    | cons copy others =>
      rw [stops, List.nil_append] at h
      obtain ⟨rfl, -⟩ := List.cons.inj h
      exact ⟨summary, rfl, rfl⟩
  | cons first before ih =>
    cases copies with
    | nil => cases h
    | cons copy others =>
      rw [stops, List.cons_append] at h
      obtain ⟨rfl, hrest⟩ := List.cons.inj h
      rw [List.map_cons, syncTargets, Program.run_bind]
      generalize (c.syncTarget copy.1 copy.2).run g s = done at hrest ⊢
      obtain ⟨e | outcome, s'⟩ := done
      · by_cases he : e.isWriteFailure = true
        · simp only [he, if_true] at hrest ⊢
          exact ih hrest _
        · simp [he] at hrest
      · exact ih hrest _

/-- A run that comes to its end has gone through all copies. -/
theorem map_copy_stops {s t : σ} {summary final : PassSummary}
    (h : (c.syncTargets copies summary).run g s = (.ok final, t)) :
    (c.stops g copies s).map Stop.copy = copies := by
  induction copies generalizing s summary with
  | nil => rfl
  | cons copy rest ih =>
    obtain ⟨reply, s', -, -, hstops, hrest⟩ := run_syncTargets_cons_ok h
    rw [hstops, List.map_cons, ih hrest]

/-- It has counted each of them once. -/
theorem total_of_run {s t : σ} {summary final : PassSummary}
    (h : (c.syncTargets copies summary).run g s = (.ok final, t)) :
    final.total = summary.total + copies.length := by
  induction copies generalizing s summary with
  | nil =>
    cases h
    rfl
  | cons copy rest ih =>
    obtain ⟨reply, s', -, -, -, hrest⟩ := run_syncTargets_cons_ok h
    rw [ih hrest, PassSummary.total_account, List.length_cons]
    omega

/-- The copies that a pass goes through are the active namespaces that the rules select. -/
theorem length_targets (c : Copier) (namespaces : List Snapshot) :
    (c.targets namespaces).length =
      (c.spec.rules.map fun r => namespaces.countP fun n => !n.terminating && r.selects n).sum := by
  simp only [targets, List.length_flatMap, List.length_map, ruleTargets, List.filter_filter,
    List.countP_eq_length_filter, Bool.and_comm]

/-! ## The work on one copy -/

/-- If a pass goes on after a copy, both readings were answered as far as they were made: there is
no source, or the decision about what was read is carried out. -/
theorem run_syncTarget_inv (hg : g.TellsReadings) (hns : ns ≠ r.source.ns) {s t : σ}
    {reply : Reply Outcome} (hrun : (c.syncTarget r ns).run g s = (reply, t))
    (hgoes : GoesOnAfter reply) :
    g.read r.source s = (.ok none, t) ∧ reply = .ok .sourceMissing ∨
    ∃ source s₁ existing s₂, g.read r.source s = (.ok (some source), s₁) ∧
      g.read (r.copyKey ns) s₁ = (.ok existing, s₂) ∧
      (c.decide r ns source existing).carryOut.run g s₂ = (reply, t) := by
  -- a reading that failed would have ended the pass
  have hanswered : ∀ {key s e}, (g.read key s).1 = .error e → reply ≠ .error e := by
    intro key s e herror hreply
    have hfailure := hgoes e hreply
    rw [hg key s e herror] at hfailure
    cases hfailure
  rw [syncTarget, if_neg hns, Program.run] at hrun
  rcases hsource : g.read r.source s with ⟨e | found, s₁⟩
  · rw [hsource] at hrun
    cases hrun
    exact absurd rfl (hanswered (congrArg Prod.fst hsource))
  rw [hsource] at hrun
  cases found with
  | none =>
    cases hrun
    exact Or.inl ⟨rfl, rfl⟩
  | some source =>
    dsimp only at hrun
    rw [Program.run] at hrun
    rcases hplace : g.read (r.copyKey ns) s₁ with ⟨e | existing, s₂⟩
    · rw [hplace] at hrun
      cases hrun
      exact absurd rfl (hanswered (congrArg Prod.fst hplace))
    rw [hplace] at hrun
    exact Or.inr ⟨source, s₁, existing, s₂, rfl, hplace, hrun⟩

end Copier

/-! ## Writes that were heard -/

namespace Exchange

/-- A new secret was accepted. -/
def isCreation : Exchange → Bool
  | .create _ (.ok _) => true
  | _ => false

/-- A secret in the place of another version was accepted. -/
def isReplacement : Exchange → Bool
  | .replace _ (.ok _) => true
  | _ => false

/-- A write was rejected. -/
def isRejection : Exchange → Bool
  | .create _ (.error _) | .replace _ (.error _) => true
  | _ => false

end Exchange

namespace PassSummary

/-- A summary counts the writes that were heard. -/
structure Agrees (summary : PassSummary) (heard : List Exchange) : Prop where
  /-- Copies made. -/
  created : summary.created = heard.countP Exchange.isCreation
  /-- Copies written again. -/
  updated : summary.updated = heard.countP Exchange.isReplacement
  /-- Copies that could not be written. -/
  failed : summary.failed = heard.countP Exchange.isRejection

variable {summary : PassSummary} {heard : List Exchange}

/-- Counts an answer that was heard, if it is the answer to a write. -/
def hear (summary : PassSummary) : Exchange → PassSummary
  | .create _ (.ok _) => summary.record .created
  | .replace _ (.ok _) => summary.record .updated
  | .create _ (.error _) | .replace _ (.error _) => summary.recordFailure
  | .list _ | .read _ _ => summary

theorem hear_create (summary : PassSummary) (x : Secret) (answer : Reply Unit) :
    summary.hear (.create x answer) = summary.account (answer.map fun _ => .created) := by
  cases answer <;> rfl

theorem hear_replace (summary : PassSummary) (x : Secret) (answer : Reply Unit) :
    summary.hear (.replace x answer) = summary.account (answer.map fun _ => .updated) := by
  cases answer <;> rfl

/-- Answers are counted as they are heard. -/
theorem Agrees.hear (h : summary.Agrees heard) (x : Exchange) :
    (summary.hear x).Agrees (heard ++ [x]) := by
  obtain ⟨hcreated, hupdated, hfailed⟩ := h
  rcases x with _ | _ | ⟨_, _ | _⟩ | ⟨_, _ | _⟩ <;> constructor <;>
    simpa [PassSummary.hear, record, recordFailure, Exchange.isCreation, Exchange.isReplacement,
      Exchange.isRejection]

/-- What is neither made nor written again is counted apart from the writes. -/
theorem Agrees.leave (h : summary.Agrees heard) {outcome : Outcome}
    (hleave : outcome.isWrite = false) : (summary.account (.ok outcome)).Agrees heard := by
  obtain ⟨hcreated, hupdated, hfailed⟩ := h
  cases outcome with
  | created | updated => cases hleave
  | _ => exact ⟨hcreated, hupdated, hfailed⟩

end PassSummary

namespace Copier

variable {c : Copier} {copy : Rule × String} {copies : List (Rule × String)}
  {summary final : PassSummary} {s : σ} {t : σ × List Exchange} {heard : List Exchange}

/-- The work on one copy is counted as the write that it makes, if it makes one. -/
theorem agrees_syncTarget (hg : g.TellsReadings) (hns : copy.2 ≠ copy.1.source.ns)
    {reply : Reply Outcome}
    (hrun : (c.syncTarget copy.1 copy.2).run g.overheard (s, heard) = (reply, t))
    (hgoes : GoesOnAfter reply) (h : summary.Agrees heard) :
    (summary.account reply).Agrees t.2 := by
  rcases run_syncTarget_inv hg.overheard hns hrun hgoes with
    ⟨hsource, rfl⟩ | ⟨source, s₁, existing, s₂, hsource, hplace, hdone⟩
  · rw [← congrArg (fun read => read.2.2) hsource]
    exact (h.hear (.read _ _)).leave rfl
  · have hread : summary.Agrees s₂.2 := by
      rw [← congrArg (fun read => read.2.2) hplace]
      refine PassSummary.Agrees.hear ?_ (.read _ _)
      rw [← congrArg (fun read => read.2.2) hsource]
      exact h.hear (.read _ _)
    cases hdecision : c.decide copy.1 copy.2 source existing with
    | leave outcome =>
      rw [hdecision] at hdone
      cases hdone
      rcases outcome_of_leave hdecision with rfl | rfl <;> exact hread.leave rfl
    | create x =>
      rw [hdecision] at hdone
      cases hdone
      exact PassSummary.hear_create .. ▸ hread.hear (.create x _)
    | replace x =>
      rw [hdecision] at hdone
      cases hdone
      exact PassSummary.hear_replace .. ▸ hread.hear (.replace x _)

/-- A run through copies keeps its summary in agreement with what is heard. -/
theorem agrees_syncTargets (hg : g.TellsReadings) (hns : ∀ copy ∈ copies, copy.2 ≠ copy.1.source.ns)
    (hrun : (c.syncTargets copies summary).run g.overheard (s, heard) = (.ok final, t))
    (h : summary.Agrees heard) : final.Agrees t.2 := by
  induction copies generalizing s heard summary with
  | nil =>
    cases hrun
    exact h
  | cons copy rest ih =>
    obtain ⟨reply, ⟨s', heard'⟩, hfirst, hgoes, -, hrest⟩ := run_syncTargets_cons_ok hrun
    exact ih (fun copy hc => hns copy (by simp [hc])) hrest
      (agrees_syncTarget hg (hns copy (by simp)) hfirst hgoes h)

end Copier

/-! ## Copies that are left alone -/

namespace Cluster

variable {cl : Cluster} {script : List (Option Cause)} {key : SecretKey}

/-- A reading that is answered finds what is stored. -/
theorem flaky_read_ok {found : Option Secret} {t : Cluster × List (Option Cause)}
    (h : direct.flaky.read key (cl, script) = (.ok found, t)) :
    found = cl.secrets.get? key ∧ t.1 = cl.race key := by
  rcases flaky_read cl script key with ⟨e, hread⟩ | hread
  · cases hread.symm.trans h
  · cases hread.symm.trans h
    exact ⟨rfl, rfl⟩

/-- A listing that is answered tells the namespaces and changes nothing. -/
theorem flaky_list_ok {namespaces : List Snapshot} {t : Cluster × List (Option Cause)}
    (h : direct.flaky.list (cl, script) = (.ok namespaces, t)) :
    namespaces = cl.namespaces.map Namespace.snapshot ∧ t = (cl, script.tail) := by
  rcases answerOr_cases .listing direct.list cl script with ⟨e, hlist⟩ | hlist
  · cases hlist.symm.trans h
  · have hanswer := hlist.symm.trans h
    by_cases hfault : cl.faults.listing = true
    · simp [direct, Cluster.list, hfault, reply, Except.map] at hanswer
    · have hlisted : direct.list cl = (.ok (cl.namespaces.map Namespace.snapshot), cl) := by
        simp [direct, Cluster.list, hfault, reply, Except.map]
      rw [hlisted] at hanswer
      cases hanswer
      exact ⟨rfl, rfl⟩

end Cluster

namespace Copier

variable {c : Copier} {copy : Rule × String} {copies : List (Rule × String)} {cl : Cluster}
  {script : List (Option Cause)} {summary final : PassSummary}

/-- There is no source for a copy, or in its place there is a secret without the mark. -/
def leavesAlone (c : Copier) (copy : Rule × String) (cl : Cluster) : Bool :=
  (cl.secrets.get? copy.1.source).isNone ||
    (cl.secrets.get? (placeOf copy)).any fun existing => !(c.ownership copy.1).owns existing

/-- Exactly a secret without the mark is left alone as such. -/
theorem decide_eq_leave_notManaged_iff {source : Secret} {found : Option Secret} :
    c.decide copy.1 copy.2 source found = .leave .notManaged ↔
      (found.any fun existing => !(c.ownership copy.1).owns existing) = true := by
  cases found with
  | none => simp [decide]
  | some existing =>
    cases howns : (c.ownership copy.1).owns existing with
    | false => simp [decide, howns]
    | true =>
      simp only [decide, howns, Bool.not_true, Bool.false_eq_true, if_false, Option.any_some,
        iff_false]
      split <;> simp

/-- An outcome other than a write is one that was decided on. -/
theorem reply_eq_ok_iff_of_carryOut {d : Decision} {s t : σ} {reply : Reply Outcome}
    (hrun : d.carryOut.run g s = (reply, t)) {outcome : Outcome}
    (hleave : outcome.isWrite = false) :
    reply = .ok outcome ↔ d = .leave outcome := by
  have hwritten : ∀ {written : Outcome} {answer : Reply Unit}, written.isWrite = true →
      answer.map (fun _ => written) ≠ .ok outcome := by
    intro written answer hwrite h
    cases answer with
    | error e => cases h
    | ok _ =>
      cases h
      rw [hwrite] at hleave
      cases hleave
  cases d with
  | leave decided =>
    cases hrun
    simp
  | create x =>
    obtain rfl : (g.create x s).1.map (fun _ => .created) = reply := congrArg Prod.fst hrun
    exact iff_of_false (hwritten rfl) (by simp)
  | replace x =>
    obtain rfl : (g.replace x s).1.map (fun _ => .updated) = reply := congrArg Prod.fst hrun
    exact iff_of_false (hwritten rfl) (by simp)

/-- If a pass goes on after a copy, what came of it is told by the cluster in which its turn
came. -/
theorem reply_of_reached (hns : copy.2 ≠ copy.1.source.ns) {reply : Reply Outcome}
    {t : Cluster × List (Option Cause)}
    (hrun : (c.syncTarget copy.1 copy.2).run Cluster.direct.flaky (cl, script) = (reply, t))
    (hgoes : GoesOnAfter reply) :
    reply ≠ .ok .sameNamespace ∧
      (c.leavesAlone copy cl = true ↔ reply = .ok .sourceMissing ∨ reply = .ok .notManaged) := by
  rcases run_syncTarget_inv Cluster.direct_tellsReadings.flaky hns hrun hgoes with
    ⟨hsource, rfl⟩ | ⟨source, s₁, existing, s₂, hsource, hplace, hdone⟩
  · obtain ⟨hnone, -⟩ := Cluster.flaky_read_ok hsource
    simp [leavesAlone, ← hnone]
  · obtain ⟨hsome, hraced⟩ := Cluster.flaky_read_ok hsource
    -- what is read in the place of the copy is what was there when its turn came
    have hfound : existing = cl.secrets.get? (placeOf copy) := by
      rw [(Cluster.flaky_read_ok hplace).1, hraced]
      exact get?_race_source hns
    have hnever : ∀ outcome, outcome.isWrite = false → outcome ≠ .notManaged →
        outcome ≠ .unchanged → reply ≠ .ok outcome := by
      intro outcome hleave hmanaged hchanged hreply
      exact (outcome_of_leave ((reply_eq_ok_iff_of_carryOut hdone hleave).1 hreply)).elim
        hmanaged hchanged
    refine ⟨hnever _ rfl (by simp) (by simp), ?_⟩
    rw [leavesAlone, ← hsome, ← hfound, Option.isNone_some, Bool.false_or,
      or_iff_right (hnever _ rfl (by simp) (by simp)),
      reply_eq_ok_iff_of_carryOut hdone rfl, decide_eq_leave_notManaged_iff]

/-- One copy is counted as skipped if it is to be left alone. -/
theorem skipped_account {reply : Reply Outcome} (hsame : reply ≠ .ok .sameNamespace)
    (hleaves : c.leavesAlone copy cl = true ↔
      reply = .ok .sourceMissing ∨ reply = .ok .notManaged) :
    (summary.account reply).skipped = summary.skipped + if c.leavesAlone copy cl then 1 else 0 := by
  rw [if_congr hleaves rfl rfl]
  cases reply with
  | error e => simp [PassSummary.account, PassSummary.recordFailure]
  | ok outcome => cases outcome <;> simp_all [PassSummary.account, PassSummary.record]

/-- A run through copies counts as skipped those that were to be left alone when their turn came,
and none of them for its namespace. -/
theorem skipped_of_run (hns : ∀ copy ∈ copies, copy.2 ≠ copy.1.source.ns)
    {s t : Cluster × List (Option Cause)}
    (h : (c.syncTargets copies summary).run Cluster.direct.flaky s = (.ok final, t)) :
    (∀ stop ∈ c.stops Cluster.direct.flaky copies s, stop.reply ≠ .ok .sameNamespace) ∧
      final.skipped = summary.skipped + (c.stops Cluster.direct.flaky copies s).countP fun stop =>
        c.leavesAlone stop.copy stop.reached.1 := by
  induction copies generalizing s summary with
  | nil =>
    cases h
    exact ⟨by simp [stops], rfl⟩
  | cons copy rest ih =>
    obtain ⟨reply, s', hfirst, hgoes, hstops, hrest⟩ := run_syncTargets_cons_ok h
    obtain ⟨hsame, hleaves⟩ := reply_of_reached (hns copy (by simp)) hfirst hgoes
    obtain ⟨hnever, hskipped⟩ := ih (fun copy hc => hns copy (by simp [hc])) hrest
    rw [hstops]
    refine ⟨List.forall_mem_cons.2 ⟨hsame, hnever⟩, ?_⟩
    rw [hskipped, skipped_account hsame hleaves, List.countP_cons]
    dsimp only
    omega

end Copier

/-! ## Passes -/

/-- The copies that a pass goes through on a cluster; the script has its first entry for the listing
of the namespaces. -/
def Copier.stopsIn (c : Copier) (cl : Cluster) (script : List (Option Cause)) :
    List (Copier.Stop (Cluster × List (Option Cause))) :=
  c.stops Cluster.direct.flaky (c.copiesIn cl) (cl, script.tail)

/-- A pass that comes to its end runs through its copies, and no write is heard before. -/
theorem Copier.run_pass_ok {c : Copier} {cl : Cluster} {script : List (Option Cause)}
    {summary : PassSummary} {after : Cluster × List (Option Cause)} {heard : List Exchange}
    (hrun : c.pass.run Cluster.direct.flaky.overheard ((cl, script), []) =
      (.ok summary, after, heard)) :
    ∃ first after', ({} : PassSummary).Agrees first ∧
      (c.syncTargets (c.copiesIn cl) {}).run Cluster.direct.flaky.overheard
        ((cl, script.tail), first) = (.ok summary, after', heard) := by
  have hstart : ({} : PassSummary).Agrees [] := ⟨rfl, rfl, rfl⟩
  rw [pass] at hrun
  split at hrun
  · next hrules =>
    cases hrun
    refine ⟨[], (cl, script.tail), hstart, ?_⟩
    rw [copiesIn, targets, List.isEmpty_iff.1 hrules, List.flatMap_nil]
    rfl
  · rcases hlist : Cluster.direct.flaky.list (cl, script) with ⟨e | namespaces, t⟩
    · simp only [Program.run, Gateway.overheard, hlist] at hrun
      cases hrun
    · obtain ⟨rfl, rfl⟩ := Cluster.flaky_list_ok hlist
      simp only [Program.run, Gateway.overheard, hlist] at hrun
      exact ⟨_, after, hstart.hear (.list _), hrun⟩

/-- **A summary accounts for every copy.**  Let a pass be run on any cluster, whatever is set to go
wrong there, with any of its calls turned down besides, and let it come to its end.

* It goes through each of its copies once, and the counts of its summary add up to the number of
  these: over all rules, the active namespaces that the rule selects.
* The copies made and those written again are the creations and the replacements that were accepted
  during the pass, and the failures are the writes that were rejected.
* The copies that it skips are those that had no source, or a secret without the mark in their
  place, when their turn came. None is skipped for being in the namespace of its source. -/
theorem summary_accounts_for_every_copy (c : Copier) (cl : Cluster) (script : List (Option Cause))
    {summary : PassSummary} {after : Cluster × List (Option Cause)} {heard : List Exchange}
    (hrun : c.pass.run Cluster.direct.flaky.overheard ((cl, script), []) =
      (.ok summary, after, heard)) :
    (c.stopsIn cl script).map Copier.Stop.copy = c.copiesIn cl ∧
    summary.created + summary.updated + summary.unchanged + summary.skipped + summary.failed =
      (c.spec.rules.map fun r => (cl.namespaces.map Namespace.snapshot).countP fun n =>
        !n.terminating && r.selects n).sum ∧
    summary.created = heard.countP Exchange.isCreation ∧
    summary.updated = heard.countP Exchange.isReplacement ∧
    summary.failed = heard.countP Exchange.isRejection ∧
    (summary.skipped = (c.stopsIn cl script).countP fun stop =>
      c.leavesAlone stop.copy stop.reached.1) ∧
    ∀ stop ∈ c.stopsIn cl script, stop.reply ≠ .ok .sameNamespace := by
  obtain ⟨first, after', hfirst, hcopies⟩ := Copier.run_pass_ok hrun
  have hns : ∀ copy ∈ c.copiesIn cl, copy.2 ≠ copy.1.source.ns :=
    fun _ hmem => Copier.ne_source_of_mem_targets hmem
  obtain ⟨hreply, hstate, -⟩ := Program.run_overheard Cluster.direct.flaky
    (c.syncTargets (c.copiesIn cl) {}) (cl, script.tail) first
  rw [hcopies] at hreply hstate
  have hunheard : (c.syncTargets (c.copiesIn cl) {}).run Cluster.direct.flaky (cl, script.tail) =
      (.ok summary, after') := Prod.ext hreply.symm hstate.symm
  obtain ⟨hcreated, hupdated, hfailed⟩ :=
    Copier.agrees_syncTargets Cluster.direct_tellsReadings.flaky hns hcopies hfirst
  obtain ⟨hsame, hskipped⟩ := Copier.skipped_of_run hns hunheard
  refine ⟨Copier.map_copy_stops hunheard, ?_, hcreated, hupdated, hfailed, ?_, hsame⟩
  · have htotal := Copier.total_of_run hunheard
    rw [Copier.length_targets] at htotal
    exact htotal.trans (Nat.zero_add _)
  · exact hskipped.trans (Nat.zero_add _)

namespace Sample

/-- A rule whose source is nowhere. -/
def lost : Rule := { source := ⟨"vault", "key"⟩ }

/-- The seventh call of a pass is not allowed. -/
def seventhForbidden : List (Option Cause) :=
  [none, none, none, none, none, none, some (.store .forbidden)]

end Sample

/-- In the small cluster the stale copy is written again, the copy of it is rejected, and one copy
has no source: three copies in all, and each of them is counted once. -/
theorem rejected_echo_is_counted_once :
    ∃ after heard,
      (Sample.team [Sample.spread, Sample.echo, Sample.lost]).pass.run
          Cluster.direct.flaky.overheard ((Sample.cluster, Sample.seventhForbidden), []) =
        (.ok { updated := 1, skipped := 1, failed := 1 }, after, heard) ∧
      heard.countP Exchange.isReplacement = 1 ∧ heard.countP Exchange.isRejection = 1 ∧
      ((Sample.team [Sample.spread, Sample.echo, Sample.lost]).stopsIn Sample.cluster
        Sample.seventhForbidden).map Copier.Stop.copy =
          [(Sample.spread, "apps"), (Sample.echo, "vault"), (Sample.lost, "apps")] := by
  obtain ⟨after, heard, hrun⟩ : ∃ after heard,
      (Sample.team [Sample.spread, Sample.echo, Sample.lost]).pass.run
          Cluster.direct.flaky.overheard ((Sample.cluster, Sample.seventhForbidden), []) =
        (.ok { updated := 1, skipped := 1, failed := 1 }, after, heard) := ⟨_, _, rfl⟩
  obtain ⟨hcopies, -, -, hupdated, hfailed, -, -⟩ := summary_accounts_for_every_copy _ _ _ hrun
  exact ⟨after, heard, hrun, hupdated.symm, hfailed.symm, hcopies.trans (by decide +kernel)⟩

end SecretFanout
