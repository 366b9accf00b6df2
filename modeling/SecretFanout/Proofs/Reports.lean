import SecretFanout.Proofs.Contents
import SecretFanout.Proofs.Walk

/-!
# Passes copy by copy

What a pass asks for and what comes of it, one copy at a time.

* `Report`, `Copier.reports` — what came of each copy that a pass went through, with the calls
  made for it; `run_syncTargets_eq_tally` says that the pass counts its reports, whatever
  answers the calls.
* `run_syncTarget_of_readable` — on a cluster that turns nothing down but writes, what comes
  of a copy follows from the decision about it.
* `Copier.copiesIn` — the copies that a copier is to keep in a cluster.
* `run_syncTargets_of_readable`, `run_pass_of_readable` — so a pass comes to its end there, and
  brings the copies up to date that may be written; `countP_failed_reportsOn` says which failures
  it counts.
* `view_of_calm` — where nothing is turned down at all it brings all of its copies up to date.
-/

namespace SecretFanout

/-! ## Reports -/

/-- What came of one copy, and the calls that were made for it. -/
structure Report where
  /-- What came of it. -/
  reply : Reply Outcome
  /-- The calls, the latest last. -/
  calls : List Call

namespace Report

/-- Whether the copy was sent to be written. -/
def attempted (report : Report) : Bool := report.calls.any fun call => call.written?.isSome

/-- Whether a call for the copy was turned down. -/
def failed (report : Report) : Bool :=
  match report.reply with
  | .ok _ => false
  | .error _ => true

/-- Whether the pass goes on after this copy. -/
def goesOn (report : Report) : Bool :=
  match report.reply with
  | .ok _ => true
  | .error e => e.isWriteFailure

end Report

/-- Counts what came of copies; what does not concern a single copy ends the counting. -/
def PassSummary.tally : PassSummary → List Report → Reply PassSummary
  | summary, [] => .ok summary
  | summary, report :: rest =>
    match report.reply with
    | .ok outcome => (summary.record outcome).tally rest
    | .error e => if e.isWriteFailure then summary.recordFailure.tally rest else .error e

/-- Counting to the end counts each failure once. -/
theorem PassSummary.failed_of_tally {summary final : PassSummary} {reports : List Report}
    (h : summary.tally reports = .ok final) :
    final.failed = summary.failed + reports.countP Report.failed := by
  induction reports generalizing summary with
  | nil =>
    cases h
    rfl
  | cons report rest ih =>
    rw [tally] at h
    rw [List.countP_cons, Report.failed]
    cases hreply : report.reply with
    | ok outcome =>
      rw [hreply] at h
      rw [ih h, failed_record]
      simp
    | error e =>
      rw [hreply] at h
      dsimp only at h ⊢
      split at h
      · rw [ih h, recordFailure]
        simp only [if_true]
        omega
      · cases h

namespace Copier

variable {σ : Type} {c : Copier}

/-- What comes of copies that are gone through one after the other. -/
def reports (c : Copier) (g : Gateway σ) : List (Rule × String) → σ → List Report
  | [], _ => []
  | (r, ns) :: rest, s =>
    let (reply, t, calls) := (c.syncTarget r ns).run g.recorded (s, [])
    let report : Report := ⟨reply, calls⟩
    report :: if report.goesOn then c.reports g rest t else []

/-- A pass counts its reports. -/
theorem run_syncTargets_eq_tally (g : Gateway σ) (copies : List (Rule × String)) (s : σ)
    (summary : PassSummary) :
    ((c.syncTargets copies summary).run g s).1 = summary.tally (c.reports g copies s) := by
  induction copies generalizing s summary with
  | nil => rfl
  | cons copy rest ih =>
    obtain ⟨r, ns⟩ := copy
    obtain ⟨hreply, hstate⟩ := Program.run_recorded g (c.syncTarget r ns) s []
    rw [syncTargets, Program.run_bind, reports]
    generalize (c.syncTarget r ns).run g.recorded (s, []) = recorded at hreply hstate ⊢
    obtain ⟨reply, t, calls⟩ := recorded
    dsimp only at hreply hstate ⊢
    rw [← hreply, ← hstate]
    cases reply with
    | ok outcome => exact ih _ _
    | error e =>
      by_cases he : e.isWriteFailure = true
      · simp only [he, if_true, PassSummary.tally, Report.goesOn]
        exact ih _ _
      · simp [he, PassSummary.tally, Program.run]

/-- Where nothing else than a write failed for a copy, the pass goes on with the next one. -/
theorem run_syncTargets_cons (g : Gateway σ) {copy : Rule × String} (rest : List (Rule × String))
    {s t : σ} {report : Report} (summary : PassSummary)
    (hrun : (c.syncTarget copy.1 copy.2).run g.recorded (s, []) = (report.reply, t, report.calls))
    (hgoes : report.goesOn = true) :
    (∃ summary', (c.syncTargets (copy :: rest) summary).run g s =
      (c.syncTargets rest summary').run g t) ∧
      c.reports g (copy :: rest) s = report :: c.reports g rest t := by
  obtain ⟨r, ns⟩ := copy
  obtain ⟨reply, calls⟩ := report
  obtain ⟨hreply, hstate⟩ := Program.run_recorded g (c.syncTarget r ns) s []
  rw [hrun] at hreply hstate
  constructor
  · rw [syncTargets, Program.run_bind, ← hreply, ← hstate]
    cases reply with
    | ok outcome => exact ⟨_, rfl⟩
    | error e =>
      have he : e.isWriteFailure = true := hgoes
      exact ⟨summary.recordFailure, by simp [he]⟩
  · rw [reports, hrun]
    simp only [hgoes, if_true]

end Copier

/-! ## Clusters that can be read -/

namespace Cluster

variable {cl : Cluster} {key : SecretKey} {x old : Secret}

/-- Nothing is turned down but writes. -/
structure Readable (cl : Cluster) : Prop where
  /-- The namespaces can be listed. -/
  listing : cl.faults.listing = false
  /-- Every key can be read. -/
  reads : cl.faults.reads = []
  /-- No reading is followed by a write. -/
  races : cl.faults.races = []

theorem readable_of_calm (hf : cl.faults = {}) : cl.Readable := by
  refine ⟨?_, ?_, ?_⟩ <;> rw [hf]

theorem Readable.list (h : cl.Readable) :
    direct.list cl = (.ok (cl.namespaces.map Namespace.snapshot), cl) := by
  simp [direct, Cluster.list, h.listing, reply, Except.map]

theorem Readable.read (h : cl.Readable) (key : SecretKey) :
    direct.read key cl = (.ok (cl.secrets.get? key), cl) := by
  simp [direct, Cluster.read, race, h.reads, h.races, reply]

/-- A cluster goes on: it keeps its namespaces and what it turns down, its secrets stand under
their own keys, and those that cannot be written are as they were. -/
structure GoesOn (cl cl' : Cluster) : Prop where
  /-- The namespaces stay. -/
  namespaces_eq : cl'.namespaces = cl.namespaces
  /-- What is set to go wrong stays so. -/
  faults_eq : cl'.faults = cl.faults
  /-- Secrets stand under their own keys. -/
  keyed : cl'.Keyed
  /-- What cannot be written stays. -/
  unwritable_eq : ∀ key ∈ cl.faults.writes, cl'.secrets.get? key = cl.secrets.get? key

theorem GoesOn.refl (h : cl.Keyed) : cl.GoesOn cl := ⟨rfl, rfl, h, fun _ _ => rfl⟩

theorem GoesOn.trans {cl' cl'' : Cluster} (h : cl.GoesOn cl') (h' : cl'.GoesOn cl'') :
    cl.GoesOn cl'' := by
  refine ⟨h'.namespaces_eq.trans h.namespaces_eq, h'.faults_eq.trans h.faults_eq, h'.keyed, ?_⟩
  intro key hkey
  exact (h'.unwritable_eq key (h.faults_eq ▸ hkey)).trans (h.unwritable_eq key hkey)

theorem GoesOn.readable {cl' : Cluster} (h : cl.GoesOn cl') (hread : cl.Readable) :
    cl'.Readable := by
  obtain ⟨hlisting, hreads, hraces⟩ := hread
  exact ⟨h.faults_eq ▸ hlisting, h.faults_eq ▸ hreads, h.faults_eq ▸ hraces⟩

/-- A cluster in which a decision about a copy is carried out. -/
def carry (cl : Cluster) (key : SecretKey) : Decision → Cluster
  | .create copy => cl.put key (withAssignedUid key copy)
  | .replace copy => cl.put key copy
  | .leave _ => cl

theorem carry_of_ne {k : SecretKey} (h : k ≠ key) (d : Decision) :
    (cl.carry key d).secrets.get? k = cl.secrets.get? k := by
  cases d with
  | create copy => rw [carry, get?_put, if_neg h]
  | replace copy => rw [carry, get?_put, if_neg h]
  | leave outcome => rfl

/-- Carrying out a decision puts its copy under the key. -/
theorem view_carry (cl : Cluster) (key : SecretKey) (d : Decision) :
    (cl.carry key d).view = View.write cl.view key d.bare.copy? := by
  cases d with
  | create copy => exact view_put ..
  | replace copy => exact view_put ..
  | leave outcome => rfl

theorem GoesOn.carry (h : cl.Keyed) (hkey : key ∉ cl.faults.writes) {d : Decision}
    (hd : ∀ copy, d.copy? = some copy → copy.key = key) : cl.GoesOn (cl.carry key d) := by
  have hstays : ∀ k ∈ cl.faults.writes, (cl.carry key d).secrets.get? k = cl.secrets.get? k := by
    intro k hk
    refine carry_of_ne ?_ d
    rintro rfl
    exact hkey hk
  cases d with
  | create copy => exact ⟨rfl, rfl, h.put (hd copy rfl), hstays⟩
  | replace copy => exact ⟨rfl, rfl, h.put (hd copy rfl), hstays⟩
  | leave outcome => exact .refl h

end Cluster

/-! ## Carrying out decisions -/

namespace Decision

/-- The calls by which a decision about the copy under a key is carried out. -/
def calls (key : SecretKey) : Decision → List Call
  | create _ => [.create key]
  | replace _ => [.replace key]
  | leave _ => []

/-- What comes of a decision about the copy under a key, if writes of it may be refused. -/
def reply (key : SecretKey) (refused : Bool) : Decision → Reply Outcome
  | create _ =>
    if refused then .error (.writing .create key (.store .forbidden)) else .ok .created
  | replace _ =>
    if refused then .error (.writing .replace key (.store .forbidden)) else .ok .updated
  | leave outcome => .ok outcome

@[simp] theorem calls_bare (key : SecretKey) (d : Decision) : d.bare.calls key = d.calls key := by
  cases d <;> rfl

@[simp] theorem reply_bare (key : SecretKey) (refused : Bool) (d : Decision) :
    d.bare.reply key refused = d.reply key refused := by
  cases d <;> rfl

end Decision

namespace Copier

variable {c : Copier} {copy : Rule × String} {cl : Cluster}

/-- The readings that are made for a copy. -/
def readings (copy : Rule × String) (v : View) : List Call :=
  if v copy.1.source = none then [.read copy.1.source]
  else [.read copy.1.source, .read (placeOf copy)]

/-- The report on a copy, from what stands under the keys. -/
def report (c : Copier) (copy : Rule × String) (refused : Bool) (v : View) : Report where
  reply := (c.verdict copy v).reply (placeOf copy) refused
  calls := readings copy v ++ (c.verdict copy v).calls (placeOf copy)

/-- What a decision is to write belongs where the copy is stored. -/
theorem key_of_copy?_verdict (hkeyed : cl.Keyed) {secret : Secret}
    (h : (c.verdict copy cl.secrets.get?).copy? = some secret) : secret.key = placeOf copy := by
  obtain ⟨source, -, ⟨-, -, rfl⟩ | ⟨old, hold, -, -, -, rfl⟩⟩ := of_copy?_verdict h
  · rw [key_newCopy]
  · rw [Secret.key_refreshed]
    exact hkeyed _ _ hold

/-- A cluster after the work on a copy: what is decided is carried out, unless the copy cannot be
written. -/
def visited (c : Copier) (copy : Rule × String) (cl : Cluster) : Cluster :=
  if placeOf copy ∈ cl.faults.writes then cl
  else cl.carry (placeOf copy) (c.verdict copy cl.secrets.get?)

/-- The cluster carries out what is decided about a copy, unless it refuses to write it. -/
theorem run_carryOut_verdict (c : Copier) (copy : Rule × String) (hkeyed : cl.Keyed)
    (log : List Call) :
    (c.verdict copy cl.secrets.get?).carryOut.run Cluster.direct.recorded (cl, log) =
      ((c.verdict copy cl.secrets.get?).reply (placeOf copy) (placeOf copy ∈ cl.faults.writes),
        c.visited copy cl, log ++ (c.verdict copy cl.secrets.get?).calls (placeOf copy)) := by
  rw [visited]
  cases hd : c.verdict copy cl.secrets.get? with
  | leave outcome =>
    simp [Decision.carryOut, Program.run, Decision.reply, Decision.calls, Cluster.carry]
  | create new =>
    have hcopy : (c.verdict copy cl.secrets.get?).copy? = some new := by rw [hd, Decision.copy?]
    have hkey : new.key = placeOf copy := key_of_copy?_verdict hkeyed hcopy
    -- what was read before the decision still stands, so that the write meets its condition
    have hfree : cl.secrets.get? (placeOf copy) = none := by
      obtain ⟨source, -, ⟨hfree, -, -⟩ | ⟨old, -, hreplace, -⟩⟩ := of_copy?_verdict hcopy
      · exact hfree
      · rw [hd] at hreplace
        cases hreplace
    by_cases hF : placeOf copy ∈ cl.faults.writes
    · simp [Decision.carryOut, Program.run, Gateway.recorded, Cluster.direct, Cluster.create,
        SecretFanout.reply, Except.map, Decision.reply, Decision.calls, hkey, hF]
    · simp [Decision.carryOut, Program.run, Gateway.recorded, Cluster.direct, Cluster.create,
        SecretFanout.reply, Except.map, Decision.reply, Decision.calls, Cluster.carry,
        SortedMap.contains, hkey, hfree, hF]
  | replace new =>
    have hcopy : (c.verdict copy cl.secrets.get?).copy? = some new := by rw [hd, Decision.copy?]
    have hkey : new.key = placeOf copy := key_of_copy?_verdict hkeyed hcopy
    obtain ⟨old, hold, hversion⟩ : ∃ old, cl.secrets.get? (placeOf copy) = some old ∧
        old.metadata.resourceVersion = new.metadata.resourceVersion := by
      obtain ⟨source, -, ⟨-, hcreate, -⟩ | ⟨old, hold, -, -, -, rfl⟩⟩ := of_copy?_verdict hcopy
      · rw [hd] at hcreate
        cases hcreate
      · exact ⟨old, hold, rfl⟩
    by_cases hF : placeOf copy ∈ cl.faults.writes
    · simp [Decision.carryOut, Program.run, Gateway.recorded, Cluster.direct, Cluster.replace,
        SecretFanout.reply, Except.map, Decision.reply, Decision.calls, hkey, hF]
    · simp [Decision.carryOut, Program.run, Gateway.recorded, Cluster.direct, Cluster.replace,
        SecretFanout.reply, Except.map, Decision.reply, Decision.calls, Cluster.carry, hkey, hold,
        hversion, hF]

/-- What comes of a copy follows from the decision about it. -/
theorem run_syncTarget_of_readable (hread : cl.Readable) (hkeyed : cl.Keyed)
    (hns : copy.2 ≠ copy.1.source.ns) (log : List Call) :
    (c.syncTarget copy.1 copy.2).run Cluster.direct.recorded (cl, log) =
      ((c.report copy (placeOf copy ∈ cl.faults.writes) cl.view).reply, c.visited copy cl,
        log ++ (c.report copy (placeOf copy ∈ cl.faults.writes) cl.view).calls) := by
  have hreport : c.report copy (placeOf copy ∈ cl.faults.writes) cl.view =
      c.report copy (placeOf copy ∈ cl.faults.writes) cl.secrets.get? := by
    simp only [report, verdict_view, Decision.reply_bare, Decision.calls_bare, readings,
      Cluster.view_eq_none_iff]
  -- the calls are answered from the stored secrets, and so is the report in this form
  rw [hreport]
  cases hs : cl.secrets.get? copy.1.source with
  | none =>
    simp [syncTarget, hns, Program.run, Gateway.recorded, hread.read, hs, report, readings, verdict,
      Decision.reply, Decision.calls, visited, Cluster.carry]
  | some source =>
    have hverdict : c.verdict copy cl.secrets.get? =
        c.decide copy.1 copy.2 source (cl.secrets.get? (placeOf copy)) := by
      rw [verdict, hs]
    have hrun : (c.syncTarget copy.1 copy.2).run Cluster.direct.recorded (cl, log) =
        (c.verdict copy cl.secrets.get?).carryOut.run Cluster.direct.recorded
          (cl, log ++ [.read copy.1.source, .read (placeOf copy)]) := by
      simp [syncTarget, hns, Program.run, Gateway.recorded, hread.read, hs, hverdict]
    rw [hrun, run_carryOut_verdict c copy hkeyed]
    simp [report, readings, hs]

/-- A cluster goes on where a copy is worked on. -/
theorem goesOn_visited (hkeyed : cl.Keyed) : cl.GoesOn (c.visited copy cl) := by
  rw [visited]
  split
  · exact .refl hkeyed
  · next hkey => exact .carry hkeyed hkey fun _ hcopy => key_of_copy?_verdict hkeyed hcopy

/-- The copy is brought up to date, if it can be written. -/
theorem view_visited : (c.visited copy cl).view =
    if placeOf copy ∈ cl.faults.writes then cl.view else c.synced copy cl.view := by
  rw [visited]
  split
  · rfl
  · rw [Cluster.view_carry, synced, verdict_view]

/-! ## Passes -/

variable {copies : List (Rule × String)}

/-- The reports on copies that are gone through one after the other where some keys cannot be
written, from what stands under the keys. -/
def reportsOn (c : Copier) (unwritable : List SecretKey) : List (Rule × String) → View → List Report
  | [], _ => []
  | copy :: rest, v =>
    c.report copy (placeOf copy ∈ unwritable) v ::
      c.reportsOn unwritable rest (if placeOf copy ∈ unwritable then v else c.synced copy v)

/-- The copies that can be written. -/
def writable (unwritable : List SecretKey) (copies : List (Rule × String)) : List (Rule × String) :=
  copies.filter fun copy => placeOf copy ∉ unwritable

theorem writable_nil : writable [] copies = copies :=
  List.filter_eq_self.2 fun _ _ => decide_eq_true List.not_mem_nil

/-- A failed write does not end a pass. -/
theorem goesOn_report (refused : Bool) (v : View) : (c.report copy refused v).goesOn = true := by
  rw [Report.goesOn, report]
  cases c.verdict copy v <;> cases refused <;> rfl

/-- Copies are gone through to the end, and those that can be written are brought up to date. -/
theorem run_syncTargets_of_readable (hread : cl.Readable) (hkeyed : cl.Keyed)
    (hns : ∀ copy ∈ copies, copy.2 ≠ copy.1.source.ns) (summary : PassSummary) :
    ∃ final after, (c.syncTargets copies summary).run Cluster.direct cl = (.ok final, after) ∧
      cl.GoesOn after ∧ after.view = c.syncedAll (writable cl.faults.writes copies) cl.view ∧
      c.reports Cluster.direct copies cl = c.reportsOn cl.faults.writes copies cl.view := by
  induction copies generalizing cl summary with
  | nil => exact ⟨summary, cl, rfl, .refl hkeyed, rfl, rfl⟩
  | cons copy rest ih =>
    have hrun := run_syncTarget_of_readable (c := c) hread hkeyed (hns copy (by simp)) []
    have hgoes : cl.GoesOn (c.visited copy cl) := goesOn_visited hkeyed
    obtain ⟨⟨summary', hnext⟩, hreports⟩ :=
      run_syncTargets_cons Cluster.direct rest summary hrun (goesOn_report _ _)
    obtain ⟨final, after, hrest, hafter, hview, hreportsRest⟩ :=
      ih (hgoes.readable hread) hgoes.keyed (fun copy hc => hns copy (by simp [hc])) summary'
    refine ⟨final, after, hnext.trans hrest, hgoes.trans hafter, ?_, ?_⟩
    · rw [hview, hgoes.faults_eq, view_visited, writable, writable, List.filter_cons]
      by_cases hkey : placeOf copy ∈ cl.faults.writes
      · simp [hkey]
      · simp [hkey]
    · rw [hreports, hreportsRest, hgoes.faults_eq, view_visited, reportsOn]

/-- The copies that a copier is to keep in a cluster, in the order of its passes. -/
abbrev copiesIn (c : Copier) (cl : Cluster) : List (Rule × String) :=
  c.targets (cl.namespaces.map Namespace.snapshot)

theorem copiesIn_of_goesOn {cl' : Cluster} (c : Copier) (h : cl.GoesOn cl') :
    c.copiesIn cl' = c.copiesIn cl := by
  rw [copiesIn, copiesIn, h.namespaces_eq]

/-- A pass comes to its end on a cluster that turns down nothing but writes. It brings the copies
up to date that can be written, and counts its reports. -/
theorem run_pass_of_readable (c : Copier) (hread : cl.Readable) (hkeyed : cl.Keyed) :
    ∃ summary after, c.pass.run Cluster.direct cl = (.ok summary, after) ∧ cl.GoesOn after ∧
      after.view = c.syncedAll (writable cl.faults.writes (c.copiesIn cl)) cl.view ∧
      ({} : PassSummary).tally (c.reports Cluster.direct (c.copiesIn cl) cl) = .ok summary ∧
      c.reports Cluster.direct (c.copiesIn cl) cl =
        c.reportsOn cl.faults.writes (c.copiesIn cl) cl.view := by
  have hpass : c.pass.run Cluster.direct cl =
      (c.syncTargets (c.copiesIn cl) {}).run Cluster.direct cl := by
    rw [pass]
    split
    · next hrules =>
      rw [copiesIn, targets, List.isEmpty_iff.1 hrules, List.flatMap_nil]
      rfl
    · rw [Program.run, hread.list]
  obtain ⟨summary, after, hrun, hgoes, hview, hreports⟩ :=
    run_syncTargets_of_readable (c := c) hread hkeyed
      (fun _ hmem => ne_source_of_mem_targets hmem) {}
  refine ⟨summary, after, hpass.trans hrun, hgoes, hview, ?_, hreports⟩
  rw [← run_syncTargets_eq_tally, hrun]

/-- Nothing fails that is not refused. -/
theorem failed_report (refused : Bool) (v : View) :
    (c.report copy refused v).failed = (refused && (c.report copy refused v).attempted) := by
  rw [Report.failed, Report.attempted, report, readings]
  cases c.verdict copy v <;> cases refused <;> by_cases hs : v copy.1.source = none <;>
    simp [Decision.reply, Decision.calls, Call.written?, hs]

/-- The failures are the attempts to write what cannot be written. -/
theorem countP_failed_reportsOn (unwritable : List SecretKey) (v : View) :
    (c.reportsOn unwritable copies v).countP Report.failed =
      (copies.zip (c.reportsOn unwritable copies v)).countP fun e =>
        placeOf e.1 ∈ unwritable && e.2.attempted := by
  induction copies generalizing v with
  | nil => rfl
  | cons copy rest ih =>
    rw [reportsOn, List.zip_cons_cons, List.countP_cons, List.countP_cons, ih, failed_report]

/-- On a calm cluster a pass brings all of its copies up to date, and nothing fails. -/
theorem view_of_calm (c : Copier) (hf : cl.faults = {}) (hkeyed : cl.Keyed) :
    ∃ summary after, c.pass.run Cluster.direct cl = (.ok summary, after) ∧ summary.failed = 0 ∧
      cl.GoesOn after ∧ after.view = c.syncedAll (c.copiesIn cl) cl.view := by
  obtain ⟨summary, after, hrun, hgoes, hview, htally, hreports⟩ :=
    run_pass_of_readable c (Cluster.readable_of_calm hf) hkeyed
  have hwrites : cl.faults.writes = [] := by rw [hf]
  refine ⟨summary, after, hrun, ?_, hgoes, ?_⟩
  · rw [PassSummary.failed_of_tally htally, hreports, countP_failed_reportsOn, hwrites]
    simp
  · rw [hview, hwrites, writable_nil]

end Copier

end SecretFanout
