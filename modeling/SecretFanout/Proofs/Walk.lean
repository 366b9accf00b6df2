import SecretFanout.Proofs.Settled

/-!
# Passes as walks

On a cluster that turns no call down a pass is a walk through its copies. It writes those,
and only those, that it does not find settled.

* `Copier.Visit`, `Copier.Walk` — what becomes of one copy, and of copies one after the
  other, with the keys that are written.
* `run_pass_of_calm` — a pass on a calm cluster is a walk, and its calls and its summary
  tell the keys that were written.
* `Walk.settled` — a walk leaves every copy settled whose source it does not write later.
* `Walk.untouched` — a walk leaves every secret that is none of the copier's copies.
* `PassIsIdle`, `passIsIdle_of_converged` — a pass that finds everything settled writes
  nothing.
-/

namespace SecretFanout

/-! ## Calls and their counts -/

/-- The key that a call writes, if it is a write. -/
def Call.written? : Call → Option SecretKey
  | .create key => some key
  | .replace key => some key
  | _ => none

/-- Whether something was written. -/
def Outcome.isWrite : Outcome → Bool
  | .created => true
  | .updated => true
  | _ => false

/-- The copies written in a pass. -/
def PassSummary.writes (s : PassSummary) : Nat := s.created + s.updated

theorem PassSummary.writes_record (s : PassSummary) (outcome : Outcome) :
    (s.record outcome).writes = s.writes + if outcome.isWrite then 1 else 0 := by
  cases outcome <;> simp [record, writes, Outcome.isWrite] <;> omega

theorem PassSummary.failed_record (s : PassSummary) (outcome : Outcome) :
    (s.record outcome).failed = s.failed := by
  cases outcome <;> rfl

/-- Keeping a record of the calls changes nothing about their replies. -/
theorem Program.run_recorded {α σ : Type} (g : Gateway σ) (p : Program α) (s : σ)
    (log : List Call) :
    (p.run g.recorded (s, log)).1 = (p.run g s).1 ∧
      (p.run g.recorded (s, log)).2.1 = (p.run g s).2 := by
  induction p generalizing s log with
  | done a => exact ⟨rfl, rfl⟩
  | list next ih => exact ih _ _ _
  | read key next ih => exact ih _ _ _
  | create x next ih => exact ih _ _ _
  | replace x next ih => exact ih _ _ _

/-! ## Calm clusters -/

namespace Cluster

variable {cl : Cluster} {key : SecretKey} {x old : Secret}

theorem read_of_calm (hf : cl.faults = {}) (key : SecretKey) :
    cl.read key = (.ok (cl.secrets.get? key), cl) := by
  simp [read, race, hf]

theorem direct_read_of_calm (hf : cl.faults = {}) (key : SecretKey) :
    direct.read key cl = (.ok (cl.secrets.get? key), cl) := by
  simp [direct, read_of_calm hf, reply]

theorem create_of_calm (hf : cl.faults = {}) (hfree : cl.secrets.get? key = none) (x : Secret) :
    cl.create key x = (.ok (), cl.put key (withAssignedUid key x)) := by
  simp [create, hf, SortedMap.contains, hfree]

theorem replace_of_calm (hf : cl.faults = {}) (hold : cl.secrets.get? key = some old)
    (hv : old.metadata.resourceVersion = x.metadata.resourceVersion) :
    cl.replace key x = (.ok (), cl.put key x) := by
  simp [replace, hf, hold, hv]

end Cluster

namespace Copier

variable {c : Copier} {r r' : Rule} {ns ns' : String} {cl cl' : Cluster} {copy : Secret}

/-! ## Visits -/

/-- What becomes of one copy: it is left because it is settled, or it is written, and then
under the mark and with the contents that its rule asks for. -/
inductive Visit (c : Copier) (r : Rule) (ns : String) (cl : Cluster) :
    Option SecretKey → Cluster → Prop
  /-- It is left. -/
  | leave (h : c.Settled r ns cl) : Visit c r ns cl none cl
  /-- It is written, and what it takes the place of is the copier's too. -/
  | write (copy : Secret) (hstale : ¬ c.Settled r ns cl) (hkey : copy.key = r.copyKey ns)
    (hmark : (c.ownership r).owns copy = true)
    (hcurrent : ∀ source, cl.secrets.get? r.source = some source → r.IsCurrent source copy)
    (hplace : ∀ old, cl.secrets.get? (r.copyKey ns) = some old →
      (c.ownership r).owns old = true) :
    Visit c r ns cl (some (r.copyKey ns)) (cl.put (r.copyKey ns) copy)

/-- On a calm cluster the work on one copy is a visit. -/
theorem run_syncTarget_of_calm (hf : cl.faults = {}) (hkeyed : cl.Keyed)
    (hns : ns ≠ r.source.ns) (log : List Call) :
    ∃ outcome written cl' calls,
      (c.syncTarget r ns).run Cluster.direct.recorded (cl, log) =
        (.ok outcome, cl', log ++ calls) ∧
      c.Visit r ns cl written cl' ∧ calls.filterMap Call.written? = written.toList ∧
      outcome.isWrite = written.isSome := by
  cases hsource : cl.secrets.get? r.source with
  | none =>
    refine ⟨.sourceMissing, none, cl, [.read r.source], ?_, .leave (settled_of_missing hsource),
      rfl, rfl⟩
    simp [syncTarget, hns, Program.run, Gateway.recorded, Cluster.direct_read_of_calm hf, hsource]
  | some source =>
    have hrun : (c.syncTarget r ns).run Cluster.direct.recorded (cl, log) =
        ((c.decide r ns source (cl.secrets.get? (r.copyKey ns))).carryOut).run
          Cluster.direct.recorded (cl, log ++ [.read r.source, .read (r.copyKey ns)]) := by
      simp [syncTarget, hns, Program.run, Gateway.recorded, Cluster.direct_read_of_calm hf, hsource]
    rw [hrun]
    cases hdecide : c.decide r ns source (cl.secrets.get? (r.copyKey ns)) with
    | leave outcome =>
      refine ⟨outcome, none, cl, [.read r.source, .read (r.copyKey ns)], ?_, .leave ?_, rfl, ?_⟩
      · rfl
      · exact (exists_leave_iff_settled hsource).1 ⟨outcome, hdecide⟩
      · obtain ⟨-, -, ⟨rfl, -⟩ | ⟨rfl, -⟩⟩ := decide_eq_leave hdecide <;> rfl
    | create copy =>
      obtain ⟨hfree, rfl⟩ := decide_eq_create_iff.1 hdecide
      refine ⟨.created, some (r.copyKey ns), _,
        [.read r.source, .read (r.copyKey ns), .create (r.copyKey ns)], ?_,
        .write (Cluster.withAssignedUid (r.copyKey ns) (c.newCopy r ns source)) ?_ rfl ?_ ?_ ?_,
        rfl, rfl⟩
      · simp [Decision.carryOut, Program.run, Gateway.recorded, Cluster.direct, reply, Except.map,
          Cluster.create_of_calm hf hfree]
      · rw [← exists_leave_iff_settled hsource, hdecide]
        rintro ⟨outcome, hleave⟩
        cases hleave
      · simp
      · exact ((isCurrent_newCopy c r ns source).withAssignedUid _).of_stored hsource
      · intro old hold
        rw [hfree] at hold
        cases hold
    | replace copy =>
      obtain ⟨old, hold, howns, -, rfl⟩ := decide_eq_replace_iff.1 hdecide
      have hkey : old.key = r.copyKey ns := hkeyed _ _ hold
      refine ⟨.updated, some (r.copyKey ns), _,
        [.read r.source, .read (r.copyKey ns), .replace (r.copyKey ns)], ?_,
        .write (source.refreshed old (r.copyLabels source)) ?_ hkey howns ?_ ?_, rfl, rfl⟩
      · have hreplace := Cluster.replace_of_calm (x := source.refreshed old (r.copyLabels source))
          hf hold rfl
        simp [Decision.carryOut, Program.run, Gateway.recorded, Cluster.direct, reply, Except.map,
          hkey, hreplace]
      · rw [← exists_leave_iff_settled hsource, hdecide]
        rintro ⟨outcome, hleave⟩
        cases hleave
      · exact (isCurrent_refreshed r source old).of_stored hsource
      · intro old' hold'
        obtain rfl := Option.some.inj (hold.symm.trans hold')
        exact howns

/-- After a visit the copy is settled. -/
theorem Visit.settles {written : Option SecretKey} (h : c.Visit r ns cl written cl')
    (hns : ns ≠ r.source.ns) (hr : '/' ∉ r.source.ns.toList) : c.Settled r ns cl' := by
  cases h with
  | leave hsettled => exact hsettled
  | write copy _ _ hmark hcurrent _ =>
    exact settled_put_self hns hr hmark hcurrent

/-- A visit leaves every other copy of its copier as settled as it was, unless it writes the
source of that copy. -/
theorem Visit.keeps {written : Option SecretKey} (h : c.Visit r ns cl written cl')
    (hr : '/' ∉ r.source.ns.toList) (hr' : '/' ∉ r'.source.ns.toList)
    (hagree : Agree (r, ns) (r', ns')) (hsource : written ≠ some r'.source)
    (hsettled : c.Settled r' ns' cl) : c.Settled r' ns' cl' := by
  cases h with
  | leave _ => exact hsettled
  | write copy _ _ hmark hcurrent _ =>
    have hne : r.copyKey ns ≠ r'.source := fun he => hsource (congrArg some he)
    by_cases hkey : r.copyKey ns = r'.copyKey ns'
    · exact settled_put_same hr hr' (hagree hkey) hne hkey hmark hcurrent
    · exact settled_put_of_ne hne hkey hsettled

/-- So does a visit for another copier, whatever the labels. -/
theorem Visit.keeps_foreign {d : Copier} {written : Option SecretKey}
    (h : d.Visit r ns cl written cl') (hname : c.name ≠ d.name)
    (hsource : written ≠ some r'.source) (hsettled : c.Settled r' ns' cl) :
    c.Settled r' ns' cl' := by
  cases h with
  | leave _ => exact hsettled
  | write copy _ _ hmark _ _ =>
    by_cases hkey : r.copyKey ns = r'.copyKey ns'
    · exact settled_put_foreign hname hkey hmark
    · exact settled_put_of_ne (fun he => hsource (congrArg some he)) hkey hsettled

/-! ## Walks -/

/-- Copies are visited one after the other, and some keys are written on the way. -/
inductive Walk (c : Copier) : Cluster → List (Rule × String) → List SecretKey → Cluster → Prop
  /-- All copies are visited. -/
  | nil (cl : Cluster) : Walk c cl [] [] cl
  /-- A copy is visited, and then the rest. -/
  | cons {r : Rule} {ns : String} {cl mid cl' : Cluster} {rest : List (Rule × String)}
    {written : Option SecretKey} {later : List SecretKey} (h : c.Visit r ns cl written mid)
    (hrest : Walk c mid rest later cl') : Walk c cl ((r, ns) :: rest) (written.toList ++ later) cl'

variable {copies : List (Rule × String)} {written : List SecretKey}

/-- What every visit of a walk keeps, the walk keeps. -/
theorem Walk.invariant {P : Cluster → Prop} (h : c.Walk cl copies written cl')
    (hvisit : ∀ {r ns w cl cl'}, (r, ns) ∈ copies → (∀ key, w = some key → key ∈ written) →
      c.Visit r ns cl w cl' → P cl → P cl') (hstart : P cl) : P cl' := by
  induction h with
  | nil cl => exact hstart
  | cons hfirst _ ih =>
    refine ih ?_ (hvisit (by simp) ?_ hfirst hstart)
    · intro r ns w cl cl' hmem hw
      exact hvisit (by simp [hmem]) fun key hk => by simp [hw key hk]
    · rintro key rfl
      simp

/-- A walk keeps the namespaces and the faults, and secrets under their own keys. -/
theorem Walk.frame (h : c.Walk cl copies written cl') (hkeyed : cl.Keyed) :
    cl'.namespaces = cl.namespaces ∧ cl'.faults = cl.faults ∧ cl'.Keyed := by
  refine h.invariant (P := fun now =>
    now.namespaces = cl.namespaces ∧ now.faults = cl.faults ∧ now.Keyed) ?_ ⟨rfl, rfl, hkeyed⟩
  rintro r ns w cl cl' - - hvisit ⟨hnamespaces, hfaults, hnow⟩
  cases hvisit with
  | leave _ => exact ⟨hnamespaces, hfaults, hnow⟩
  | write copy _ hkey _ _ _ => exact ⟨hnamespaces, hfaults, hnow.put hkey⟩

/-- A walk removes nothing. -/
theorem Walk.contains (h : c.Walk cl copies written cl') {key : SecretKey}
    (hkey : cl.secrets.contains key = true) : cl'.secrets.contains key = true := by
  refine h.invariant (P := fun now => now.secrets.contains key = true) ?_ hkey
  intro r ns w cl cl' _ _ hvisit hnow
  cases hvisit with
  | leave _ => exact hnow
  | write copy _ _ _ _ _ =>
    rw [SortedMap.contains, Cluster.get?_put]
    split
    · rfl
    · exact hnow

/-- A walk leaves a secret that carries the mark of none of the copies that go in its
place. -/
theorem Walk.untouched (h : c.Walk cl copies written cl') {key : SecretKey} {x : Secret}
    (hx : cl.secrets.get? key = some x)
    (hforeign : ∀ copy ∈ copies, copy.1.copyKey copy.2 = key →
      (c.ownership copy.1).owns x = false) :
    cl'.secrets.get? key = some x := by
  refine h.invariant (P := fun now => now.secrets.get? key = some x) ?_ hx
  intro r ns w cl cl' hmem _ hvisit hnow
  cases hvisit with
  | leave _ => exact hnow
  | write copy _ _ _ _ hplace =>
    rw [Cluster.get?_put, if_neg, hnow]
    rintro rfl
    have howns := hplace x hnow
    rw [hforeign (r, ns) hmem rfl] at howns
    cases howns

/-- A walk writes keys of copies only. -/
theorem Walk.mem_copies (h : c.Walk cl copies written cl') {key : SecretKey}
    (hkey : key ∈ written) : ∃ copy ∈ copies, copy.1.copyKey copy.2 = key := by
  induction h with
  | nil cl => cases hkey
  | @cons r ns _ _ _ rest _ later hfirst _ ih =>
    rcases List.mem_append.1 hkey with hkey | hkey
    · cases hfirst with
      | leave _ => cases hkey
      | write copy _ _ _ _ _ => exact ⟨(r, ns), by simp, by simpa [eq_comm] using hkey⟩
    · obtain ⟨copy, hc, hcopy⟩ := ih hkey
      exact ⟨copy, by simp [hc], hcopy⟩

/-- A walk leaves another copy of its copier as settled as it was, unless it writes the
source of that copy. -/
theorem Walk.keeps (h : c.Walk cl copies written cl')
    (hslash : ∀ copy ∈ copies, '/' ∉ copy.1.source.ns.toList) (hr' : '/' ∉ r'.source.ns.toList)
    (hagree : ∀ copy ∈ copies, Agree copy (r', ns')) (hsource : r'.source ∉ written)
    (hsettled : c.Settled r' ns' cl) : c.Settled r' ns' cl' := by
  refine h.invariant (P := c.Settled r' ns') ?_ hsettled
  intro r ns w cl cl' hmem hw hvisit hnow
  exact hvisit.keeps (hslash _ hmem) hr' (hagree _ hmem) (fun he => hsource (hw _ he)) hnow

/-- So does a walk for another copier. -/
theorem Walk.keeps_foreign {d : Copier} (h : d.Walk cl copies written cl')
    (hname : c.name ≠ d.name) (hsource : r'.source ∉ written)
    (hsettled : c.Settled r' ns' cl) : c.Settled r' ns' cl' := by
  refine h.invariant (P := c.Settled r' ns') ?_ hsettled
  intro r ns w cl cl' _ hw hvisit hnow
  exact hvisit.keeps_foreign hname (fun he => hsource (hw _ he)) hnow

/-- A walk settles every copy whose source is not written after the copy was visited. -/
theorem Walk.settled (h : c.Walk cl copies written cl')
    (hns : ∀ copy ∈ copies, copy.2 ≠ copy.1.source.ns)
    (hslash : ∀ copy ∈ copies, '/' ∉ copy.1.source.ns.toList)
    (hagree : ∀ copy ∈ copies, ∀ copy' ∈ copies, Agree copy copy')
    (hlater : copies.Pairwise fun copy copy' =>
      copy'.1.copyKey copy'.2 ∈ written → copy'.1.copyKey copy'.2 ≠ copy.1.source) :
    ∀ copy ∈ copies, c.Settled copy.1 copy.2 cl' := by
  induction h with
  | nil cl => simp
  | @cons r ns cl mid cl' rest w later hfirst hrest ih =>
    rw [List.pairwise_cons] at hlater
    obtain ⟨hsource, hlater⟩ := hlater
    have hrestSettled := ih (fun copy hc => hns copy (by simp [hc]))
      (fun copy hc => hslash copy (by simp [hc]))
      (fun copy hc copy' hc' => hagree copy (by simp [hc]) copy' (by simp [hc']))
      (hlater.imp fun hpair hw => hpair (by simp [hw]))
    rintro copy hcopy
    rcases List.mem_cons.1 hcopy with rfl | hcopy
    · have hsettled : c.Settled r ns mid := hfirst.settles (hns _ hcopy) (hslash _ hcopy)
      refine hrest.keeps (fun copy hc => hslash copy (by simp [hc])) (hslash _ hcopy)
        (fun copy hc => hagree copy (by simp [hc]) _ hcopy) ?_ hsettled
      intro hwritten
      obtain ⟨copy, hc, hkey⟩ := hrest.mem_copies hwritten
      exact hsource copy hc (by simp [hkey, hwritten]) hkey
    · exact hrestSettled copy hcopy

/-- A walk that finds every copy settled writes nothing. -/
theorem Walk.eq_of_settled (h : c.Walk cl copies written cl')
    (hsettled : ∀ copy ∈ copies, c.Settled copy.1 copy.2 cl) : written = [] ∧ cl' = cl := by
  induction h with
  | nil cl => exact ⟨rfl, rfl⟩
  | @cons r ns _ _ _ rest _ later hfirst _ ih =>
    cases hfirst with
    | leave _ => exact ih fun copy hc => hsettled copy (by simp [hc])
    | write copy hstale _ _ _ _ => exact absurd (hsettled (r, ns) (by simp)) hstale

/-! ## Passes -/

/-- On a calm cluster the work on a list of copies is a walk. -/
theorem run_syncTargets_of_calm (hns : ∀ copy ∈ copies, copy.2 ≠ copy.1.source.ns)
    (hf : cl.faults = {}) (hkeyed : cl.Keyed) (summary : PassSummary) (log : List Call) :
    ∃ final calls cl' written,
      (c.syncTargets copies summary).run Cluster.direct.recorded (cl, log) =
        (.ok final, cl', log ++ calls) ∧
      c.Walk cl copies written cl' ∧ calls.filterMap Call.written? = written ∧
      final.writes = summary.writes + written.length ∧ final.failed = summary.failed := by
  induction copies generalizing cl summary log with
  | nil => exact ⟨summary, [], cl, [], by simp [syncTargets, Program.run], .nil cl, rfl, rfl, rfl⟩
  | cons copy rest ih =>
    obtain ⟨r, ns⟩ := copy
    obtain ⟨outcome, w, mid, calls, hrun, hvisit, hcalls, hwrite⟩ :=
      run_syncTarget_of_calm (c := c) hf hkeyed (hns (r, ns) (by simp)) log
    have hone : c.Walk cl [(r, ns)] (w.toList ++ []) mid := .cons hvisit (.nil mid)
    obtain ⟨-, hfaults, hkeyed'⟩ := hone.frame hkeyed
    obtain ⟨final, calls', cl', later, hrun', hwalk, hcalls', hwrites, hfailed⟩ :=
      ih (fun copy hc => hns copy (by simp [hc])) (hfaults.trans hf) hkeyed' (summary.record outcome)
        (log ++ calls)
    refine ⟨final, calls ++ calls', cl', w.toList ++ later, ?_, .cons hvisit hwalk, ?_, ?_, ?_⟩
    · rw [syncTargets, Program.run_bind, hrun]
      simp only [hrun', List.append_assoc]
    · rw [List.filterMap_append, hcalls, hcalls']
    · rw [hwrites, PassSummary.writes_record, hwrite]
      cases w with
      | none => simp
      | some key =>
        simp only [Option.isSome_some, if_true, Option.toList_some, List.length_append,
          List.length_singleton]
        omega
    · rw [hfailed, PassSummary.failed_record]

/-- **Passes on calm clusters.**  A pass on a cluster that turns no call down ends without
an error and without a failed write. It is a walk through the copies of the copier, its
calls are writes of exactly the keys that the walk writes, and it counts as many. -/
theorem run_pass_of_calm (c : Copier) (hf : cl.faults = {}) (hkeyed : cl.Keyed) :
    ∃ summary calls cl' written,
      c.pass.run Cluster.direct.recorded (cl, []) = (.ok summary, cl', calls) ∧
      c.Walk cl (c.targets (cl.namespaces.map Namespace.snapshot)) written cl' ∧
      calls.filterMap Call.written? = written ∧ summary.writes = written.length ∧
      summary.failed = 0 := by
  by_cases hrules : c.spec.rules.isEmpty = true
  · have htargets : c.targets (cl.namespaces.map Namespace.snapshot) = [] := by
      rw [targets, List.isEmpty_iff.1 hrules, List.flatMap_nil]
    refine ⟨{}, [], cl, [], ?_, ?_, rfl, rfl, rfl⟩
    · rw [pass, if_pos hrules, Program.run]
    · rw [htargets]
      exact .nil cl
  · obtain ⟨summary, calls, cl', written, hrun, hwalk, hcalls, hwrites, hfailed⟩ :=
      run_syncTargets_of_calm (c := c) (fun _ hmem => ne_source_of_mem_targets hmem) hf hkeyed {}
        [.list]
    refine ⟨summary, .list :: calls, cl', written, ?_, hwalk, ?_, ?_, hfailed⟩
    · rw [pass, if_neg hrules, Program.run]
      simpa [Gateway.recorded, Cluster.direct, Cluster.list, hf, reply, Except.map] using hrun
    · rw [List.filterMap_cons_none rfl, hcalls]
    · simpa [PassSummary.writes] using hwrites

/-- A pass of a copier would write nothing, and leave the cluster as it is. -/
def PassIsIdle (c : Copier) (cl : Cluster) : Prop :=
  ∃ summary calls, c.pass.run Cluster.direct.recorded (cl, []) = (.ok summary, cl, calls) ∧
    calls.filterMap Call.written? = [] ∧
    summary.created = 0 ∧ summary.updated = 0 ∧ summary.failed = 0

/-- There is nothing to write for a copier whose copies are settled. -/
theorem passIsIdle_of_converged (hf : cl.faults = {}) (hkeyed : cl.Keyed)
    (h : c.Converged cl) : c.PassIsIdle cl := by
  obtain ⟨summary, calls, cl', written, hrun, hwalk, hcalls, hwrites, hfailed⟩ :=
    run_pass_of_calm c hf hkeyed
  obtain ⟨rfl, rfl⟩ := hwalk.eq_of_settled fun copy hmem => converged_iff.1 h _ _ hmem
  have hnone : summary.created + summary.updated = 0 := hwrites
  exact ⟨summary, calls, hrun, hcalls, by omega, by omega, hfailed⟩

end Copier

end SecretFanout
