import Mathlib.Data.List.Nodup
import Mathlib.Logic.Relation
import SecretFanout.Fanout.Trigger
import SecretFanout.Proofs.Walk

/-!
# No lost wake-up

A controller looks at a copier again only when something has happened that the two triggers
connect with this copier. That is often enough: a copier that is not waiting to be looked at
has nothing to do.

* `Roster` — copiers that can be told apart and do not contradict themselves.
* `Watch`, `Watch.Step` — a cluster with the copiers that wait to be looked at; secrets and
  namespaces change, and copiers that wait make their passes.
* `Watch.Sound` — every copier that does not wait is converged; `Sound.step` says that this
  stays so whatever happens.
* `Sound.exists_pass` — a copier that waits can always make its pass.
* `no_lost_wakeup` — a pass of a copier that does not wait would write nothing.
-/

namespace SecretFanout

/-! ## The controller -/

/-- Copiers that a controller can look after. -/
structure Roster (copiers : List Copier) : Prop where
  /-- Each has a name. -/
  named : ∀ c ∈ copiers, c.metadata.name.isSome
  /-- No two have the same name. -/
  distinct : (copiers.map fun c => c.metadata.name).Nodup
  /-- The namespace of a source and its name can be told apart in a mark. -/
  slash_free : ∀ c ∈ copiers, ∀ r ∈ c.spec.rules, '/' ∉ r.source.ns.toList
  /-- Rules of one copier that give one name to the copies of one source put the same labels
  on them. -/
  agree : ∀ c ∈ copiers, ∀ r ∈ c.spec.rules, ∀ r' ∈ c.spec.rules, r.sourceText = r'.sourceText →
    r.copyName = r'.copyName → r.template.labels = r'.template.labels

/-- No copier is to keep a copy under a key. -/
def Untargeted (copiers : List Copier) (cl : Cluster) (key : SecretKey) : Prop :=
  ∀ c ∈ copiers, ∀ copy ∈ c.targets (cl.namespaces.map Namespace.snapshot),
    copy.1.copyKey copy.2 ≠ key

/-- A cluster and the copiers that wait to be looked at. -/
structure Watch where
  /-- The cluster. -/
  cluster : Cluster
  /-- The copiers that wait. -/
  pending : List CopierRef

namespace Watch

/-- Whether a copier waits. -/
def Pending (now : Watch) (c : Copier) : Prop := ∃ ref ∈ now.pending, c.ref? = some ref

/-- A start: nothing is to go wrong, and all copiers wait. -/
structure Start (copiers : List Copier) (now : Watch) : Prop where
  /-- No call is turned down. -/
  calm : now.cluster.faults = {}
  /-- Secrets are stored under their own keys. -/
  keyed : now.cluster.Keyed
  /-- All copiers wait. -/
  pending : copierRefs? copiers = some now.pending

/-- Something happens, and the copiers that it concerns wait from now on. -/
inductive Step (copiers : List Copier) : Watch → Watch → Prop
  /-- A secret that is nobody's copy is stored by someone else. -/
  | putSecret (now : Watch) (s : Secret) (hfree : Untargeted copiers now.cluster s.key)
    {woken : List CopierRef} (hwoken : copierRefs? (copiersForSecret copiers s.key) = some woken) :
    Step copiers now ⟨(Change.putSecret s).apply now.cluster, now.pending ++ woken⟩
  /-- A secret that is nobody's copy is removed by someone else. -/
  | deleteSecret (now : Watch) (key : SecretKey) (hfree : Untargeted copiers now.cluster key)
    {woken : List CopierRef} (hwoken : copierRefs? (copiersForSecret copiers key) = some woken) :
    Step copiers now ⟨(Change.deleteSecret key).apply now.cluster, now.pending ++ woken⟩
  /-- A namespace is added or changes. -/
  | putNamespace (now : Watch) (n : Namespace) {woken : List CopierRef}
    (hwoken : copierRefs? (copiersForNamespace copiers n.snapshot) = some woken) :
    Step copiers now ⟨(Change.putNamespace n).apply now.cluster, now.pending ++ woken⟩
  /-- A copier that waits makes its pass; what the pass writes may concern any copier. -/
  | pass (now : Watch) {c : Copier} (hc : c ∈ copiers) {ref : CopierRef}
    (href : c.ref? = some ref) (hpending : ref ∈ now.pending) {summary : PassSummary}
    {after : Cluster} {calls : List Call} {woken : List CopierRef}
    (hrun : c.pass.run Cluster.direct.recorded (now.cluster, []) = (.ok summary, after, calls))
    (hfailed : summary.failed = 0)
    (hwoken : copierRefs? ((calls.filterMap Call.written?).flatMap (copiersForSecret copiers)) =
      some woken) :
    Step copiers now ⟨after, now.pending.filter (· ≠ ref) ++ woken⟩

/-- Any number of steps. -/
abbrev Reachable (copiers : List Copier) : Watch → Watch → Prop :=
  Relation.ReflTransGen (Step copiers)

/-- Every copier that does not wait is converged. -/
structure Sound (copiers : List Copier) (now : Watch) : Prop where
  /-- No call is turned down. -/
  calm : now.cluster.faults = {}
  /-- Secrets are stored under their own keys. -/
  keyed : now.cluster.Keyed
  /-- Who does not wait is converged. -/
  converged : ∀ c ∈ copiers, ¬ now.Pending c → c.Converged now.cluster

end Watch

/-! ## What the triggers leave out -/

namespace Copier

variable {c d : Copier} {cl cl' : Cluster} {key : SecretKey}

theorem readsSecret_eq_false_iff :
    c.readsSecret key = false ↔ ∀ r ∈ c.spec.rules, r.source ≠ key := by
  simp [readsSecret, Rule.isSource]

theorem selectsNamespace_eq_false_iff {n : Snapshot} :
    c.selectsNamespace n = false ↔ ∀ r ∈ c.spec.rules, r.selects n = false := by
  simp [selectsNamespace]

/-- A secret that a copier neither reads nor keeps does not matter to it. -/
theorem Converged.of_elsewhere (h : c.Converged cl) (hnamespaces : cl'.namespaces = cl.namespaces)
    (hreads : c.readsSecret key = false)
    (hfree : ∀ copy ∈ c.targets (cl.namespaces.map Namespace.snapshot),
      copy.1.copyKey copy.2 ≠ key)
    (hframe : ∀ k, k ≠ key → cl'.secrets.get? k = cl.secrets.get? k) : c.Converged cl' := by
  rw [converged_iff] at h ⊢
  rw [hnamespaces]
  intro r ns hmem
  have hsource : r.source ≠ key := readsSecret_eq_false_iff.1 hreads r (mem_targets.1 hmem).1
  exact (h r ns hmem).congr (hframe _ hsource) (hframe _ (hfree _ hmem))

/-- Nor does a namespace that none of its rules selects. -/
theorem Converged.of_namespace {n : Namespace} (h : c.Converged cl)
    (hselects : c.selectsNamespace n.snapshot = false) :
    c.Converged ((Change.putNamespace n).apply cl) := by
  intro r hr m hm hactive hsel
  obtain ⟨k, hk, rfl⟩ := List.mem_map.1 hm
  rcases mem_replaceNamespace hk with rfl | hk
  · rw [selectsNamespace_eq_false_iff.1 hselects r hr] at hsel
    cases hsel
  · exact h r hr _ (List.mem_map_of_mem hk) hactive hsel

end Copier

/-! ## Copiers together -/

namespace Roster

variable {copiers : List Copier} {c d : Copier}

theorem exists_ref (h : Roster copiers) (hc : c ∈ copiers) : ∃ ref, c.ref? = some ref := by
  obtain ⟨name, hname⟩ := Option.isSome_iff_exists.1 (h.named c hc)
  exact ⟨⟨name, c.metadata.ns⟩, by simp [Copier.ref?, hname]⟩

/-- No two copiers are referred to in the same way. -/
theorem eq_of_ref_eq (h : Roster copiers) (hc : c ∈ copiers) (hd : d ∈ copiers) {ref : CopierRef}
    (hcref : c.ref? = some ref) (hdref : d.ref? = some ref) : c = d := by
  obtain ⟨name, hcname, rfl⟩ := Option.map_eq_some_iff.1 hcref
  obtain ⟨name', hdname, he⟩ := Option.map_eq_some_iff.1 hdref
  have hname : name' = name := congrArg CopierRef.name he
  exact List.inj_on_of_nodup_map h.distinct hc hd (by rw [hcname, hdname, hname])

/-- Nor do two copiers mark their copies with the same name. -/
theorem eq_of_name_eq (h : Roster copiers) (hc : c ∈ copiers) (hd : d ∈ copiers)
    (hname : c.name = d.name) : c = d := by
  obtain ⟨name, hcname⟩ := Option.isSome_iff_exists.1 (h.named c hc)
  obtain ⟨name', hdname⟩ := Option.isSome_iff_exists.1 (h.named d hd)
  simp only [Copier.name, ObjectMeta.anyName, hcname, hdname, Option.some_or, Option.getD_some]
    at hname
  exact List.inj_on_of_nodup_map h.distinct hc hd (by rw [hcname, hdname, hname])

/-- Whatever the namespaces, the rules of each copier do not contradict each other. -/
theorem consistent (h : Roster copiers) (hc : c ∈ copiers) (namespaces : List Snapshot) :
    c.Consistent namespaces := by
  refine ⟨h.slash_free c hc, ?_⟩
  intro copy hcopy copy' hcopy' hkey hsource
  obtain ⟨hr, -⟩ := Copier.mem_targets.1 hcopy
  obtain ⟨hr', -⟩ := Copier.mem_targets.1 hcopy'
  exact h.agree c hc copy.1 hr copy'.1 hr' hsource (congrArg SecretKey.name hkey)

/-- The triggers never fail to name a copier. -/
theorem exists_refs (h : Roster copiers) {l : List Copier} (hl : ∀ c ∈ l, c ∈ copiers) :
    ∃ refs, copierRefs? l = some refs :=
  exists_copierRefs? fun c hc => h.named c (hl c hc)

end Roster

/-! ## Steps -/

namespace Watch

variable {copiers : List Copier} {now next : Watch} {c d : Copier}

/-- A copier that does not wait after a step did not wait before it and was not woken. -/
theorem not_pending_append (hroster : Roster copiers) (hc : c ∈ copiers) {cl : Cluster}
    {pending woken : List CopierRef} {l : List Copier} (hwoken : copierRefs? l = some woken)
    (h : ¬ Pending ⟨cl, pending ++ woken⟩ c) : ¬ Pending ⟨cl, pending⟩ c ∧ c ∉ l := by
  refine ⟨?_, ?_⟩
  · rintro ⟨ref, hmem, href⟩
    exact h ⟨ref, List.mem_append_left _ hmem, href⟩
  · intro hl
    obtain ⟨ref, href⟩ := hroster.exists_ref hc
    exact h ⟨ref, List.mem_append_right _ (mem_of_copierRefs? hwoken hl href), href⟩

/-- A change from outside leaves nobody out, if it wakes every copier whose copies it could
unsettle. -/
theorem Sound.change (hroster : Roster copiers) (h : now.Sound copiers) (change : Change)
    (hfaults : (change.apply now.cluster).faults = now.cluster.faults) {concerns : Copier → Bool}
    {woken : List CopierRef} (hwoken : copierRefs? (copiers.filter concerns) = some woken)
    (hkeeps : ∀ c ∈ copiers, concerns c = false → c.Converged now.cluster →
      c.Converged (change.apply now.cluster)) :
    Sound copiers ⟨change.apply now.cluster, now.pending ++ woken⟩ := by
  refine ⟨hfaults.trans h.calm, h.keyed.change change, ?_⟩
  intro c hc hnot
  obtain ⟨hpending, hwake⟩ := not_pending_append hroster hc hwoken hnot
  have hconcerns : concerns c = false := by simpa [hc] using hwake
  exact hkeeps c hc hconcerns (h.converged c hc hpending)

/-- A pass leaves no copier that it does not wake with something to do: not the one it is
for, because that one's sources stayed as they were, and not another one, because what was
written in place of a copy of that one does not carry its mark. -/
theorem Sound.pass (hroster : Roster copiers) (h : now.Sound copiers) (hc : c ∈ copiers)
    {after : Cluster} {written : List SecretKey}
    (hwalk : c.Walk now.cluster (c.targets (now.cluster.namespaces.map Namespace.snapshot))
      written after)
    (hd : d ∈ copiers) (hpending : c ≠ d → ¬ now.Pending d)
    (hreads : ∀ key ∈ written, d.readsSecret key = false) : d.Converged after := by
  obtain ⟨hnamespaces, -, -⟩ := hwalk.frame h.keyed
  have hsources : ∀ r ∈ d.spec.rules, r.source ∉ written := by
    intro r hr hmem
    exact Copier.readsSecret_eq_false_iff.1 (hreads _ hmem) r hr rfl
  rw [Copier.converged_iff, hnamespaces]
  intro r ns hmem
  obtain ⟨hr, -⟩ := Copier.mem_targets.1 hmem
  by_cases hcd : c = d
  · subst hcd
    have hrules := hroster.consistent hc (now.cluster.namespaces.map Namespace.snapshot)
    refine hwalk.settled (fun _ hcopy => Copier.ne_source_of_mem_targets hcopy)
      hrules.slash_free_targets hrules.agree ?_ (r, ns) hmem
    refine List.pairwise_of_forall_mem_list ?_
    intro copy hcopy copy' _ hwritten hkey
    exact hsources copy.1 (Copier.mem_targets.1 hcopy).1 (hkey ▸ hwritten)
  · have hname : d.name ≠ c.name := fun he => hcd (hroster.eq_of_name_eq hc hd he.symm)
    have hsettled := Copier.converged_iff.1 (h.converged d hd (hpending hcd)) r ns hmem
    exact hwalk.keeps_foreign hname (hsources r hr) hsettled

/-- Whatever happens, whoever does not wait afterwards is converged. -/
theorem Sound.step (hroster : Roster copiers) (h : now.Sound copiers)
    (hstep : Step copiers now next) : next.Sound copiers := by
  cases hstep with
  | putSecret s hfree hwoken =>
    refine h.change hroster (.putSecret s) rfl hwoken ?_
    intro c hc hreads hconverged
    refine hconverged.of_elsewhere rfl hreads (hfree c hc) ?_
    intro k hk
    rw [Change.apply, Cluster.get?_put, if_neg hk]
  | deleteSecret key hfree hwoken =>
    refine h.change hroster (.deleteSecret key) rfl hwoken ?_
    intro c hc hreads hconverged
    refine hconverged.of_elsewhere rfl hreads (hfree c hc) ?_
    intro k hk
    rw [Change.apply, SortedMap.get?_erase, if_neg hk]
  | putNamespace n hwoken =>
    refine h.change hroster (.putNamespace n) rfl hwoken ?_
    intro c _ hselects hconverged
    exact hconverged.of_namespace hselects
  | @pass c hc ref href hmem summary after calls woken hrun hfailed hwoken =>
    obtain ⟨summary', calls', after', written, hrun', hwalk, hcalls, -, -⟩ :=
      Copier.run_pass_of_calm c h.calm h.keyed
    obtain ⟨-, rfl, rfl⟩ : summary = summary' ∧ after = after' ∧ calls = calls' := by
      simpa using hrun.symm.trans hrun'
    subst hcalls
    obtain ⟨-, hfaults, hkeyed⟩ := hwalk.frame h.keyed
    refine ⟨hfaults.trans h.calm, hkeyed, ?_⟩
    intro d hd hnot
    obtain ⟨hpending, hwake⟩ := not_pending_append hroster hd hwoken hnot
    refine h.pass hroster hc hwalk hd ?_ ?_
    · -- another copier that waited before would still wait
      rintro hcd ⟨ref', hmem', href'⟩
      have hne : ref' ≠ ref := by
        rintro rfl
        exact hcd (hroster.eq_of_ref_eq hc hd href href')
      exact hpending ⟨ref', List.mem_filter.2 ⟨hmem', by simpa using hne⟩, href'⟩
    · intro key hkey
      by_contra hreads
      refine hwake (List.mem_flatMap.2 ⟨key, hkey, List.mem_filter.2 ⟨hd, ?_⟩⟩)
      simpa using hreads

/-- A copier that waits can make its pass: it fails nowhere, and whom it wakes can be named. -/
theorem Sound.exists_pass (hroster : Roster copiers) (h : now.Sound copiers) (hc : c ∈ copiers)
    (hpending : now.Pending c) : ∃ next, Step copiers now next := by
  obtain ⟨ref, hmem, href⟩ := hpending
  obtain ⟨summary, calls, after, written, hrun, -, -, -, hfailed⟩ :=
    Copier.run_pass_of_calm c h.calm h.keyed
  have hnamed : ∀ d ∈ (calls.filterMap Call.written?).flatMap (copiersForSecret copiers),
      d ∈ copiers := by
    intro d hd
    obtain ⟨key, -, hd⟩ := List.mem_flatMap.1 hd
    exact (List.mem_filter.1 hd).1
  obtain ⟨woken, hwoken⟩ := hroster.exists_refs hnamed
  exact ⟨_, .pass now hc href hmem hrun hfailed hwoken⟩

theorem Start.sound (hroster : Roster copiers) (h : now.Start copiers) : now.Sound copiers := by
  refine ⟨h.calm, h.keyed, ?_⟩
  intro c hc hnot
  obtain ⟨ref, href⟩ := hroster.exists_ref hc
  exact absurd ⟨ref, mem_of_copierRefs? h.pending hc href, href⟩ hnot

/-- At every moment, whoever does not wait is converged. -/
theorem sound_of_reachable (hroster : Roster copiers) {start : Watch}
    (hstart : start.Start copiers) (h : Reachable copiers start now) : now.Sound copiers := by
  induction h with
  | refl => exact hstart.sound hroster
  | tail _ hstep ih => exact ih.step hroster hstep

end Watch

/-- **No wake-up is lost.**  Let a controller start with all of its copiers waiting. From then
on others store and remove secrets where no copy belongs, namespaces are added and change,
and copiers that wait make their passes, in any order, and after each of these steps those
copiers wait that the triggers name. Then at every moment:

* A copier that does not wait has all of its copies settled, and a pass of it would write
  nothing.
* So if nobody waits, all copiers have. -/
theorem no_lost_wakeup {copiers : List Copier} (hroster : Roster copiers) {start now : Watch}
    (hstart : start.Start copiers) (h : Watch.Reachable copiers start now) :
    (∀ c ∈ copiers, ¬ now.Pending c → c.PassIsIdle now.cluster ∧ c.Converged now.cluster) ∧
      (now.pending = [] → ∀ c ∈ copiers,
        c.PassIsIdle now.cluster ∧ c.Converged now.cluster) := by
  have hsound := Watch.sound_of_reachable hroster hstart h
  have hidle : ∀ c ∈ copiers, ¬ now.Pending c →
      c.PassIsIdle now.cluster ∧ c.Converged now.cluster := by
    intro c hc hnot
    have hconverged := hsound.converged c hc hnot
    exact ⟨Copier.passIsIdle_of_converged hsound.calm hsound.keyed hconverged, hconverged⟩
  refine ⟨hidle, ?_⟩
  intro hnobody c hc
  refine hidle c hc ?_
  rintro ⟨ref, hmem, -⟩
  rw [hnobody] at hmem
  cases hmem

/-- A copier that passed too early is woken by the write of the one it copies from. -/
theorem no_lost_wakeup_relay :
    ∃ now, Watch.Reachable [Sample.team [Sample.spread], Sample.relay]
        ⟨Sample.cluster, [⟨"team", none⟩, ⟨"relay", none⟩]⟩ now ∧
      now.pending = [] ∧ Sample.relay.PassIsIdle now.cluster := by
  have hroster : Roster [Sample.team [Sample.spread], Sample.relay] :=
    ⟨by decide, by decide, by decide, by decide⟩
  have hstart : Watch.Start [Sample.team [Sample.spread], Sample.relay]
      ⟨Sample.cluster, [⟨"team", none⟩, ⟨"relay", none⟩]⟩ :=
    ⟨rfl, Cluster.Keyed.start _ _, rfl⟩
  have hearly := Relation.ReflTransGen.single (Watch.Step.pass
    ⟨Sample.cluster, [⟨"team", none⟩, ⟨"relay", none⟩]⟩
    (List.mem_cons_of_mem (Sample.team [Sample.spread]) (List.mem_singleton_self Sample.relay)) rfl
    (by decide) rfl rfl rfl)
  have hteam := hearly.tail (.pass _ List.mem_cons_self rfl (by decide) rfl rfl rfl)
  have hnow := hteam.tail
    (.pass _ (List.mem_cons_of_mem _ (List.mem_singleton_self _)) rfl (by decide) rfl rfl rfl)
  obtain ⟨-, hidle⟩ := no_lost_wakeup hroster hstart hnow
  exact ⟨_, hnow, rfl, (hidle rfl Sample.relay (by simp)).1⟩

end SecretFanout
