import SecretFanout.Proofs.Store
import SecretFanout.Proofs.Traffic

/-!
# Only marked copies are written again

Any number of passes, of any copiers, on a store where others create, change and delete
what they like, all calls in any order. Between the reading of a copy and the write that
follows it anything may happen to the copy, yet a write that goes through has met what was
read.

* `Job` — a whole pass, or the work on one copy.
* `Copier.Grounded` — what is true of a job wherever it stands: if a copy was read and is
  about to be written again, the store remembers it.
* `accepted_writes_respect_marks` — a secret is only added where there is none, and one
  that is replaced carries at that moment the mark of the copier and of the source, and is
  the very version that was read.
-/

namespace SecretFanout

/-- Work for a copier. -/
inductive Job where
  /-- A whole pass. -/
  | pass (c : Copier)
  /-- The work on the copy of one rule in one namespace. -/
  | sync (c : Copier) (r : Rule) (ns : String)

namespace Job

/-- The copier that the work is for. -/
def copier : Job → Copier
  | pass c => c
  | sync c _ _ => c

/-- The copies that the work may be about. -/
def Covers : Job → Rule → String → Prop
  | pass c, r, _ => r ∈ c.spec.rules
  | sync _ r ns, r', ns' => r' = r ∧ ns' = ns

/-- The work as a program, whatever comes of it. -/
def program : Job → Program Unit
  | pass c => c.pass.bind fun _ => .done ()
  | sync c r ns => (c.syncTarget r ns).bind fun _ => .done ()

theorem syncs_program (job : Job) : job.copier.Syncs job.Covers job.program := by
  cases job with
  | pass c => exact (Copier.syncs_pass c).bind fun _ => .done ()
  | sync c r ns => exact .sync ⟨rfl, rfl⟩ _ fun _ => .done ()

end Job

/-! ## Where a job can stand -/

namespace Copier

variable {σ α : Type} {st : Store σ} {s t : σ} {c : Copier} {covers : Rule → String → Prop}
  {p : Program α}

/-- Where a program that brings copies up to date can stand: between two copies, or before
the second reading of one, or before the write, and then the store remembers what the
second reading has found. -/
inductive Grounded (st : Store σ) (c : Copier) (covers : Rule → String → Prop) (s : σ) :
    Program α → Prop
  /-- Between two copies. -/
  | between {p : Program α} (h : c.Syncs covers p) : Grounded st c covers s p
  /-- The source of a copy is read. -/
  | place {r : Rule} {ns : String} (hr : covers r ns) (source : Secret)
    (next : Reply Outcome → Program α) (h : ∀ reply, c.Syncs covers (next reply)) :
    Grounded st c covers s ((c.afterSource r ns source).bind next)
  /-- What stands in the place of a copy is read too. -/
  | write {r : Rule} {ns : String} (hr : covers r ns) (source : Secret) (found : Option Secret)
    (next : Reply Outcome → Program α) (h : ∀ reply, c.Syncs covers (next reply))
    (hfound : ∀ old, found = some old → st.Remembers s old) :
    Grounded st c covers s ((c.decide r ns source found).carryOut.bind next)

theorem Syncs.step_grounded (h : c.Syncs covers p) (g : Gateway σ) (s t : σ) :
    Grounded st c covers t (p.step g s).1 := by
  induction h with
  | done a => exact .between (.done a)
  | list next h _ => exact .between (h _)
  | @sync r ns hr next h ih =>
    by_cases hns : ns = r.source.ns
    · rw [syncTarget_bind_of_eq hns]
      exact ih _
    · rw [step_syncTarget_bind g s hns]
      dsimp only
      split
      · exact .between (h _)
      · exact .between (h _)
      · exact .place hr _ next h

/-- Whatever call a job makes, it stands at such a place again. -/
theorem Grounded.step (hst : st.Conditional) (hs : st.Coherent s)
    (h : Grounded st c covers s p) :
    Grounded st c covers (p.step st.gateway s).2 (p.step st.gateway s).1 := by
  cases h with
  | between h => exact h.step_grounded st.gateway s _
  | @place r ns hr source next h =>
    rw [step_afterSource_bind]
    cases hfound : (st.gateway.read (r.copyKey ns) s).1 with
    | error e => exact .between (h _)
    | ok found =>
      refine .write hr source found next h ?_
      rintro old rfl
      have hstored := hst.read_found hfound
      exact (hs.remembers hstored.symm).evolves (hst.read_evolves hs)
  | @write r ns hr source found next h _ =>
    cases hdecide : c.decide r ns source found with
    | create copy => exact .between (h _)
    | replace copy => exact .between (h _)
    | leave outcome => exact (h (.ok outcome)).step_grounded st.gateway s _

/-- Where a job stands does not depend on what others write meanwhile. -/
theorem Grounded.evolves (h : Grounded st c covers s p) (hst : st.Evolves s t) :
    Grounded st c covers t p := by
  cases h with
  | between h => exact .between h
  | place hr source next h => exact .place hr source next h
  | write hr source found next h hfound =>
    exact .write hr source found next h fun old hold => (hfound old hold).evolves hst

/-- A write that is due was decided about a copy of a rule, from what the store remembers. -/
theorem Grounded.decided {d : Decision} (h : Grounded st c covers s p) (hp : p.write? = some d) :
    ∃ r ns source found rest, covers r ns ∧ p = d.carryOut.bind rest ∧
      c.decide r ns source found = d ∧ ∀ old, found = some old → st.Remembers s old := by
  cases h with
  | between h => simp [h.write?_eq_none] at hp
  | place hr source next h => simp [afterSource, Program.bind, Program.write?] at hp
  | @write r ns hr source found next h hfound =>
    cases hdecide : c.decide r ns source found with
    | create copy =>
      rw [hdecide] at hp
      obtain rfl := Option.some.inj hp
      exact ⟨r, ns, source, found, next, hr, rfl, hdecide, hfound⟩
    | replace copy =>
      rw [hdecide] at hp
      obtain rfl := Option.some.inj hp
      exact ⟨r, ns, source, found, next, hr, rfl, hdecide, hfound⟩
    | leave outcome =>
      rw [hdecide] at hp
      have hnone : (Program.write? (next (.ok outcome))) = none := (h _).write?_eq_none
      have hclash : none = some d := hnone.symm.trans hp
      cases hclash

end Copier

/-! ## Jobs side by side -/

variable {σ ι : Type} [DecidableEq ι]

/-- Wherever the jobs have come to, the store is coherent and each job is grounded in it. -/
theorem grounded_of_reachable {st : Store σ} (hst : st.Conditional) {jobs : ι → Job} {start : σ}
    (hstart : st.Coherent start) {now : Traffic σ ι Unit}
    (h : Traffic.Reachable st.gateway st.Evolves ⟨start, fun i => (jobs i).program⟩ now) :
    st.Coherent now.state ∧
      ∀ i, (jobs i).copier.Grounded st (jobs i).Covers now.state (now.programs i) := by
  refine Traffic.invariant st.Coherent
    (fun i p s => (jobs i).copier.Grounded st (jobs i).Covers s p) st.Evolves
    (fun _ hother => hother) ?_ (fun _ hrely => hrely.coherent) ?_ hstart ?_ h
  · intro i p s hs hp
    exact ⟨hst.step_evolves hs p, hp.step hst hs⟩
  · intro i p s t _ hrely hp
    exact hp.evolves hrely
  · intro i
    exact .between (jobs i).syncs_program

/-- **Only marked copies are written again.**  Let passes and single copies of any copiers be
under way on a store that keeps to the conditions of writes, while others change anything
in it at any moment. Then wherever the jobs have come to:

* A copy that a job sends to be added is a new copy by one of its rules. If the store
  accepts it, nothing is stored under its key at that moment. The call changes no secret
  that is there.
* A copy that a job sends to be replaced is the secret `old` that it found in the copy's
  place, but for type, data and labels. If the store accepts it, then `old` is what is
  stored at that very moment, and carries exactly the mark of the copier and of the rule's
  source. The call changes no other secret, and none at all if it is turned down. -/
theorem accepted_writes_respect_marks {st : Store σ} (hst : st.Conditional) {jobs : ι → Job}
    {start : σ} (hstart : st.Coherent start) {now : Traffic σ ι Unit}
    (h : Traffic.Reachable st.gateway st.Evolves ⟨start, fun i => (jobs i).program⟩ now) (i : ι) :
    (∀ copy next, now.programs i = .create copy next →
      ∃ r ns source rest, (jobs i).Covers r ns ∧
        now.programs i = ((jobs i).copier.decide r ns source none).carryOut.bind rest ∧
        copy = (jobs i).copier.newCopy r ns source ∧
        ((st.gateway.create copy now.state).1 = .ok () → st.stored now.state copy.key = none) ∧
        ∀ key x, st.stored now.state key = some x →
          st.stored (st.gateway.create copy now.state).2 key = some x) ∧
    (∀ copy next, now.programs i = .replace copy next →
      ∃ r ns source old rest, (jobs i).Covers r ns ∧
        now.programs i = ((jobs i).copier.decide r ns source (some old)).carryOut.bind rest ∧
        copy = { old with
          type := source.type
          data := source.data
          metadata := { old.metadata with labels := some (r.copyLabels source) } } ∧
        ((st.gateway.replace copy now.state).1 = .ok () →
          st.stored now.state copy.key = some old ∧
          Ownership.ofSecret? old = some ⟨(jobs i).copier.name, r.sourceText⟩) ∧
        ∀ key x, st.stored now.state key = some x →
          st.stored (st.gateway.replace copy now.state).2 key ≠ some x →
          (st.gateway.replace copy now.state).1 = .ok () ∧ key = copy.key ∧ x = old) := by
  obtain ⟨-, hgrounded⟩ := grounded_of_reachable hst hstart h
  refine ⟨?_, ?_⟩
  · intro copy next hp
    obtain ⟨r, ns, source, found, rest, hr, hprogram, hdecide, -⟩ :=
      (hgrounded i).decided (congrArg Program.write? hp)
    obtain ⟨rfl, hcopy⟩ := decide_eq_create_iff.1 hdecide
    refine ⟨r, ns, source, rest, hr, hdecide.symm ▸ hprogram, hcopy, hst.create_free, ?_⟩
    intro key x hx
    by_contra hchanged
    obtain ⟨hok, rfl⟩ := hst.create_frame fun he => hchanged (he.trans hx)
    rw [hst.create_free hok] at hx
    cases hx
  · intro copy next hp
    obtain ⟨r, ns, source, found, rest, hr, hprogram, hdecide, hfound⟩ :=
      (hgrounded i).decided (congrArg Program.write? hp)
    obtain ⟨old, rfl, howns, -, hcopy⟩ := decide_eq_replace_iff.1 hdecide
    -- the version that was sent is the version that was read, so the store has that secret
    have haccepted : (st.gateway.replace copy now.state).1 = .ok () →
        st.stored now.state copy.key = some old := by
      intro hok
      obtain ⟨stored, hstored, hv⟩ := hst.replace_current hok
      rw [hcopy, Secret.resourceVersion_refreshed] at hv
      rw [hstored, (hfound old rfl).eq_of_stored hstored hv]
    refine ⟨r, ns, source, old, rest, hr, hdecide.symm ▸ hprogram, hcopy, ?_, ?_⟩
    · exact fun hok => ⟨haccepted hok, Ownership.owns_iff.1 howns⟩
    · intro key x hx hchanged
      obtain ⟨hok, rfl⟩ := hst.replace_frame fun he => hchanged (he.trans hx)
      rw [haccepted hok] at hx
      exact ⟨hok, rfl, (Option.some.inj hx).symm⟩

/-- The stale copy in the small cluster is met as it was read, although the source is changed
between its own reading and the copy's. -/
theorem stale_copy_is_replaced_as_read :
    ∃ now copy next old,
      Traffic.Reachable Cluster.direct Cluster.store.Evolves
        ⟨Sample.cluster, fun _ : Unit =>
          (Job.sync (Sample.team [Sample.spread]) Sample.spread "apps").program⟩ now ∧
      now.programs () = .replace copy next ∧
      (Cluster.direct.replace copy now.state).1 = .ok () ∧
      now.state.secrets.get? copy.key = some old ∧
      Ownership.ofSecret? old = some ⟨"team", "vault/token"⟩ := by
  have hstart : Cluster.store.Coherent Sample.cluster := Cluster.start_coherent _ _
  have hchange := Change.evolves (.putSecret { Sample.token with type := none }) hstart
  have hread : Traffic.Reachable Cluster.direct Cluster.store.Evolves
      ⟨Sample.cluster, fun _ : Unit =>
        (Job.sync (Sample.team [Sample.spread]) Sample.spread "apps").program⟩ _ :=
    .tail .refl (.call _ ())
  have hnow := (hread.tail (.other _ hchange)).tail (.call _ ())
  obtain ⟨-, hreplace⟩ :=
    accepted_writes_respect_marks Cluster.store_conditional hstart hnow ()
  obtain ⟨r, ns, source, old, rest, ⟨rfl, -⟩, -, -, haccepted, -⟩ := hreplace _ _ rfl
  obtain ⟨hstored, hmark⟩ := haccepted rfl
  exact ⟨_, _, _, old, hnow, rfl, rfl, hstored, hmark⟩

end SecretFanout
