import SecretFanout.Proofs.Settled
import SecretFanout.Proofs.Traffic

/-!
# Passes that keep a chronicle

Passes of one copier, one after the other, that also write down what comes of each copy. They
make the calls of ordinary passes, and what is written down can be spoken about afterwards.

* `Copier.toldPass`, `Copier.toldPasses` — a pass with its chronicle, and several of them;
  `toldPass_bind` and `toldPasses_bind` say that without the chronicle these are passes.
* `Copier.Tells` — the programs that list, bring copies up to date one after the other and write
  down each.
* `Stage`, `Copier.Stands` — where such a program can stand, and `Copier.Leads` what its next
  call leads to from there. `Stands.step` says that there is nothing else to it.
-/

namespace SecretFanout

/-- Copies with what came of them, the latest last. -/
abbrev Chronicle := List ((Rule × String) × Reply Outcome)

/-- A write has come to something exactly if it was not turned down. -/
theorem map_eq_ok_iff {reply : Reply Unit} {outcome made : Outcome} :
    (reply.map fun _ => made) = .ok outcome ↔ reply = .ok () ∧ outcome = made := by
  cases reply with
  | error e => simp [Except.map]
  | ok u => simp [Except.map, eq_comm]

namespace Copier

/-! ## Passes -/

/-- Brings copies up to date one after the other, and writes down what comes of each. -/
def toldTargets (c : Copier) : List (Rule × String) → PassSummary → Chronicle →
    Program (Reply PassSummary × Chronicle)
  | [], summary, told => .done (.ok summary, told)
  | (r, ns) :: rest, summary, told =>
    (c.syncTarget r ns).bind fun
      | .ok outcome =>
        c.toldTargets rest (summary.record outcome) (told ++ [((r, ns), .ok outcome)])
      | .error e =>
        if e.isWriteFailure then
          c.toldTargets rest summary.recordFailure (told ++ [((r, ns), .error e)])
        else .done (.error e, told ++ [((r, ns), .error e)])

/-- A pass that adds to a chronicle. -/
def toldPass (c : Copier) (told : Chronicle) : Program (Reply PassSummary × Chronicle) :=
  if c.spec.rules.isEmpty then .done (.ok {}, told)
  else
    .list fun
      | .error e => .done (.error e, told)
      | .ok namespaces => c.toldTargets (c.targets namespaces) {} told

/-- A number of passes one after the other, with one chronicle of them all. -/
def toldPasses (c : Copier) : Nat → Chronicle → Program Chronicle
  | 0, told => .done told
  | n + 1, told => (c.toldPass told).bind fun result => c.toldPasses n result.2

/-- A number of passes one after the other, whatever comes of them. -/
def passes (c : Copier) : Nat → Program Unit
  | 0 => .done ()
  | n + 1 => c.pass.bind fun _ => c.passes n

variable {c : Copier} {told : Chronicle}

theorem toldTargets_bind (copies : List (Rule × String)) (summary : PassSummary)
    (told : Chronicle) :
    ((c.toldTargets copies summary told).bind fun result => .done result.1) =
      c.syncTargets copies summary := by
  induction copies generalizing summary told with
  | nil => rfl
  | cons copy rest ih =>
    obtain ⟨r, ns⟩ := copy
    rw [toldTargets, syncTargets, Program.bind_assoc]
    refine congrArg (Program.bind (c.syncTarget r ns)) (funext fun reply => ?_)
    cases reply with
    | ok outcome => exact ih _ _
    | error e =>
      by_cases he : e.isWriteFailure = true
      · simp only [he, if_true]
        exact ih _ _
      · simp [he, Program.bind]

/-- Without its chronicle a told pass is a pass. -/
theorem toldPass_bind (c : Copier) (told : Chronicle) :
    ((c.toldPass told).bind fun result => .done result.1) = c.pass := by
  rw [toldPass, pass]
  split
  · rfl
  · rw [Program.bind]
    refine congrArg Program.list (funext fun reply => ?_)
    cases reply with
    | error e => rfl
    | ok namespaces => exact toldTargets_bind _ _ _

/-- And told passes are passes one after the other. -/
theorem toldPasses_bind (n : Nat) (told : Chronicle) :
    ((c.toldPasses n told).bind fun _ => .done ()) = c.passes n := by
  induction n generalizing told with
  | zero => rfl
  | succ n ih =>
    calc ((c.toldPasses (n + 1) told).bind fun _ => .done ())
        = (c.toldPass told).bind fun result =>
            (c.toldPasses n result.2).bind fun _ => .done () := Program.bind_assoc ..
      _ = (c.toldPass told).bind fun _ => c.passes n := by simp only [ih]
      _ = ((c.toldPass told).bind fun result => .done result.1).bind fun _ => c.passes n := by
          rw [Program.bind_assoc]
          rfl
      _ = c.passes (n + 1) := by rw [toldPass_bind, passes]

/-! ## Programs that keep a chronicle -/

/-- A program that lists, and otherwise does nothing but bring copies up to date, each to its end
before the next. It writes them down where `told` ends, and its result is all that it has written
down. -/
inductive Tells (c : Copier) : Chronicle → Program Chronicle → Prop
  /-- All is done. -/
  | done (told : Chronicle) : Tells c told (.done told)
  /-- The namespaces are listed. -/
  | list {told : Chronicle} (next : Reply (List Snapshot) → Program Chronicle)
    (h : ∀ reply, Tells c told (next reply)) : Tells c told (.list next)
  /-- A copy is brought up to date. -/
  | sync {told : Chronicle} {copy : Rule × String} (hrule : copy.1 ∈ c.spec.rules)
    (hns : copy.2 ≠ copy.1.source.ns) (next : Reply Outcome → Program Chronicle)
    (h : ∀ reply, Tells c (told ++ [(copy, reply)]) (next reply)) :
    Tells c told ((c.syncTarget copy.1 copy.2).bind next)

theorem tells_toldTargets {copies : List (Rule × String)}
    (hcopies : ∀ copy ∈ copies, copy.1 ∈ c.spec.rules ∧ copy.2 ≠ copy.1.source.ns)
    (summary : PassSummary) (told : Chronicle)
    {rest : Reply PassSummary × Chronicle → Program Chronicle}
    (hrest : ∀ result, c.Tells result.2 (rest result)) :
    c.Tells told ((c.toldTargets copies summary told).bind rest) := by
  induction copies generalizing summary told with
  | nil => exact hrest (.ok summary, told)
  | cons copy copies ih =>
    obtain ⟨r, ns⟩ := copy
    obtain ⟨hrule, hns⟩ := hcopies (r, ns) (by simp)
    have hlater : ∀ copy ∈ copies, copy.1 ∈ c.spec.rules ∧ copy.2 ≠ copy.1.source.ns :=
      fun copy hc => hcopies copy (by simp [hc])
    rw [toldTargets, Program.bind_assoc]
    refine .sync hrule hns _ ?_
    -- whether the pass goes on or not, the copy is written down before anything else is called
    intro reply
    cases reply with
    | ok outcome => exact ih hlater _ _
    | error e =>
      dsimp only
      split
      · exact ih hlater _ _
      · exact hrest (.error e, _)

theorem tells_toldPass (told : Chronicle) {rest : Reply PassSummary × Chronicle → Program Chronicle}
    (hrest : ∀ result, c.Tells result.2 (rest result)) :
    c.Tells told ((c.toldPass told).bind rest) := by
  rw [toldPass]
  split
  · exact hrest (.ok {}, told)
  · refine .list _ ?_
    intro reply
    cases reply with
    | error e => exact hrest (.error e, told)
    | ok namespaces =>
      refine tells_toldTargets ?_ _ _ hrest
      rintro ⟨r, ns⟩ hmem
      exact ⟨(mem_targets.1 hmem).1, ne_source_of_mem_targets hmem⟩

/-- Passes one after the other keep a chronicle of their copies. -/
theorem tells_toldPasses (n : Nat) (told : Chronicle) : c.Tells told (c.toldPasses n told) := by
  induction n generalizing told with
  | zero => exact .done told
  | succ n ih => exact tells_toldPass told fun result => ih result.2

/-- But for the chronicle these are the programs that bring copies up to date. -/
theorem Tells.syncs {p : Program Chronicle} (h : c.Tells told p) :
    c.Syncs (fun r _ => r ∈ c.spec.rules) p := by
  induction h with
  | done told => exact .done told
  | list next _ ih => exact .list next ih
  | sync hrule _ next _ ih => exact .sync hrule next ih

/-- What has been told at the end is the result. -/
theorem Tells.eq_of_done {log : Chronicle} (h : c.Tells told (.done log)) : log = told := by
  generalize hp : Program.done log = p at h
  cases h with
  | done told => exact Program.done.inj hp
  | list next h => cases hp
  | sync hrule hns next h =>
    rw [syncTarget_bind_of_ne hns] at hp
    cases hp

end Copier

/-! ## Stages -/

/-- How far a program has come with a copy. -/
inductive Stage where
  /-- Between two copies. -/
  | between
  /-- The source of the copy is read. -/
  | place (copy : Rule × String) (source : Secret) (next : Reply Outcome → Program Chronicle)
  /-- What stands in the place of the copy is read too, and a write is due. -/
  | write (copy : Rule × String) (source : Secret) (found : Option Secret)
    (next : Reply Outcome → Program Chronicle)

namespace Copier

variable {σ : Type} {c : Copier} {told : Chronicle} {stage : Stage} {p : Program Chronicle}

/-- A program stands at a stage, and `told` is what it has written down before. -/
inductive Stands (c : Copier) (told : Chronicle) : Stage → Program Chronicle → Prop
  /-- Between two copies. -/
  | between {p : Program Chronicle} (h : c.Tells told p) : Stands c told .between p
  /-- The source of a copy is read. -/
  | place {copy : Rule × String} (hrule : copy.1 ∈ c.spec.rules) (source : Secret)
    {next : Reply Outcome → Program Chronicle}
    (h : ∀ reply, c.Tells (told ++ [(copy, reply)]) (next reply)) :
    Stands c told (.place copy source next) ((c.afterSource copy.1 copy.2 source).bind next)
  /-- What stands in the place of a copy is read too. -/
  | write {copy : Rule × String} (hrule : copy.1 ∈ c.spec.rules) (source : Secret)
    (found : Option Secret) {next : Reply Outcome → Program Chronicle}
    (hdue : ∀ outcome, c.decide copy.1 copy.2 source found ≠ .leave outcome)
    (h : ∀ reply, c.Tells (told ++ [(copy, reply)]) (next reply)) :
    Stands c told (.write copy source found next)
      ((c.decide copy.1 copy.2 source found).carryOut.bind next)

/-- The next call of a program leads from one stage to the next, and `news` is what is written
down by it. -/
inductive Leads (c : Copier) (g : Gateway σ) (s : σ) (p : Program Chronicle) :
    Stage → Chronicle → Stage → Prop
  /-- No copy is concerned. -/
  | idle : Leads c g s p .between [] .between
  /-- There is no source, or it cannot be read. -/
  | unsourced {copy : Rule × String} {next : Reply Outcome → Program Chronicle}
    {reply : Reply Outcome} (hrule : copy.1 ∈ c.spec.rules)
    (hp : p = (c.syncTarget copy.1 copy.2).bind next) (hnext : (p.step g s).1 = next reply)
    (hread : (g.read copy.1.source s).1 = .ok none ∧ reply = .ok .sourceMissing ∨
      ∃ e, (g.read copy.1.source s).1 = .error e ∧ reply = .error e) :
    Leads c g s p .between [(copy, reply)] .between
  /-- The source is read. -/
  | opened {copy : Rule × String} {source : Secret} {next : Reply Outcome → Program Chronicle}
    (hrule : copy.1 ∈ c.spec.rules) (hp : p = (c.syncTarget copy.1 copy.2).bind next)
    (hnext : (p.step g s).1 = (c.afterSource copy.1 copy.2 source).bind next)
    (hread : (g.read copy.1.source s).1 = .ok (some source)) :
    Leads c g s p .between [] (.place copy source next)
  /-- What stands in the place of the copy cannot be read. -/
  | unplaced {copy : Rule × String} {source : Secret} {next : Reply Outcome → Program Chronicle}
    {e : SyncError} (hnext : (p.step g s).1 = next (.error e))
    (hread : (g.read (copy.1.copyKey copy.2) s).1 = .error e) :
    Leads c g s p (.place copy source next) [(copy, .error e)] .between
  /-- What stands in the place of the copy is left. -/
  | left {copy : Rule × String} {source : Secret} {next : Reply Outcome → Program Chronicle}
    {found : Option Secret} {outcome : Outcome} (hrule : copy.1 ∈ c.spec.rules)
    (hnext : (p.step g s).1 = next (.ok outcome))
    (hread : (g.read (copy.1.copyKey copy.2) s).1 = .ok found)
    (hdecide : c.decide copy.1 copy.2 source found = .leave outcome) :
    Leads c g s p (.place copy source next) [(copy, .ok outcome)] .between
  /-- What stands in the place of the copy is read, and a write is due. -/
  | placed {copy : Rule × String} {source : Secret} {next : Reply Outcome → Program Chronicle}
    {found : Option Secret} (hread : (g.read (copy.1.copyKey copy.2) s).1 = .ok found)
    (hdue : ∀ outcome, c.decide copy.1 copy.2 source found ≠ .leave outcome)
    (hnext : (p.step g s).1 = (c.decide copy.1 copy.2 source found).carryOut.bind next) :
    Leads c g s p (.place copy source next) [] (.write copy source found next)
  /-- The copy is made. -/
  | made {copy : Rule × String} {source : Secret} {next : Reply Outcome → Program Chronicle}
    {found : Option Secret} {x : Secret} (hrule : copy.1 ∈ c.spec.rules)
    (hdecide : c.decide copy.1 copy.2 source found = .create x)
    (hp : p = (Decision.create x).carryOut.bind next)
    (hnext : (p.step g s).1 = next ((g.create x s).1.map fun _ => .created)) :
    Leads c g s p (.write copy source found next)
      [(copy, (g.create x s).1.map fun _ => .created)] .between
  /-- The copy is written again. -/
  | renewed {copy : Rule × String} {source : Secret} {next : Reply Outcome → Program Chronicle}
    {found : Option Secret} {x : Secret} (hrule : copy.1 ∈ c.spec.rules)
    (hdecide : c.decide copy.1 copy.2 source found = .replace x)
    (hp : p = (Decision.replace x).carryOut.bind next)
    (hnext : (p.step g s).1 = next ((g.replace x s).1.map fun _ => .updated)) :
    Leads c g s p (.write copy source found next)
      [(copy, (g.replace x s).1.map fun _ => .updated)] .between

/-- Every call of a program that keeps a chronicle is one of these. -/
theorem Stands.step (h : c.Stands told stage p) (g : Gateway σ) (s : σ) :
    ∃ news stage', c.Leads g s p stage news stage' ∧
      c.Stands (told ++ news) stage' (p.step g s).1 := by
  cases h with
  | between h =>
    cases h with
    | done told => exact ⟨[], .between, .idle, .between (by simpa using .done told)⟩
    | list next h =>
      refine ⟨[], .between, .idle, .between ?_⟩
      rw [List.append_nil]
      exact h _
    | @sync _ copy hrule hns next h =>
      have hstep := congrArg Prod.fst (step_syncTarget_bind (c := c) g s hns next)
      cases hread : (g.read copy.1.source s).1 with
      | error e =>
        rw [hread] at hstep
        exact ⟨_, .between, .unsourced hrule rfl hstep (Or.inr ⟨e, hread, rfl⟩),
          .between (hstep ▸ h _)⟩
      | ok found =>
        rw [hread] at hstep
        cases found with
        | none =>
          exact ⟨_, .between, .unsourced hrule rfl hstep (Or.inl ⟨hread, rfl⟩),
            .between (hstep ▸ h _)⟩
        | some source =>
          refine ⟨[], _, .opened hrule rfl hstep hread, ?_⟩
          rw [List.append_nil, hstep]
          exact .place hrule source h
  | @place copy hrule source next h =>
    have hstep := congrArg Prod.fst (@step_afterSource_bind c copy.1 copy.2 _ _ g s source next)
    cases hread : (g.read (copy.1.copyKey copy.2) s).1 with
    | error e =>
      rw [hread] at hstep
      exact ⟨_, .between, .unplaced hstep hread, .between (hstep ▸ h _)⟩
    | ok found =>
      rw [hread] at hstep
      by_cases hleave : ∃ outcome, c.decide copy.1 copy.2 source found = .leave outcome
      · obtain ⟨outcome, hdecide⟩ := hleave
        have hnext : (((c.afterSource copy.1 copy.2 source).bind next).step g s).1 =
            next (.ok outcome) := by
          rw [hstep]
          dsimp only
          rw [hdecide]
          rfl
        exact ⟨_, .between, .left hrule hnext hread hdecide, .between (hnext ▸ h _)⟩
      · have hdue : ∀ outcome, c.decide copy.1 copy.2 source found ≠ .leave outcome :=
          fun outcome hd => hleave ⟨outcome, hd⟩
        refine ⟨[], _, .placed hread hdue hstep, ?_⟩
        rw [List.append_nil, hstep]
        exact .write hrule source found hdue h
  | @write copy hrule source found next hdue h =>
    cases hdecide : c.decide copy.1 copy.2 source found with
    | leave outcome => exact absurd hdecide (hdue outcome)
    | create x => exact ⟨_, .between, .made hrule hdecide rfl rfl, .between (h _)⟩
    | replace x => exact ⟨_, .between, .renewed hrule hdecide rfl rfl, .between (h _)⟩

/-- Where no write is due a program stands between two copies or before the second reading; the
write that is due is the one decided about. -/
theorem Stands.decided {d : Decision} (h : c.Stands told stage p) (hp : p.write? = some d) :
    ∃ copy source found next, stage = .write copy source found next ∧
      copy.1 ∈ c.spec.rules ∧ c.decide copy.1 copy.2 source found = d ∧
      p = d.carryOut.bind next := by
  cases h with
  | between h => simp [h.syncs.write?_eq_none] at hp
  | place hrule source h => simp [afterSource, Program.bind, Program.write?] at hp
  | @write copy hrule source found next hdue h =>
    have hd : c.decide copy.1 copy.2 source found = d := by
      cases hdecide : c.decide copy.1 copy.2 source found with
      | leave outcome => exact absurd hdecide (hdue outcome)
      | create x =>
        rw [hdecide] at hp
        exact Option.some.inj hp
      | replace x =>
        rw [hdecide] at hp
        exact Option.some.inj hp
    exact ⟨copy, source, found, next, rfl, hrule, hd, by rw [hd]⟩

/-- What a program has written down at its end is its result. -/
theorem Stands.eq_of_done {log : Chronicle} (h : c.Stands told stage (.done log)) :
    stage = .between ∧ log = told := by
  generalize hp : Program.done log = p at h
  cases h with
  | between h =>
    subst hp
    exact ⟨rfl, h.eq_of_done⟩
  | place hrule source h => cases hp
  | @write copy hrule source found next hdue h =>
    cases hdecide : c.decide copy.1 copy.2 source found with
    | leave outcome => exact absurd hdecide (hdue outcome)
    | create x =>
      rw [hdecide] at hp
      cases hp
    | replace x =>
      rw [hdecide] at hp
      cases hp

end Copier

end SecretFanout
