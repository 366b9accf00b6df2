import Mathlib.Logic.Function.Basic
import Mathlib.Logic.Relation
import SecretFanout.Fanout.Pass

/-!
# Programs side by side

Any number of programs at work on one state. One step answers the next call of one of
them, or lets the state change by itself; the steps come in any order.

* `Traffic.Step`, `Traffic.Reachable` — one step, and any number of them.
* `Traffic.invariant` — an assertion for each program holds throughout when the program's
  own calls keep it and the changes that anyone may make leave it standing.
* `Copier.Syncs` — the programs that list and otherwise bring copies up to date, one after
  the other; passes are such programs (`syncs_pass`).
* `step_syncTarget_bind`, `step_afterSource_bind` — the two readings of one copy, each with
  what is left after it.
-/

namespace SecretFanout

/-! ## Steps -/

/-- Programs and the state that they work on. -/
structure Traffic (σ ι α : Type) where
  /-- The state. -/
  state : σ
  /-- The programs, as far as they have come. -/
  programs : ι → Program α

namespace Traffic

variable {σ ι α : Type} [DecidableEq ι] {g : Gateway σ} {others : σ → σ → Prop}

/-- One step of the programs or of the state. -/
inductive Step (g : Gateway σ) (others : σ → σ → Prop) : Traffic σ ι α → Traffic σ ι α → Prop
  /-- The next call of a program is answered. -/
  | call (now : Traffic σ ι α) (i : ι) :
    Step g others now
      { state := ((now.programs i).step g now.state).2
        programs := Function.update now.programs i ((now.programs i).step g now.state).1 }
  /-- The state changes by itself. -/
  | other (now : Traffic σ ι α) {s : σ} (h : others now.state s) :
    Step g others now { now with state := s }

/-- Any number of steps. -/
abbrev Reachable (g : Gateway σ) (others : σ → σ → Prop) :
    Traffic σ ι α → Traffic σ ι α → Prop :=
  Relation.ReflTransGen (Step g others)

/-- The programs and the state once the next call of a program is answered. -/
def call (g : Gateway σ) (now : Traffic σ ι α) (i : ι) : Traffic σ ι α where
  state := ((now.programs i).step g now.state).2
  programs := Function.update now.programs i ((now.programs i).step g now.state).1

theorem step_call (now : Traffic σ ι α) (i : ι) : Step g others now (now.call g i) := .call now i

/-- **Assertions that nobody disturbs.**  Let every change of the state, by a call of a
program or by itself, be one of the changes `rely`. If the calls of a program keep the
assertion of this program, and the changes `rely` keep the assertion of any program, then
all assertions hold at every moment. -/
theorem invariant (Inv : σ → Prop) (Local : ι → Program α → σ → Prop) (rely : σ → σ → Prop)
    (hothers : ∀ {s t}, Inv s → others s t → rely s t)
    (hcall : ∀ {i p s}, Inv s → Local i p s →
      rely s (p.step g s).2 ∧ Local i (p.step g s).1 (p.step g s).2)
    (hinv : ∀ {s t}, Inv s → rely s t → Inv t)
    (hstable : ∀ {i p s t}, Inv s → rely s t → Local i p s → Local i p t)
    {start now : Traffic σ ι α} (hstart : Inv start.state)
    (hlocal : ∀ i, Local i (start.programs i) start.state) (h : Reachable g others start now) :
    Inv now.state ∧ ∀ i, Local i (now.programs i) now.state := by
  induction h with
  | refl => exact ⟨hstart, hlocal⟩
  | tail _ hstep ih =>
    obtain ⟨hi, hl⟩ := ih
    cases hstep with
    | call i =>
      obtain ⟨hrely, hown⟩ := hcall hi (hl i)
      refine ⟨hinv hi hrely, ?_⟩
      intro j
      by_cases hj : j = i
      · subst hj
        simpa using hown
      · simpa [Function.update_of_ne hj] using hstable hi hrely (hl j)
    | other hs =>
      have hrely := hothers hi hs
      exact ⟨hinv hi hrely, fun j => hstable hi hrely (hl j)⟩

end Traffic

/-! ## Programs that bring copies up to date -/

/-- The write that is the next call of a program, as a decision that is carried out. -/
def Program.write? {α : Type} : Program α → Option Decision
  | .create copy _ => some (.create copy)
  | .replace copy _ => some (.replace copy)
  | _ => none

namespace Copier

variable {c : Copier} {r : Rule} {ns : String} {α β σ : Type}

/-- What is left of one copy once its source is read. -/
def afterSource (c : Copier) (r : Rule) (ns : String) (source : Secret) :
    Program (Reply Outcome) :=
  .read (r.copyKey ns) fun
    | .error e => .done (.error e)
    | .ok found => (c.decide r ns source found).carryOut

/-- A copy into the namespace of its source takes no call. -/
theorem syncTarget_bind_of_eq (h : ns = r.source.ns) (next : Reply Outcome → Program α) :
    (c.syncTarget r ns).bind next = next (.ok .sameNamespace) := by
  rw [syncTarget, if_pos h, Program.bind]

/-- First the source is read. -/
theorem syncTarget_bind_of_ne (h : ns ≠ r.source.ns) (next : Reply Outcome → Program α) :
    (c.syncTarget r ns).bind next = .read r.source fun
      | .error e => next (.error e)
      | .ok none => next (.ok .sourceMissing)
      | .ok (some source) => (c.afterSource r ns source).bind next := by
  rw [syncTarget, if_neg h, Program.bind]
  refine congrArg (Program.read r.source) (funext fun found => ?_)
  match found with
  | .error e => rfl
  | .ok none => rfl
  | .ok (some source) => rfl

/-- What the first reading of a copy leads to. -/
theorem step_syncTarget_bind (g : Gateway σ) (s : σ) (h : ns ≠ r.source.ns)
    (next : Reply Outcome → Program α) :
    ((c.syncTarget r ns).bind next).step g s =
      (match (g.read r.source s).1 with
        | .error e => next (.error e)
        | .ok none => next (.ok .sourceMissing)
        | .ok (some source) => (c.afterSource r ns source).bind next,
      (g.read r.source s).2) := by
  rw [syncTarget_bind_of_ne h, Program.step]

/-- What the second reading of a copy leads to. -/
theorem step_afterSource_bind (g : Gateway σ) (s : σ) (source : Secret)
    (next : Reply Outcome → Program α) :
    ((c.afterSource r ns source).bind next).step g s =
      (match (g.read (r.copyKey ns) s).1 with
        | .error e => next (.error e)
        | .ok found => ((c.decide r ns source found).carryOut).bind next,
      (g.read (r.copyKey ns) s).2) := by
  rw [afterSource, Program.bind, Program.step]
  rcases g.read (r.copyKey ns) s with ⟨found, t⟩
  cases found <;> rfl

/-- A program that lists, and otherwise does nothing but bring copies up to date, each to
its end before the next. Only the copies that `covers` allows are among them. -/
inductive Syncs (c : Copier) (covers : Rule → String → Prop) : Program α → Prop
  /-- All is done. -/
  | done (a : α) : Syncs c covers (.done a)
  /-- The namespaces are listed. -/
  | list (next : Reply (List Snapshot) → Program α) (h : ∀ reply, Syncs c covers (next reply)) :
    Syncs c covers (.list next)
  /-- A copy is brought up to date. -/
  | sync {r : Rule} {ns : String} (hr : covers r ns) (next : Reply Outcome → Program α)
    (h : ∀ reply, Syncs c covers (next reply)) : Syncs c covers ((c.syncTarget r ns).bind next)

/-- Before a copy is read no write is due. -/
theorem Syncs.write?_eq_none {covers : Rule → String → Prop} {p : Program α}
    (h : c.Syncs covers p) : p.write? = none := by
  induction h with
  | done a => rfl
  | list next _ _ => rfl
  | @sync r ns hr next _ ih =>
    by_cases hns : ns = r.source.ns
    · rw [syncTarget_bind_of_eq hns]
      exact ih _
    · rw [syncTarget_bind_of_ne hns]
      rfl

theorem Syncs.bind {covers : Rule → String → Prop} {p : Program α} {f : α → Program β}
    (hp : c.Syncs covers p) (hf : ∀ a, c.Syncs covers (f a)) : c.Syncs covers (p.bind f) := by
  induction hp with
  | done a => exact hf a
  | list next _ ih => exact .list _ ih
  | sync hr next _ ih =>
    rw [Program.bind_assoc]
    exact .sync hr _ ih

theorem syncs_syncTargets {covers : Rule → String → Prop} (copies : List (Rule × String))
    (h : ∀ copy ∈ copies, covers copy.1 copy.2) (summary : PassSummary) :
    c.Syncs covers (c.syncTargets copies summary) := by
  induction copies generalizing summary with
  | nil => exact .done _
  | cons copy rest ih =>
    obtain ⟨r, ns⟩ := copy
    have hrest : ∀ copy ∈ rest, covers copy.1 copy.2 := fun copy hc => h copy (by simp [hc])
    refine .sync (h (r, ns) (by simp)) _ ?_
    intro reply
    cases reply with
    | ok outcome => exact ih hrest _
    | error e =>
      dsimp only
      split
      · exact ih hrest _
      · exact .done _

/-- A pass brings copies of its rules up to date and does nothing else. -/
theorem syncs_pass (c : Copier) : c.Syncs (fun r _ => r ∈ c.spec.rules) c.pass := by
  rw [pass]
  split
  · exact .done _
  · refine .list _ ?_
    intro reply
    cases reply with
    | error e => exact .done _
    | ok namespaces =>
      refine syncs_syncTargets _ ?_ _
      rintro ⟨r, ns⟩ hmem
      exact (mem_targets.1 hmem).1

end Copier

end SecretFanout
