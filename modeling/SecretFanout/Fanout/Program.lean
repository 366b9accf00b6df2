import SecretFanout.Fanout.Error
import SecretFanout.Object.Namespace

/-!
# Programs over a cluster

Work on a cluster as data: a program either has its result or makes one call and goes on
with the reply. The same program runs against any `Gateway`, which answers calls from a
state of its own, and can be taken one call at a time, with other calls in between.

* `Program.run` answers all calls of a program in a row, `Program.step` the first one.
* `run_bind`: a program in sequence with another runs as the two in sequence.
-/

namespace SecretFanout

/-- The reply to a call: a value, or what went wrong. -/
abbrev Reply (α : Type) := Except SyncError α

/-- Work on a cluster. -/
inductive Program (α : Type) where
  /-- The work is done. -/
  | done (result : α)
  /-- Lists the namespaces. -/
  | list (next : Reply (List Snapshot) → Program α)
  /-- Reads a secret, which may be missing. -/
  | read (key : SecretKey) (next : Reply (Option Secret) → Program α)
  /-- Adds a secret. -/
  | create (secret : Secret) (next : Reply Unit → Program α)
  /-- Puts a secret in the place of the version it was made from. -/
  | replace (secret : Secret) (next : Reply Unit → Program α)

/-- How a state of the outer world answers calls. -/
structure Gateway (σ : Type) where
  /-- Lists the namespaces. -/
  list : σ → Reply (List Snapshot) × σ
  /-- Reads a secret. -/
  read : SecretKey → σ → Reply (Option Secret) × σ
  /-- Adds a secret. -/
  create : Secret → σ → Reply Unit × σ
  /-- Puts a secret in the place of the version it was made from. -/
  replace : Secret → σ → Reply Unit × σ

namespace Program

variable {α β σ : Type}

/-- One program after another, which depends on the first one's result. -/
def bind : Program α → (α → Program β) → Program β
  | done a, f => f a
  | list next, f => list fun reply => (next reply).bind f
  | read key next, f => read key fun reply => (next reply).bind f
  | create secret next, f => create secret fun reply => (next reply).bind f
  | replace secret next, f => replace secret fun reply => (next reply).bind f

theorem bind_assoc {γ : Type} (p : Program α) (f : α → Program β) (g : β → Program γ) :
    (p.bind f).bind g = p.bind fun a => (f a).bind g := by
  induction p with
  | done a => rfl
  | list next ih => exact congrArg Program.list (funext ih)
  | read key next ih => exact congrArg (Program.read key) (funext ih)
  | create x next ih => exact congrArg (Program.create x) (funext ih)
  | replace x next ih => exact congrArg (Program.replace x) (funext ih)

/-- Answers the first call of a program. -/
def step (g : Gateway σ) : Program α → σ → Program α × σ
  | done a, s => (done a, s)
  | list next, s => let (reply, s) := g.list s; (next reply, s)
  | read key next, s => let (reply, s) := g.read key s; (next reply, s)
  | create secret next, s => let (reply, s) := g.create secret s; (next reply, s)
  | replace secret next, s => let (reply, s) := g.replace secret s; (next reply, s)

/-- Answers all calls of a program. -/
def run (g : Gateway σ) : Program α → σ → α × σ
  | done a, s => (a, s)
  | list next, s => let (reply, s) := g.list s; (next reply).run g s
  | read key next, s => let (reply, s) := g.read key s; (next reply).run g s
  | create secret next, s => let (reply, s) := g.create secret s; (next reply).run g s
  | replace secret next, s => let (reply, s) := g.replace secret s; (next reply).run g s

theorem run_bind (g : Gateway σ) (p : Program α) (f : α → Program β) (s : σ) :
    (p.bind f).run g s = (f (p.run g s).1).run g (p.run g s).2 := by
  induction p generalizing s with
  | done a => rfl
  | list next ih => exact ih _ _
  | read key next ih => exact ih _ _
  | create secret next ih => exact ih _ _
  | replace secret next ih => exact ih _ _

/-- Answering the first call changes nothing about how a program ends. -/
theorem run_step (g : Gateway σ) (p : Program α) (s : σ) :
    (p.step g s).1.run g (p.step g s).2 = p.run g s := by
  cases p <;> rfl

end Program

end SecretFanout
