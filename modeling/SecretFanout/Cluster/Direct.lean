import SecretFanout.Cluster.Change
import SecretFanout.Fanout.Program

/-!
# Direct access to a cluster

A cluster as the one that answers the calls of programs, without an interface between,
and a record of the calls that a program makes.

* `Cluster.direct` answers calls from the cluster alone.
* `Gateway.recorded` also writes down each call.
-/

namespace SecretFanout

/-- A reply to a call, with a refusal put into the words of a pass. -/
def reply {α : Type} (error : Cause → SyncError) : Except StoreFault α → Reply α
  | .ok a => .ok a
  | .error fault => .error (error (.store fault))

/-- A cluster that answers calls itself. -/
def Cluster.direct : Gateway Cluster where
  list c := (reply .listing (c.list.map fun l => l.map Namespace.snapshot), c)
  read key c :=
    let (r, c) := c.read key
    (reply (.reading key) r, c)
  create s c :=
    let (r, c) := c.create s.key s
    (reply (.writing .create s.key) r, c)
  replace s c :=
    let (r, c) := c.replace s.key s
    (reply (.writing .replace s.key) r, c)

/-! ## Records -/

/-- A call of a program. -/
inductive Call where
  /-- Namespaces were listed. -/
  | list
  /-- A secret was read. -/
  | read (key : SecretKey)
  /-- A secret was added. -/
  | create (key : SecretKey)
  /-- A secret was replaced. -/
  | replace (key : SecretKey)
  deriving DecidableEq

/-- A call in words. -/
def Call.text : Call → String
  | .list => "list"
  | .read key => "get " ++ key.text
  | .create key => "create " ++ key.text
  | .replace key => "replace " ++ key.text

/-- A gateway that also writes down each call, the latest last. -/
def Gateway.recorded {σ : Type} (g : Gateway σ) : Gateway (σ × List Call) where
  list s :=
    let (r, t) := g.list s.1
    (r, t, s.2 ++ [.list])
  read key s :=
    let (r, t) := g.read key s.1
    (r, t, s.2 ++ [.read key])
  create secret s :=
    let (r, t) := g.create secret s.1
    (r, t, s.2 ++ [.create secret.key])
  replace secret s :=
    let (r, t) := g.replace secret s.1
    (r, t, s.2 ++ [.replace secret.key])

end SecretFanout
