import SecretFanout.Api.Server
import SecretFanout.Fanout.Pass
import SecretFanout.Fanout.Trigger

/-!
# The controller over time

A controller keeps at most one planned pass for each copier. Whatever concerns a copier
moves its pass to now; when the pass is over, the next one is planned from what it asks
for. Time is counted in milliseconds and a pass takes none. A write of the controller
itself is a change like any other.

* `Controller.step?` makes the next change or the next pass, whichever is first; at one
  moment changes come before passes, so that one pass sees them all.
* `Controller.runUntil` goes on to a moment, `Controller.timeline` is the record of it.
-/

namespace SecretFanout

/-- A change and its moment. -/
structure TimedChange where
  /-- The moment in milliseconds. -/
  time : Nat
  /-- The change. -/
  change : Change

/-! ## What concerns which copier -/

namespace Cluster

/-- All copiers, by name. -/
def copierList (c : Cluster) : List Copier := c.copiers.toList.map Prod.snd

/-- The names of the copiers that read a secret. -/
def readersOf (c : Cluster) (key : SecretKey) : List String :=
  (copiersForSecret c.copierList key).map Copier.name

/-- The names of the copiers that select a namespace. -/
def selectorsOf (c : Cluster) (n : Namespace) : List String :=
  (copiersForNamespace c.copierList n.snapshot).map Copier.name

end Cluster

/-- The names of the copiers that a change concerns, with the cluster as it was before. A
namespace that goes is taken as it stood. -/
def Change.concerns (change : Change) (before : Cluster) : List String :=
  match change with
  | .putCopier c => [c.name]
  | .putSecret s => before.readersOf s.key
  | .deleteSecret key => if before.secrets.contains key then before.readersOf key else []
  | .putNamespace n => before.selectorsOf n
  | .deleteNamespace name =>
    match before.namespaces.find? fun n => n.name = name with
    | some n => before.selectorsOf n
    | none => []
  | _ => []

/-! ## States -/

/-- A controller, the cluster it works on, and what is to come. -/
structure Controller where
  /-- The cluster. -/
  cluster : Cluster
  /-- The planned passes: copiers by name, with the moment. -/
  planned : SortedMap String Nat := .empty
  /-- The changes to come, the next one first. -/
  upcoming : List TimedChange := []
  /-- The time to the next attempt after an error. -/
  errorDelay : Duration
  /-- The exchanges so far with their moments, the latest first. -/
  record : List (Nat × String) := []

namespace Controller

/-- Plans passes of copiers for a moment. -/
def wake (k : Controller) (now : Nat) (names : List String) : Controller :=
  { k with planned := names.foldl (fun planned name => planned.insert name now) k.planned }

/-- A delay in whole milliseconds, rounded up. -/
def delayMillis (d : Duration) : Nat := (d.nanos + 999999) / 1000000

/-- The first planned pass; of several at one moment the first by name. -/
def firstPlanned (k : Controller) : Option (String × Nat) :=
  k.planned.toList.foldl (fun first e =>
    match first with
    | none => some e
    | some f => if e.2 < f.2 then some e else some f) none

/-- Makes a change. -/
def change (k : Controller) (now : Nat) (c : Change) : Controller :=
  { k with cluster := c.apply k.cluster }.wake now (c.concerns k.cluster)

/-- Makes the planned pass of a copier and plans the next one. -/
def passOf (k : Controller) (now : Nat) (name : String) : Controller :=
  let k := { k with planned := k.planned.erase name }
  let before := k.cluster
  match before.copiers.get? name with
  | none => k
  | some copier =>
    let (result, session) := copier.reconcile.run Api.Session.gateway { cluster := before }
    let planned :=
      match Action.afterAttempt k.errorDelay result with
      | .awaitChange => k.planned
      | .requeueAfter delay => k.planned.insert name (now + delayMillis delay)
    let after := session.cluster
    let record := session.exchanges.foldl (fun r e => (now, e.text) :: r) k.record
    let touched := (before.changedSecrets after).flatMap fun e => after.readersOf e.1
    { k with cluster := after, planned, record }.wake now touched

/-- What happens next. -/
inductive Next where
  /-- A change, with those that come after it. -/
  | change (c : TimedChange) (later : List TimedChange)
  /-- The planned pass of a copier. -/
  | pass (name : String) (time : Nat)

/-- The moment of what happens next. -/
def Next.time : Next → Nat
  | .change c _ => c.time
  | .pass _ time => time

/-- What happens next: the first change, unless the first planned pass is earlier. -/
def next? (k : Controller) : Option Next :=
  match k.upcoming, k.firstPlanned with
  | [], none => none
  | [], some (name, time) => some (.pass name time)
  | c :: later, none => some (.change c later)
  | c :: later, some (name, time) =>
    if c.time ≤ time then some (.change c later) else some (.pass name time)

/-- Lets it happen. -/
def happen (k : Controller) : Next → Controller
  | .change c later => { k with upcoming := later }.change c.time c.change
  | .pass name time => k.passOf time name

/-- The next change or pass, if it comes before the end. -/
def step? (k : Controller) (finish : Nat) : Option Controller :=
  match k.next? with
  | some next => if next.time < finish then some (k.happen next) else none
  | none => none

/-- Goes on to the end, for so many steps at most. -/
def advance (k : Controller) (finish : Nat) : Nat → Controller
  | 0 => k
  | n + 1 =>
    match k.step? finish with
    | some k => k.advance finish n
    | none => k

/-- A bound on the steps to the end, given how many passes one moment sees at most. -/
def stepBound (k : Controller) (finish perMoment : Nat) : Nat :=
  k.upcoming.length + finish * perMoment

/-- Passes at one moment that are let go on; copies that feed each other without coming to
rest would otherwise keep the moment from ending. -/
def passesPerMoment : Nat := 1000

/-- Goes on to a moment. -/
def runUntil (k : Controller) (finish : Nat) : Controller :=
  k.advance finish (k.stepBound finish passesPerMoment)

/-! ## Starting -/

/-- Puts a change at its place among others: before all that are later, behind the rest. -/
def insertChange (c : TimedChange) : List TimedChange → List TimedChange
  | [] => [c]
  | d :: rest => if c.time < d.time then c :: d :: rest else d :: insertChange c rest

/-- A controller for a cluster with copiers, each of which is looked at at once. -/
def start (namespaces : List Namespace) (secrets : List Secret) (copiers : List Copier)
    (changes : List TimedChange) (errorDelay : Duration) : Controller :=
  let k : Controller := {
    cluster := Cluster.start namespaces secrets
    upcoming := changes.foldl (fun l c => insertChange c l) []
    errorDelay }
  copiers.foldl (fun k c => k.change 0 (.putCopier c)) k

/-! ## The record -/

/-- Adds an exchange to the moments of a record, the latest moment first. -/
def addExchange (moments : List (Nat × List String)) (time : Nat) (text : String) :
    List (Nat × List String) :=
  match moments with
  | (t, texts) :: rest => if t = time then (t, text :: texts) :: rest else (time, [text]) :: moments
  | [] => [(time, [text])]

/-- The moments with exchanges, in units of a tenth of a second, and what was exchanged,
sorted and without repetitions. -/
def timeline (k : Controller) : List (Nat × List String) :=
  let moments := k.record.reverse.foldl (fun ms e => addExchange ms (e.1 / 100) e.2) []
  moments.reverse.map fun (time, texts) =>
    (time, (SortedMap.ofList (texts.map fun t => (t, ()))).toList.map Prod.fst)

end Controller

end SecretFanout
