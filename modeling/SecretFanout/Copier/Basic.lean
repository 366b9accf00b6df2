import SecretFanout.Copier.Target
import SecretFanout.Duration
import SecretFanout.Object.Secret

/-!
# Copiers

A copier is a cluster object with a list of rules and a period. Each rule names a
source secret, the namespaces to copy it to, and what to change in the copies.

* `Rule.selects` says which namespaces get a copy; the source's own never does.
* `Copier.syncPeriod` reads the period, `Copier.nextPassDelay` is the time to the next
  pass by the clock.
-/

namespace SecretFanout

/-! ## Rules -/

/-- What to change in a copy. -/
structure CopyTemplate where
  /-- The copy's name, if it is not the source's. -/
  name : Option String := none
  /-- Labels put over the source's. -/
  labels : TextMap := .empty
  deriving DecidableEq

/-- What happens to copies when their copier goes. -/
inductive ReclaimPolicy where
  /-- They go with it. -/
  | delete
  /-- They stay. -/
  | retain
  deriving DecidableEq

/-- A source and where its copies go. -/
structure Rule where
  /-- The secret to copy. -/
  source : SecretKey
  /-- The namespaces to copy it to. -/
  target : Target := {}
  /-- What to change in the copies. -/
  template : CopyTemplate := {}
  /-- What happens to the copies when the copier goes. -/
  reclaim : ReclaimPolicy := .delete
  deriving DecidableEq

namespace Rule

/-- The name of the copies: the template's unless that is missing or empty, else the source's. -/
def copyName (r : Rule) : String :=
  match r.template.name with
  | some name => if name = "" then r.source.name else name
  | none => r.source.name

/-- Where the copy for a namespace is stored. -/
def copyKey (r : Rule) (ns : String) : SecretKey := ⟨ns, r.copyName⟩

/-- The source as `namespace/name`. -/
def sourceText (r : Rule) : String := r.source.text

/-- Whether a namespace gets a copy. -/
def selects (r : Rule) (ns : Snapshot) : Bool :=
  ns.name != r.source.ns && r.target.accepts ns

/-- Whether a secret is the source. -/
def isSource (r : Rule) (key : SecretKey) : Bool := r.source = key

end Rule

/-! ## Copiers -/

/-- What a copier is asked to do. -/
structure CopierSpec where
  /-- The rules, in the order in which they are carried out. -/
  rules : List Rule := []
  /-- The time between two passes, as written. -/
  syncPeriod : String := "1m"
  deriving DecidableEq

/-- A copier. -/
structure Copier where
  /-- Its metadata. -/
  metadata : ObjectMeta := {}
  /-- What it is asked to do. -/
  spec : CopierSpec := {}
  deriving DecidableEq

namespace Copier

/-- The group of the copier kind. -/
def group : String := "secrets-manager.advok8s.io"

/-- The version of the copier kind. -/
def version : String := "v1beta1"

/-- The name of the copier kind. -/
def kind : String := "SecretCopier"

/-- Group and version of the copier kind. -/
def apiVersion : String := group ++ "/" ++ version

/-- The longest period in seconds: one year. -/
def longestPeriod : Nat := 365 * 24 * 60 * 60

/-- The name under which a copier marks its copies. -/
def name (c : Copier) : String := c.metadata.anyName

/-- Whether the copier was asked to go. -/
def isBeingDeleted (c : Copier) : Bool := c.metadata.deletionTimestamp.isSome

/-- The time between two passes, at most a year. -/
def syncPeriod (c : Copier) : Except Duration.ReadError Duration :=
  match Duration.read c.spec.syncPeriod.toList with
  | .error e => .error e
  | .ok period =>
    if period ≤ .ofSeconds longestPeriod then .ok period
    else .error (.tooLong c.spec.syncPeriod longestPeriod)

/-- The time to the next pass by the clock; a period of zero asks for none. -/
def nextPassDelay (c : Copier) : Except Duration.ReadError (Option Duration) :=
  match c.syncPeriod with
  | .error e => .error e
  | .ok period => .ok (if period = 0 then none else some period)

/-- The reference by which a copier owns its copies; it takes a name and an identity. -/
def ownerReference? (c : Copier) : Option OwnerReference :=
  match c.metadata.name, c.metadata.uid with
  | some name, some uid =>
    some { apiVersion := apiVersion, kind := kind, name := name, uid := uid, controller := some true }
  | _, _ => none

end Copier

end SecretFanout
