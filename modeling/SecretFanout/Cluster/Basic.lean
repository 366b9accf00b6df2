import SecretFanout.Copier.Basic
import SecretFanout.Fanout.Error
import SecretFanout.Text.Numeral

/-!
# Clusters

The part of a cluster that copying depends on: its namespaces in order, its secrets by
key, its copiers, and a version counter. Every stored secret carries the counter's value
at its last write, so no version is used twice, and a secret only takes the place of the
version that it was made from. Faults can be set that make calls fail, and races that
write a secret again behind the back of its next reader.

* `Cluster.create`, `Cluster.replace`, `Cluster.read`, `Cluster.list` are the calls.
* `get?_put`: a write changes one key.
-/

namespace SecretFanout

/-- What is to go wrong. -/
structure Faults where
  /-- Whether the namespaces cannot be listed. -/
  listing : Bool := false
  /-- The keys that cannot be read. -/
  reads : List SecretKey := []
  /-- The keys that cannot be written. -/
  writes : List SecretKey := []
  /-- The keys that are written again after their next reading. -/
  races : List SecretKey := []
  deriving DecidableEq

/-- A cluster. -/
structure Cluster where
  /-- The namespaces. -/
  namespaces : List Namespace := []
  /-- The secrets. -/
  secrets : SortedMap SecretKey Secret := .empty
  /-- The copiers. -/
  copiers : SortedMap String Copier := .empty
  /-- The number of the last version. -/
  version : Nat := 0
  /-- What is to go wrong. -/
  faults : Faults := {}

namespace Cluster

/-- The cluster with one more version used up. -/
def bump (c : Cluster) : Cluster := { c with version := c.version + 1 }

/-- Stores a secret under the next version. -/
def put (c : Cluster) (key : SecretKey) (s : Secret) : Cluster :=
  { c.bump with secrets := c.secrets.insert key (s.withVersion (Text.natText (c.version + 1))) }

/-- A write changes one key. -/
theorem get?_put (c : Cluster) (key k : SecretKey) (s : Secret) :
    (c.put key s).secrets.get? k =
      if k = key then some (s.withVersion (Text.natText (c.version + 1))) else c.secrets.get? k :=
  SortedMap.get?_insert ..

/-! ## Calls -/

/-- Lists the namespaces. -/
def list (c : Cluster) : Except StoreFault (List Namespace) :=
  if c.faults.listing then .error .unreachable else .ok c.namespaces

/-- Lets a race for a key take place: the secret, if it is there, is stored again. -/
def race (c : Cluster) (key : SecretKey) : Cluster :=
  if key ∈ c.faults.races then
    let c := { c with faults := { c.faults with races := c.faults.races.filter (· ≠ key) } }
    match c.secrets.get? key with
    | some s => c.put key s
    | none => c
  else c

/-- Reads a secret; a race for it takes place after the reading. -/
def read (c : Cluster) (key : SecretKey) : Except StoreFault (Option Secret) × Cluster :=
  if key ∈ c.faults.reads then (.error .timeout, c)
  else (.ok (c.secrets.get? key), c.race key)

/-- The identity that the cluster gives to a new secret. -/
def assignedUid (key : SecretKey) : String := key.ns ++ "-" ++ key.name ++ "-uid"

/-- A secret with the identity that the cluster gives to it. -/
def withAssignedUid (key : SecretKey) (s : Secret) : Secret :=
  { s with metadata := { s.metadata with uid := some (assignedUid key) } }

/-- Adds a secret where there is none. -/
def create (c : Cluster) (key : SecretKey) (s : Secret) : Except StoreFault Unit × Cluster :=
  if key ∈ c.faults.writes then (.error .forbidden, c)
  else if c.secrets.contains key then (.error .alreadyExists, c)
  else (.ok (), c.put key (withAssignedUid key s))

/-- Puts a secret in the place of the version that it was made from. -/
def replace (c : Cluster) (key : SecretKey) (s : Secret) : Except StoreFault Unit × Cluster :=
  if key ∈ c.faults.writes then (.error .forbidden, c)
  else
    match c.secrets.get? key with
    | none => (.error .notFound, c)
    | some stored =>
      if stored.metadata.resourceVersion = s.metadata.resourceVersion then (.ok (), c.put key s)
      else (.error .conflict, c)

end Cluster

end SecretFanout
