import SecretFanout.Cluster.Basic

/-!
# Changes from outside

What others do to a cluster between passes.

* `Change.apply` makes a change.
* `Cluster.start` is a cluster with given namespaces and secrets, the secrets written in
  the order given.
-/

namespace SecretFanout

/-- Something that others do to a cluster. -/
inductive Change where
  /-- Stores a secret under the key in its metadata. -/
  | putSecret (s : Secret)
  /-- Removes a secret. -/
  | deleteSecret (key : SecretKey)
  /-- Stores a namespace. -/
  | putNamespace (n : Namespace)
  /-- Removes a namespace, but not its secrets. -/
  | deleteNamespace (name : String)
  /-- Stores a copier. -/
  | putCopier (c : Copier)
  /-- Removes a copier. -/
  | deleteCopier (name : String)
  /-- Makes all writes of a key fail. -/
  | failWrites (key : SecretKey)
  /-- Makes all readings of a key fail. -/
  | failReads (key : SecretKey)
  /-- Makes listing the namespaces fail. -/
  | failListing
  /-- Ends all faults and forgets all races. -/
  | clearFaults
  /-- Makes the next reading of a key be followed by a write. -/
  | race (key : SecretKey)

/-- Puts a namespace in the place of the first one of its name, or at the end. -/
def replaceNamespace (n : Namespace) : List Namespace → List Namespace
  | [] => [n]
  | m :: rest => if m.name = n.name then n :: rest else m :: replaceNamespace n rest

theorem mem_replaceNamespace {n m : Namespace} {l : List Namespace}
    (h : m ∈ replaceNamespace n l) : m = n ∨ m ∈ l := by
  induction l with
  | nil => simpa [replaceNamespace] using h
  | cons k rest ih =>
    rw [replaceNamespace] at h
    split at h
    · rcases List.mem_cons.1 h with h | h
      · exact Or.inl h
      · exact Or.inr (by simp [h])
    · rcases List.mem_cons.1 h with h | h
      · exact Or.inr (by simp [h])
      · rcases ih h with h | h
        · exact Or.inl h
        · exact Or.inr (by simp [h])

/-- Removes the first namespace of a name. -/
def removeNamespace (name : String) : List Namespace → List Namespace
  | [] => []
  | m :: rest => if m.name = name then rest else m :: removeNamespace name rest

/-- Makes a change. Namespaces and copiers use up versions too, when they are stored or an
existing namespace is removed. -/
def Change.apply : Change → Cluster → Cluster
  | putSecret s, c => c.put s.key s
  | deleteSecret key, c => { c with secrets := c.secrets.erase key }
  | putNamespace n, c => { c.bump with namespaces := replaceNamespace n c.namespaces }
  | deleteNamespace name, c =>
    if c.namespaces.any fun n => n.name = name then
      { c.bump with namespaces := removeNamespace name c.namespaces }
    else c
  | putCopier copier, c => { c.bump with copiers := c.copiers.insert copier.name copier }
  | deleteCopier name, c => { c with copiers := c.copiers.erase name }
  | failWrites key, c => { c with faults := { c.faults with writes := key :: c.faults.writes } }
  | failReads key, c => { c with faults := { c.faults with reads := key :: c.faults.reads } }
  | failListing, c => { c with faults := { c.faults with listing := true } }
  | clearFaults, c => { c with faults := {} }
  | race key, c => { c with faults := { c.faults with races := key :: c.faults.races } }

/-- A cluster with namespaces and secrets. -/
def Cluster.start (namespaces : List Namespace) (secrets : List Secret) : Cluster :=
  secrets.foldl (fun c s => (Change.putSecret s).apply c) { namespaces }

/-- The secrets that differ between two clusters, with what the second one has. -/
def Cluster.changedSecrets (before after : Cluster) : List (SecretKey × Option Secret) :=
  let written := after.secrets.toList.filterMap fun (key, s) =>
    if before.secrets.get? key = some s then none else some (key, some s)
  let removed := before.secrets.toList.filterMap fun (key, _) =>
    if after.secrets.contains key then none else some (key, none)
  written ++ removed

end SecretFanout
