import SecretFanout.Api.Client
import SecretFanout.Discovery.Group

/-!
# Asking for the served kinds

First the list of groups is asked for, then each version of those groups that matter. One
answer that is not of the right form is enough to learn nothing.

* `Transport.discover` asks for all that is served in the copiers' group.
-/

namespace SecretFanout

/-- Why nothing was learned about the served kinds. -/
inductive DiscoveryError where
  /-- A request brought no result. -/
  | api (failure : Api.Failure)
  /-- A group has no versions. -/
  | emptyGroup
  deriving DecidableEq

/-- A version of a group as it stands in a list of groups. -/
structure GroupVersion where
  /-- The group and the version, by which the version is asked for. -/
  address : String
  /-- The version. -/
  version : String
  deriving DecidableEq

/-- A group as it stands in a list of groups. -/
structure GroupEntry where
  /-- Its name. -/
  name : String
  /-- Its versions. -/
  versions : List GroupVersion
  /-- The version that the cluster prefers. -/
  preferred : Option GroupVersion
  deriving DecidableEq

/-! ## Documents -/

namespace Json

/-- A text that is empty if it is left out or null. -/
def textOrEmpty (fields : Fields) (name : String) : Option String :=
  (optional fields name text?).map fun s => s.getD ""

/-- A list that is empty if it is left out or null. -/
def listOrEmpty {α : Type} (fields : Fields) (name : String) (item : Json → Option α) :
    Option (List α) :=
  (optional fields name (list? item)).map fun l => l.getD []

end Json

/-- Reads a version in a list of groups. -/
def GroupVersion.ofJson? (j : Json) : Option GroupVersion := do
  let fields ← j.fields?
  pure {
    address := ← Json.textOrEmpty fields "groupVersion"
    version := ← Json.textOrEmpty fields "version" }

/-- Reads a server's address for some clients, of which nothing is used. -/
def addressOfJson? (j : Json) : Option Unit := do
  let fields ← j.fields?
  let _ ← Json.textOrEmpty fields "clientCIDR"
  let _ ← Json.textOrEmpty fields "serverAddress"

/-- Reads a group in a list of groups. -/
def GroupEntry.ofJson? (j : Json) : Option GroupEntry := do
  let fields ← j.fields?
  Json.checkKind? fields "v1" "APIGroup"
  let _ ← Json.listOrEmpty fields "serverAddressByClientCIDRs" addressOfJson?
  pure {
    name := ← Json.textOrEmpty fields "name"
    versions := ← Json.listOrEmpty fields "versions" GroupVersion.ofJson?
    preferred := ← Json.optional fields "preferredVersion" GroupVersion.ofJson? }

/-- Reads a list of groups. -/
def groupsOfJson? (j : Json) : Option (List GroupEntry) := do
  let fields ← j.fields?
  Json.checkKind? fields "v1" "APIGroupList"
  Json.listOrEmpty fields "groups" GroupEntry.ofJson?

/-- The version in a text of group and version. -/
def versionPart (groupVersion : String) : String :=
  match groupVersion.toList.dropWhile fun c => c != '/' with
  | _ :: r => String.ofList r
  | [] => groupVersion

/-- Reads a kind that is served, unless it is a part of another one. A kind without a
version has that of the list. -/
def servedKindOfJson? (version : String) (j : Json) : Option (Option ServedKind) := do
  let fields ← j.fields?
  let name ← Json.textOrEmpty fields "name"
  let kind ← Json.textOrEmpty fields "kind"
  let own ← Json.optional fields "version" Json.text?
  let _ ← Json.optional fields "group" Json.text?
  let _ ← Json.optional fields "namespaced" Json.flag?
  let _ ← Json.optional fields "singularName" Json.text?
  let _ ← Json.optional fields "storageVersionHash" Json.text?
  for key in ["categories", "shortNames", "verbs"] do
    let _ ← Json.listOrEmpty fields key Json.text?
  pure (if name.contains '/' then none else some { kind, version := own.getD version })

/-- Reads the kinds of a version. -/
def servedKindsOfJson? (j : Json) : Option (List ServedKind) := do
  let fields ← j.fields?
  Json.checkKind? fields "v1" "APIResourceList"
  let version := versionPart (← Json.textOrEmpty fields "groupVersion")
  let kinds ← Json.listOrEmpty fields "resources" (servedKindOfJson? version)
  pure (kinds.filterMap id)

/-! ## Requests -/

/-- The address of the list of groups. -/
def groupsAddress : String := "/apis"

/-- The address of a version of a group. -/
def GroupVersion.path (v : GroupVersion) : String := groupsAddress ++ "/" ++ v.address

namespace Api.Transport

variable {σ : Type} (t : Transport σ)

/-- Asks for the document at an address. -/
def ask {α : Type} (address : String) (read : Json → Option α) (s : σ) :
    Except DiscoveryError α × σ :=
  match t.call (build .get address none) read s with
  | (.ok a, s) => (.ok a, s)
  | (.error failure, s) => (.error (.api failure), s)

/-- Asks for the kinds of versions, one after the other. -/
def askVersions : List GroupVersion → σ → Except DiscoveryError (List ServedVersion) × σ
  | [], s => (.ok [], s)
  | v :: rest, s =>
    match t.ask v.path servedKindsOfJson? s with
    | (.error e, s) => (.error e, s)
    | (.ok kinds, s) =>
      match askVersions rest s with
      | (.error e, s) => (.error e, s)
      | (.ok versions, s) => (.ok ({ name := v.version, kinds } :: versions), s)

/-- Asks for the versions of groups, one after the other; a group without versions is an
error. -/
def askGroups : List GroupEntry → σ → Except DiscoveryError (List ServedGroup) × σ
  | [], s => (.ok [], s)
  | g :: rest, s =>
    if g.versions.isEmpty then (.error .emptyGroup, s)
    else
      match t.askVersions g.versions s with
      | (.error e, s) => (.error e, s)
      | (.ok versions, s) =>
        match askGroups rest s with
        | (.error e, s) => (.error e, s)
        | (.ok groups, s) =>
          (.ok ({ name := g.name, preferred := g.preferred.map GroupVersion.version, versions } ::
            groups), s)

/-- Asks for all that is served in the copiers' group. -/
def discover (s : σ) : Except DiscoveryError (List ServedGroup) × σ :=
  match t.ask groupsAddress groupsOfJson? s with
  | (.error e, s) => (.error e, s)
  | (.ok groups, s) => t.askGroups (groups.filter fun g => g.name = Copier.group) s

end Api.Transport

end SecretFanout
