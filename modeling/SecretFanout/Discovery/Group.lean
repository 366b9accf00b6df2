import SecretFanout.Copier.Basic
import SecretFanout.Discovery.Rank

/-!
# Served kinds

What a cluster says about the kinds it serves: groups with versions, and the kinds of each
version. Of a group only the recommended version counts: the one that the cluster prefers
or, if it prefers none, the highest by rank.

* `ServedGroup.recommended` are the kinds of the recommended version.
* `servesCopiers` says whether copiers are among them.
-/

namespace SecretFanout

/-- A kind that is served. -/
structure ServedKind where
  /-- The name of the kind. -/
  kind : String
  /-- Its version. -/
  version : String
  deriving DecidableEq

/-- A version of a group. -/
structure ServedVersion where
  /-- Its name. -/
  name : String
  /-- The kinds that are served in it. -/
  kinds : List ServedKind
  deriving DecidableEq

/-- A group of kinds. -/
structure ServedGroup where
  /-- Its name. -/
  name : String
  /-- The version that the cluster prefers. -/
  preferred : Option String := none
  /-- Its versions. -/
  versions : List ServedVersion
  deriving DecidableEq

namespace ServedGroup

/-- The version that counts. -/
def recommendedVersion? (g : ServedGroup) : Option String :=
  g.preferred.or (highest? (g.versions.map ServedVersion.name))

/-- The kinds of the version that counts. -/
def recommended (g : ServedGroup) : List ServedKind :=
  match g.recommendedVersion? with
  | none => []
  | some version =>
    match g.versions.find? fun v => v.name = version with
    | some v => v.kinds
    | none => []

end ServedGroup

/-- Whether a kind is the one of copiers. -/
def ServedKind.isCopier (k : ServedKind) : Bool :=
  k.kind = Copier.kind ∧ k.version = Copier.version

/-- Whether copiers are served; of several groups of one name the last counts. -/
def servesCopiers (groups : List ServedGroup) : Bool :=
  match (groups.filter fun g => g.name = Copier.group).getLast? with
  | some g => g.recommended.any ServedKind.isCopier
  | none => false

end SecretFanout
