import SecretFanout.Object.ManagedFields

/-!
# Metadata of cluster objects

What every object of the cluster carries: its name and namespace, labels,
annotations, owners and what the server assigns. In the JSON form of an object each
field may be left out or null, which both mean absent; an absent map or list differs
from an empty one. A field may stand several times, but then each of its values has to
be readable.
-/

namespace SecretFanout

/-- A map from names to texts, such as labels or annotations. -/
abbrev TextMap := SortedMap String String

/-- A reference to an object that owns another one. -/
structure OwnerReference where
  /-- Group and version of the owner's kind. -/
  apiVersion : String
  /-- The owner's kind. -/
  kind : String
  /-- The owner's name. -/
  name : String
  /-- The owner's identity. -/
  uid : String
  /-- Whether the owner controls the object. -/
  controller : Option Bool := none
  /-- Whether the object holds up the deletion of its owner. -/
  blockOwnerDeletion : Option Bool := none
  deriving DecidableEq

/-- The metadata of an object. -/
structure ObjectMeta where
  /-- The name within its namespace. -/
  name : Option String := none
  /-- The start of a name that the server completes. -/
  generateName : Option String := none
  /-- The namespace. -/
  ns : Option String := none
  /-- The identity over the object's life. -/
  uid : Option String := none
  /-- The version that the last write left. -/
  resourceVersion : Option String := none
  /-- The labels. -/
  labels : Option TextMap := none
  /-- The annotations. -/
  annotations : Option TextMap := none
  /-- The owners. -/
  ownerReferences : Option (List OwnerReference) := none
  /-- What has to be done before a deletion completes. -/
  finalizers : Option (List String) := none
  /-- The number of the desired state. -/
  generation : Option Int := none
  /-- When the object was created. -/
  creationTimestamp : Option Text.Instant := none
  /-- When the object was asked to go. -/
  deletionTimestamp : Option Text.Instant := none
  /-- The seconds that the object has left to go in. -/
  deletionGracePeriod : Option Int := none
  /-- The address of the object. -/
  selfLink : Option String := none
  /-- Who set which fields. -/
  managedFields : Option (List ManagedFields) := none
  deriving DecidableEq

namespace ObjectMeta

/-- The name, or else the start of a name to be completed, or else nothing. -/
def anyName (m : ObjectMeta) : String := (m.name.or m.generateName).getD ""

/-- The labels, none if absent. -/
def labelMap (m : ObjectMeta) : TextMap := m.labels.getD .empty

end ObjectMeta

/-! ## JSON form -/

/-- Reads an owner; a missing name is empty. -/
def OwnerReference.ofJson? (j : Json) : Option OwnerReference := do
  let fields ← j.fields?
  pure {
    apiVersion := (← Json.optional fields "apiVersion" Json.text?).getD ""
    kind := (← Json.optional fields "kind" Json.text?).getD ""
    name := (← Json.optional fields "name" Json.text?).getD ""
    uid := (← Json.optional fields "uid" Json.text?).getD ""
    controller := ← Json.optional fields "controller" Json.flag?
    blockOwnerDeletion := ← Json.optional fields "blockOwnerDeletion" Json.flag? }

/-- Writes an owner. -/
def OwnerReference.toJson (r : OwnerReference) : Json :=
  .obj ([("apiVersion", .str r.apiVersion)] ++
    Json.present "blockOwnerDeletion" (r.blockOwnerDeletion.map .bool) ++
    Json.present "controller" (r.controller.map .bool) ++
    [("kind", .str r.kind), ("name", .str r.name), ("uid", .str r.uid)])

/-- Reads metadata. -/
def ObjectMeta.ofJson? (j : Json) : Option ObjectMeta := do
  let fields ← j.fields?
  pure {
    name := ← Json.optional fields "name" Json.text?
    generateName := ← Json.optional fields "generateName" Json.text?
    ns := ← Json.optional fields "namespace" Json.text?
    uid := ← Json.optional fields "uid" Json.text?
    resourceVersion := ← Json.optional fields "resourceVersion" Json.text?
    labels := ← Json.optional fields "labels" (Json.map? Json.text?)
    annotations := ← Json.optional fields "annotations" (Json.map? Json.text?)
    ownerReferences :=
      ← Json.optional fields "ownerReferences" (Json.list? OwnerReference.ofJson?)
    finalizers := ← Json.optional fields "finalizers" (Json.list? Json.text?)
    generation := ← Json.optional fields "generation" Json.int64?
    creationTimestamp := ← Json.optional fields "creationTimestamp" Text.Instant.ofJson?
    deletionTimestamp := ← Json.optional fields "deletionTimestamp" Text.Instant.ofJson?
    deletionGracePeriod := ← Json.optional fields "deletionGracePeriodSeconds" Json.int64?
    selfLink := ← Json.optional fields "selfLink" Json.text?
    managedFields :=
      ← Json.optional fields "managedFields" (Json.list? ManagedFields.ofJson?) }

/-- Writes metadata, the fields in alphabetical order. -/
def ObjectMeta.toJson (m : ObjectMeta) : Json :=
  .obj (Json.present "annotations" (m.annotations.map Json.ofTexts) ++
    Json.present "creationTimestamp" (m.creationTimestamp.map Text.Instant.toJson) ++
    Json.present "deletionGracePeriodSeconds" (m.deletionGracePeriod.map .int) ++
    Json.present "deletionTimestamp" (m.deletionTimestamp.map Text.Instant.toJson) ++
    Json.present "finalizers" (m.finalizers.map (Json.ofList .str)) ++
    Json.present "generateName" (m.generateName.map .str) ++
    Json.present "generation" (m.generation.map .int) ++
    Json.present "labels" (m.labels.map Json.ofTexts) ++
    Json.present "managedFields" (m.managedFields.map (Json.ofList ManagedFields.toJson)) ++
    Json.present "name" (m.name.map .str) ++
    Json.present "namespace" (m.ns.map .str) ++
    Json.present "ownerReferences" (m.ownerReferences.map (Json.ofList OwnerReference.toJson)) ++
    Json.present "resourceVersion" (m.resourceVersion.map .str) ++
    Json.present "selfLink" (m.selfLink.map .str) ++
    Json.present "uid" (m.uid.map .str))

/-- Accepts the fields of an object whose version and kind are the expected ones, wherever
they stand; both may be left out. -/
def Json.checkKind? (fields : Json.Fields) (apiVersion kind : String) : Option Unit :=
  if (Json.occurrences "apiVersion" fields).all (fun j => j.text? = some apiVersion) ∧
      (Json.occurrences "kind" fields).all (fun j => j.text? = some kind) then some ()
  else none

end SecretFanout
