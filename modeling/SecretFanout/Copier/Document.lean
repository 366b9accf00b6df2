import SecretFanout.Copier.Basic

/-!
# The document form of copiers

Copiers as JSON documents. A field with a default may be left out but not be null,
except for the name of the copies, which may be both; a field that is not known is
passed over. A record may also be written as an array of its values. Writing leaves out
what is empty where the form allows it.
-/

namespace SecretFanout

/-! ## Selectors -/

/-- Reads a name selector. -/
def NameSelector.ofJson? (j : Json) : Option NameSelector := do
  let fields ← j.record? ["matchNames"]
  pure { patterns := ← Json.defaulted fields "matchNames" (Json.list? Json.text?) [] }

/-- Writes a name selector. -/
def NameSelector.toJson (s : NameSelector) : Json :=
  .obj [("matchNames", Json.ofList .str s.patterns)]

/-- Reads an identity selector. -/
def UidSelector.ofJson? (j : Json) : Option UidSelector := do
  let fields ← j.record? ["matchUids"]
  pure { uids := ← Json.defaulted fields "matchUids" (Json.list? Json.text?) [] }

/-- Writes an identity selector. -/
def UidSelector.toJson (s : UidSelector) : Json :=
  .obj [("matchUids", Json.ofList .str s.uids)]

/-- Reads what identifies an owner. -/
def Owner.ofJson? (j : Json) : Option Owner := do
  let fields ← j.record? ["apiVersion", "kind", "name", "uid"]
  pure {
    apiVersion := ← Json.required fields "apiVersion" Json.text?
    kind := ← Json.required fields "kind" Json.text?
    name := ← Json.required fields "name" Json.text?
    uid := ← Json.required fields "uid" Json.text? }

/-- Writes what identifies an owner. -/
def Owner.toJson (o : Owner) : Json :=
  .obj [("apiVersion", .str o.apiVersion), ("kind", .str o.kind), ("name", .str o.name),
    ("uid", .str o.uid)]

/-- Reads an owner selector. -/
def OwnerSelector.ofJson? (j : Json) : Option OwnerSelector := do
  let fields ← j.record? ["matchOwners"]
  pure { owners := ← Json.defaulted fields "matchOwners" (Json.list? Owner.ofJson?) [] }

/-- Writes an owner selector. -/
def OwnerSelector.toJson (s : OwnerSelector) : Json :=
  .obj [("matchOwners", Json.ofList Owner.toJson s.owners)]

/-- The word for a label operator. -/
def LabelOperator.text : LabelOperator → String
  | .isIn => "In"
  | .notIn => "NotIn"
  | .present => "Exists"
  | .absent => "DoesNotExist"

/-- All label operators. -/
def LabelOperator.all : List LabelOperator := [.isIn, .notIn, .present, .absent]

/-- Reads a label operator. -/
def LabelOperator.ofJson? (j : Json) : Option LabelOperator := do
  let word ← j.word?
  LabelOperator.all.find? fun op => op.text = word

/-- Reads a requirement on a label. -/
def LabelRequirement.ofJson? (j : Json) : Option LabelRequirement := do
  let fields ← j.record? ["key", "operator", "values"]
  pure {
    key := ← Json.required fields "key" Json.text?
    operator := ← Json.required fields "operator" LabelOperator.ofJson?
    values := ← Json.defaulted fields "values" (Json.list? Json.text?) [] }

/-- A list that is written if it has items. -/
def Json.unlessEmpty {α : Type} (item : α → Json) (items : List α) : Option Json :=
  if items.isEmpty then none else some (Json.ofList item items)

/-- A map that is written if it has entries. -/
def Json.textsUnlessEmpty (m : TextMap) : Option Json :=
  if m.isEmpty then none else some (Json.ofTexts m)

theorem Json.eq_of_unlessEmpty {α : Type} {item : α → Json} {items : List α} {v : Json}
    (h : unlessEmpty item items = some v) : v = ofList item items := by
  rw [unlessEmpty] at h
  split at h
  · cases h
  · exact (Option.some.inj h).symm

theorem Json.eq_of_textsUnlessEmpty {m : TextMap} {v : Json} (h : textsUnlessEmpty m = some v) :
    v = ofTexts m := by
  rw [textsUnlessEmpty] at h
  split at h
  · cases h
  · exact (Option.some.inj h).symm

/-- Writes a requirement on a label. -/
def LabelRequirement.toJson (r : LabelRequirement) : Json :=
  .obj ([("key", .str r.key), ("operator", .str r.operator.text)] ++
    Json.present "values" (Json.unlessEmpty .str r.values))

/-- Reads a label selector. -/
def LabelSelector.ofJson? (j : Json) : Option LabelSelector := do
  let fields ← j.record? ["matchLabels", "matchExpressions"]
  pure {
    exact := ← Json.defaulted fields "matchLabels" (Json.map? Json.text?) .empty
    requirements :=
      ← Json.defaulted fields "matchExpressions" (Json.list? LabelRequirement.ofJson?) [] }

/-- Writes a label selector. -/
def LabelSelector.toJson (s : LabelSelector) : Json :=
  .obj (Json.present "matchExpressions" (Json.unlessEmpty LabelRequirement.toJson s.requirements) ++
    Json.present "matchLabels" (Json.textsUnlessEmpty s.exact))

/-! ## Rules -/

/-- Reads the target of a rule. -/
def Target.ofJson? (j : Json) : Option Target := do
  let fields ← j.record? ["nameSelector", "uidSelector", "ownerSelector", "labelSelector"]
  pure {
    names := ← Json.defaulted fields "nameSelector" NameSelector.ofJson? {}
    uids := ← Json.defaulted fields "uidSelector" UidSelector.ofJson? {}
    owners := ← Json.defaulted fields "ownerSelector" OwnerSelector.ofJson? {}
    labels := ← Json.defaulted fields "labelSelector" LabelSelector.ofJson? {} }

/-- Writes the target of a rule. -/
def Target.toJson (t : Target) : Json :=
  .obj [("labelSelector", t.labels.toJson), ("nameSelector", t.names.toJson),
    ("ownerSelector", t.owners.toJson), ("uidSelector", t.uids.toJson)]

/-- Reads the source of a rule. -/
def SecretKey.ofJson? (j : Json) : Option SecretKey := do
  let fields ← j.record? ["name", "namespace"]
  pure {
    ns := ← Json.required fields "namespace" Json.text?
    name := ← Json.required fields "name" Json.text? }

/-- Writes the source of a rule. -/
def SecretKey.toJson (k : SecretKey) : Json :=
  .obj [("name", .str k.name), ("namespace", .str k.ns)]

/-- Reads what to change in a copy. -/
def CopyTemplate.ofJson? (j : Json) : Option CopyTemplate := do
  let fields ← j.record? ["name", "labels"]
  pure {
    name := ← Json.optional fields "name" Json.text?
    labels := ← Json.defaulted fields "labels" (Json.map? Json.text?) .empty }

/-- Writes what to change in a copy. -/
def CopyTemplate.toJson (t : CopyTemplate) : Json :=
  .obj (Json.present "labels" (Json.textsUnlessEmpty t.labels) ++
    Json.present "name" (t.name.map .str))

/-- The word for a reclaim policy. -/
def ReclaimPolicy.text : ReclaimPolicy → String
  | .delete => "Delete"
  | .retain => "Retain"

/-- All reclaim policies. -/
def ReclaimPolicy.all : List ReclaimPolicy := [.delete, .retain]

/-- Reads a reclaim policy. -/
def ReclaimPolicy.ofJson? (j : Json) : Option ReclaimPolicy := do
  let word ← j.word?
  ReclaimPolicy.all.find? fun policy => policy.text = word

/-- Reads a rule. -/
def Rule.ofJson? (j : Json) : Option Rule := do
  let fields ← j.record? ["sourceSecret", "targetNamespaces", "targetSecret", "reclaimPolicy"]
  pure {
    source := ← Json.required fields "sourceSecret" SecretKey.ofJson?
    target := ← Json.defaulted fields "targetNamespaces" Target.ofJson? {}
    template := ← Json.defaulted fields "targetSecret" CopyTemplate.ofJson? {}
    reclaim := ← Json.defaulted fields "reclaimPolicy" ReclaimPolicy.ofJson? .delete }

/-- Writes a reclaim policy. -/
def ReclaimPolicy.toJson (p : ReclaimPolicy) : Json := .str p.text

/-- Writes a rule. -/
def Rule.toJson (r : Rule) : Json :=
  .obj [("reclaimPolicy", r.reclaim.toJson), ("sourceSecret", r.source.toJson),
    ("targetNamespaces", r.target.toJson), ("targetSecret", r.template.toJson)]

/-! ## Copiers -/

/-- The period of a copier that names none. -/
def CopierSpec.defaultPeriod : String := ({} : CopierSpec).syncPeriod

/-- Reads what a copier is asked to do. -/
def CopierSpec.ofJson? (j : Json) : Option CopierSpec := do
  let fields ← j.record? ["rules", "syncPeriod"]
  pure {
    rules := ← Json.defaulted fields "rules" (Json.list? Rule.ofJson?) []
    syncPeriod := ← Json.defaulted fields "syncPeriod" Json.text? defaultPeriod }

/-- Writes what a copier is asked to do. -/
def CopierSpec.toJson (s : CopierSpec) : Json :=
  .obj (Json.present "rules" (Json.unlessEmpty Rule.toJson s.rules) ++
    [("syncPeriod", .str s.syncPeriod)])

/-- Reads a copier; its version and kind are not looked at. -/
def Copier.ofJson? (j : Json) : Option Copier := do
  let fields ← j.record? ["metadata", "spec"]
  pure {
    metadata := ← Json.required fields "metadata" ObjectMeta.ofJson?
    spec := ← Json.required fields "spec" CopierSpec.ofJson? }

end SecretFanout
