import SecretFanout.Copier.Document
import SecretFanout.Json.Schema

/-!
# The schema of copiers

What a cluster is told about the form of copiers, so that it refuses others. The defaults
are those of the types themselves, written as documents.

* `Copier.specSchema` describes what a copier is asked to do.
* `Copier.definition` is the document that makes copiers known to a cluster.
-/

namespace SecretFanout

namespace Schema

/-- Any text. -/
def anyText : Schema := text {} []

/-- A list of texts. -/
def texts (notes : SchemaNotes) : Schema := list notes anyText

/-- A map of texts. -/
def textMap (notes : SchemaNotes) : Schema := map notes anyText

end Schema

/-! ## Selectors -/

/-- The schema of name selectors. -/
def NameSelector.schema : Schema :=
  .record {
    default := some ({} : NameSelector).toJson
    description := some "Selector matching on names using glob patterns. A pattern prefixed with `!` excludes matching names." }
    [("matchNames", .texts { default := some (.arr []) })] []

/-- The schema of identity selectors. -/
def UidSelector.schema : Schema :=
  .record {
    default := some ({} : UidSelector).toJson
    description := some "Selector matching on exact UIDs" }
    [("matchUids", .texts { default := some (.arr []) })] []

/-- The schema of what identifies an owner. -/
def Owner.schema : Schema :=
  .record {
    description := some "Owner descriptor to match on. All four fields must be equal." }
    [("apiVersion", .anyText), ("kind", .anyText), ("name", .anyText), ("uid", .anyText)]
    ["apiVersion", "kind", "name", "uid"]

/-- The schema of owner selectors. -/
def OwnerSelector.schema : Schema :=
  .record {
    default := some ({} : OwnerSelector).toJson
    description := some "Selector matching on the owner references of a resource" }
    [("matchOwners", .list { default := some (.arr []) } Owner.schema)] []

/-- The schema of label operators. -/
def LabelOperator.schema : Schema :=
  .text { description := some "Operator of a label selector requirement" }
    (LabelOperator.all.map LabelOperator.text)

/-- The schema of requirements on a label. -/
def LabelRequirement.schema : Schema :=
  .record {
    description := some "A single requirement on a label. `In` and `NotIn` compare the label value against `values` using glob patterns." }
    [("key", .anyText), ("operator", LabelOperator.schema), ("values", .texts {})]
    ["key", "operator"]

/-- The schema of label selectors. -/
def LabelSelector.schema : Schema :=
  .record {
    default := some ({} : LabelSelector).toJson
    description := some "Selector matching on labels. All `match_labels` entries and all `match_expressions` must hold." }
    [("matchExpressions", .list {} LabelRequirement.schema), ("matchLabels", .textMap {})] []

/-! ## Rules -/

/-- The schema of targets. -/
def Target.schema : Schema :=
  .record {
    default := some ({} : Target).toJson
    description := some "Matchers for the namespaces a secret is copied to" }
    [("labelSelector", LabelSelector.schema), ("nameSelector", NameSelector.schema),
      ("ownerSelector", OwnerSelector.schema), ("uidSelector", UidSelector.schema)] []

/-- The schema of sources. -/
def SecretKey.schema : Schema :=
  .record {} [("name", .anyText), ("namespace", .anyText)] ["name", "namespace"]

/-- The schema of what to change in a copy. -/
def CopyTemplate.schema : Schema :=
  .record { default := some ({} : CopyTemplate).toJson }
    [("labels",
        .textMap { description := some "Labels applied on top of the source secret labels" }),
      ("name", .text { nullable := true } [])] []

/-- The schema of reclaim policies. -/
def ReclaimPolicy.schema : Schema :=
  .text { default := some ReclaimPolicy.delete.toJson } (ReclaimPolicy.all.map ReclaimPolicy.text)

/-- The schema of rules. -/
def Rule.schema : Schema :=
  .record {}
    [("reclaimPolicy", ReclaimPolicy.schema), ("sourceSecret", SecretKey.schema),
      ("targetNamespaces", Target.schema), ("targetSecret", CopyTemplate.schema)]
    ["sourceSecret"]

/-! ## Copiers -/

namespace Copier

/-- The schema of what a copier is asked to do. -/
def specSchema : Schema :=
  .record {}
    [("rules",
        .list { description := some "Rules for copying secrets, evaluated in order" } Rule.schema),
      ("syncPeriod",
        .text {
          default := some (.str CopierSpec.defaultPeriod)
          description := some "Interval between periodic passes, \"0s\" disables them" } [])] []

/-- The schema of copiers. -/
def schema : Schema :=
  .record {
    title := some kind
    description := some "Auto-generated derived type for SecretCopierSpec via `CustomResource`" }
    [("spec", specSchema)] ["spec"]

/-- The name of the copier kind for one copier. -/
def singular : String := "secretcopier"

/-- The name of the copier kind for several copiers. -/
def plural : String := "secretcopiers"

/-- The short name of the copier kind. -/
def shortName : String := "scp"

/-- The names of the copier kind as a document. -/
def namesJson : Json :=
  .obj [("categories", .arr []), ("kind", .str kind), ("plural", .str plural),
    ("shortNames", .arr [.str shortName]), ("singular", .str singular)]

/-- The only version of the copier kind as a document. -/
def versionJson : Json :=
  .obj [("additionalPrinterColumns", .arr []), ("name", .str version),
    ("schema", .obj [("openAPIV3Schema", schema.toJson)]), ("served", .bool true),
    ("storage", .bool true), ("subresources", .obj [])]

/-- The document that makes copiers known to a cluster. -/
def definition : Json :=
  .obj [("apiVersion", .str "apiextensions.k8s.io/v1"), ("kind", .str "CustomResourceDefinition"),
    ("metadata", .obj [("name", .str (plural ++ "." ++ group))]),
    ("spec", .obj [("group", .str group), ("names", namesJson), ("scope", .str "Cluster"),
      ("versions", .arr [versionJson])])]

end Copier

end SecretFanout
