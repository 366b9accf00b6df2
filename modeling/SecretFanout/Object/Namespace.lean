import SecretFanout.Object.Meta

/-!
# Namespaces

Namespaces as the cluster holds them, and the snapshot of one that rules are
matched against.
-/

namespace SecretFanout

/-- A namespace. -/
structure Namespace where
  /-- Its metadata. -/
  metadata : ObjectMeta := {}
  /-- Where it is in its life. -/
  phase : Option String := none
  deriving DecidableEq

/-- What rules see of a namespace at one moment. -/
structure Snapshot where
  /-- Its name. -/
  name : String
  /-- Its identity. -/
  uid : String := ""
  /-- Its labels. -/
  labels : TextMap := .empty
  /-- Its owners. -/
  owners : List OwnerReference := []
  /-- Whether it is being deleted. -/
  terminating : Bool := false
  deriving DecidableEq

namespace Namespace

/-- The phase of a namespace that is being deleted. -/
def terminatingPhase : String := "Terminating"

/-- The name under which a namespace is known. -/
def name (n : Namespace) : String := n.metadata.anyName

/-- What rules see of a namespace. -/
def snapshot (n : Namespace) : Snapshot where
  name := n.name
  uid := n.metadata.uid.getD ""
  labels := n.metadata.labelMap
  owners := n.metadata.ownerReferences.getD []
  terminating := n.phase = some terminatingPhase

/-- Reads the desired state of a namespace, of which nothing is used. -/
def specOfJson? (j : Json) : Option Unit := do
  let _ ← Json.optional (← j.fields?) "finalizers" (Json.list? Json.text?)

/-- Reads what has been noticed about a namespace, of which nothing is used. -/
def conditionOfJson? (j : Json) : Option Unit := do
  let fields ← j.fields?
  let _ ← Json.optional fields "lastTransitionTime" Text.Instant.ofJson?
  for name in ["message", "reason", "status", "type"] do
    let _ ← Json.optional fields name Json.text?

/-- Reads the phase out of a status. -/
def phaseOfJson? (j : Json) : Option (Option String) := do
  let fields ← j.fields?
  let _ ← Json.optional fields "conditions" (Json.list? conditionOfJson?)
  Json.optional fields "phase" Json.text?

/-- Reads a namespace. -/
def ofJson? (j : Json) : Option Namespace := do
  let fields ← j.fields?
  Json.checkKind? fields "v1" "Namespace"
  let _ ← Json.optional fields "spec" specOfJson?
  pure {
    metadata := (← Json.optional fields "metadata" ObjectMeta.ofJson?).getD {}
    phase := (← Json.optional fields "status" phaseOfJson?).join }

/-- Writes a namespace. -/
def toJson (n : Namespace) : Json :=
  .obj ([("apiVersion", .str "v1"), ("kind", .str "Namespace"), ("metadata", n.metadata.toJson)] ++
    Json.present "status" (n.phase.map fun p => .obj [("phase", .str p)]))

end Namespace

end SecretFanout
