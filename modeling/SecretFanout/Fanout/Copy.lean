import SecretFanout.Copier.Basic
import SecretFanout.Fanout.Program

/-!
# Copying one secret to one namespace

A copy is marked with the copier and the source it comes from. Only a copy with exactly
this mark is ever written again, and then only if its type, its data or its labels are
not what they should be; everything else about it stays as it is.

* `Copier.decide` is the decision for a source and what is found in the copy's place.
* `Copier.syncTarget` reads both, decides, and writes at most once, at its end.
-/

namespace SecretFanout

/-! ## Marks -/

/-- Where a copy comes from. -/
structure Ownership where
  /-- The name of the copier. -/
  copier : String
  /-- The source as `namespace/name`. -/
  source : String
  deriving DecidableEq

namespace Ownership

/-- The annotation that holds the copier. -/
def copierKey : String := "secrets-manager.advok8s.io/secret-copier"

/-- The annotation that holds the source. -/
def sourceKey : String := "secrets-manager.advok8s.io/secret-name"

/-- The mark on a secret, if both of its parts are there. -/
def ofSecret? (s : Secret) : Option Ownership := do
  let annotations ← s.metadata.annotations
  pure { copier := ← annotations.get? copierKey, source := ← annotations.get? sourceKey }

/-- The mark as annotations. -/
def toAnnotations (o : Ownership) : TextMap :=
  (SortedMap.empty.insert copierKey o.copier).insert sourceKey o.source

/-- Whether a secret has exactly this mark. -/
def owns (o : Ownership) (s : Secret) : Bool := ofSecret? s = some o

end Ownership

/-! ## The contents of a copy -/

/-- The labels of a copy: the source's with the rule's put over them. -/
def Rule.copyLabels (r : Rule) (source : Secret) : TextMap :=
  source.labels.overlay r.template.labels

/-- Whether a copy differs from what it should be. Missing data is not the same as empty
data; missing labels are the same as empty ones. -/
def Secret.needsUpdate (source copy : Secret) (labels : TextMap) : Bool :=
  source.type != copy.type || source.data != copy.data || copy.labels != labels

/-- A copy with the contents brought up to date. -/
def Secret.refreshed (source copy : Secret) (labels : TextMap) : Secret :=
  { copy with
    type := source.type
    data := source.data
    metadata := { copy.metadata with labels := some labels } }

/-- The mark that a copier puts on the copies of a rule. -/
def Copier.ownership (c : Copier) (r : Rule) : Ownership := ⟨c.name, r.sourceText⟩

/-- The owners of new copies: the copier, if they are to go with it. -/
def Copier.copyOwners (c : Copier) (r : Rule) : Option (List OwnerReference) :=
  match r.reclaim with
  | .delete => c.ownerReference?.map fun owner => [owner]
  | .retain => none

/-- A new copy for a namespace. -/
def Copier.newCopy (c : Copier) (r : Rule) (ns : String) (source : Secret) : Secret where
  metadata := {
    name := some r.copyName
    ns := some ns
    labels := some (r.copyLabels source)
    annotations := some (c.ownership r).toAnnotations
    ownerReferences := c.copyOwners r }
  type := source.type
  data := source.data

/-! ## Decisions -/

/-- What became of one copy. -/
inductive Outcome where
  /-- It was missing and was made. -/
  | created
  /-- It was out of date and was written again. -/
  | updated
  /-- It was up to date. -/
  | unchanged
  /-- Its namespace is the source's. -/
  | sameNamespace
  /-- There is no source. -/
  | sourceMissing
  /-- A secret without the mark stands in its place. -/
  | notManaged
  deriving DecidableEq

/-- What to do about one copy. -/
inductive Decision where
  /-- To make it. -/
  | create (copy : Secret)
  /-- To write it again. -/
  | replace (copy : Secret)
  /-- To leave what is there. -/
  | leave (outcome : Outcome)
  deriving DecidableEq

/-- Decides about a copy from the source and from what stands in its place. -/
def Copier.decide (c : Copier) (r : Rule) (ns : String) (source : Secret) :
    Option Secret → Decision
  | none => .create (c.newCopy r ns source)
  | some existing =>
    if !(c.ownership r).owns existing then .leave .notManaged
    else if !source.needsUpdate existing (r.copyLabels source) then .leave .unchanged
    else .replace (source.refreshed existing (r.copyLabels source))

/-- Carries out a decision. -/
def Decision.carryOut : Decision → Program (Reply Outcome)
  | .leave outcome => .done (.ok outcome)
  | .create copy => .create copy fun reply => .done (reply.map fun _ => .created)
  | .replace copy => .replace copy fun reply => .done (reply.map fun _ => .updated)

/-- Brings the copy of a rule's source in one namespace up to date. -/
def Copier.syncTarget (c : Copier) (r : Rule) (ns : String) : Program (Reply Outcome) :=
  if ns = r.source.ns then .done (.ok .sameNamespace)
  else
    .read r.source fun
      | .error e => .done (.error e)
      | .ok none => .done (.ok .sourceMissing)
      | .ok (some source) =>
        .read (r.copyKey ns) fun
          | .error e => .done (.error e)
          | .ok existing => (c.decide r ns source existing).carryOut

end SecretFanout
