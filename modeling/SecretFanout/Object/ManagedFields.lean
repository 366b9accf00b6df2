import SecretFanout.Json.Value
import SecretFanout.Text.Instant

/-!
# Managed fields

What the server notes about the writers of an object: who set which fields, how and
when. A set of fields is a document of its own, of which only the value counts, not the
order of its fields.
-/

namespace SecretFanout

/-! ## Points in time -/

/-- Reads a point in time. -/
def Text.Instant.ofJson? (j : Json) : Option Text.Instant := do
  Text.Instant.read? (← j.text?).toList

/-- Writes a point in time. -/
def Text.Instant.toJson (t : Text.Instant) : Json := .str (String.ofList t.render)

/-! ## Sets of fields -/

/-- Reads any value that can be held as a whole. -/
def Json.whole? (j : Json) : Option Json := if j.isSound then some j.normalized else none

/-- What one writer has set in an object. -/
structure ManagedFields where
  /-- The version of the object's kind that the fields are those of. -/
  apiVersion : Option String := none
  /-- The form in which the fields are noted. -/
  fieldsType : Option String := none
  /-- The fields. -/
  fields : Option Json := none
  /-- The writer. -/
  manager : Option String := none
  /-- How the fields were set. -/
  operation : Option String := none
  /-- The part of the object that was written. -/
  subresource : Option String := none
  /-- When the fields were set. -/
  time : Option Text.Instant := none
  deriving DecidableEq

/-- Reads what one writer has set. -/
def ManagedFields.ofJson? (j : Json) : Option ManagedFields := do
  let fields ← j.fields?
  pure {
    apiVersion := ← Json.optional fields "apiVersion" Json.text?
    fieldsType := ← Json.optional fields "fieldsType" Json.text?
    fields := ← Json.optional fields "fieldsV1" Json.whole?
    manager := ← Json.optional fields "manager" Json.text?
    operation := ← Json.optional fields "operation" Json.text?
    subresource := ← Json.optional fields "subresource" Json.text?
    time := ← Json.optional fields "time" Text.Instant.ofJson? }

/-- Writes what one writer has set, the fields in alphabetical order. -/
def ManagedFields.toJson (m : ManagedFields) : Json :=
  .obj (Json.present "apiVersion" (m.apiVersion.map .str) ++
    Json.present "fieldsType" (m.fieldsType.map .str) ++
    Json.present "fieldsV1" m.fields ++
    Json.present "manager" (m.manager.map .str) ++
    Json.present "operation" (m.operation.map .str) ++
    Json.present "subresource" (m.subresource.map .str) ++
    Json.present "time" (m.time.map Text.Instant.toJson))

end SecretFanout
