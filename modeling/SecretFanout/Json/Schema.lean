import SecretFanout.Json.Value

/-!
# Schemas

Descriptions of JSON documents: texts, which may be confined to a choice of words, lists,
maps of free names, and records with named properties. A property that a record does not
name is not looked at, and a null is taken only where that is said.

* `Schema.accepts` says which values have the form that a schema describes.
* `Schema.toJson` is the schema as a document.
-/

namespace SecretFanout

/-- What a schema says besides the form of the values. -/
structure SchemaNotes where
  /-- The name of what is described. -/
  title : Option String := none
  /-- A description for readers. -/
  description : Option String := none
  /-- The value of a property that is left out. -/
  default : Option Json := none
  /-- Whether null stands for a value. -/
  nullable : Bool := false

/-- A schema. -/
inductive Schema where
  /-- A text; with choices it is one of them. -/
  | text (notes : SchemaNotes) (choices : List String)
  /-- A list of like items. -/
  | list (notes : SchemaNotes) (items : Schema)
  /-- An object of like values under free names. -/
  | map (notes : SchemaNotes) (values : Schema)
  /-- An object with named properties, some of which have to be there. -/
  | record (notes : SchemaNotes) (properties : List (String × Schema)) (required : List String)

namespace Schema

/-- What a schema says besides the form of the values. -/
def notes : Schema → SchemaNotes
  | text notes _ | list notes _ | map notes _ | record notes .. => notes

/-! ## Values -/

mutual

/-- Whether a value has the form that a schema describes. -/
def accepts : Schema → Json → Bool
  | s, .null => s.notes.nullable
  | text _ choices, .str word => choices.isEmpty || choices.contains word
  | list _ item, .arr values => values.all item.accepts
  | map _ value, .obj fields => fields.all fun e => value.accepts e.2
  | record _ properties required, .obj fields =>
    (required.all fun name => (Json.field? name fields).isSome) &&
      acceptsProperties properties fields
  | _, _ => false

/-- Whether those properties that are there have the forms described. -/
def acceptsProperties : List (String × Schema) → Json.Fields → Bool
  | [], _ => true
  | (name, s) :: rest, fields =>
    (match Json.field? name fields with
      | some value => s.accepts value
      | none => true) && acceptsProperties rest fields

end

/-! ## Documents -/

/-- The parts of a schema as a document, in alphabetical order. -/
def document (notes : SchemaNotes) (type : String) (values items properties : Option Json)
    (choices required : List String) : Json :=
  let words (l : List String) : Option Json :=
    if l.isEmpty then none else some (Json.ofList .str l)
  .obj (Json.present "additionalProperties" values ++
    Json.present "default" notes.default ++
    Json.present "description" (notes.description.map .str) ++
    Json.present "enum" (words choices) ++
    Json.present "items" items ++
    Json.present "nullable" (if notes.nullable then some (.bool true) else none) ++
    Json.present "properties" properties ++
    Json.present "required" (words required) ++
    Json.present "title" (notes.title.map .str) ++
    [("type", .str type)])

mutual

/-- A schema as a document. -/
def toJson : Schema → Json
  | text notes choices => document notes "string" none none none choices []
  | list notes item => document notes "array" none (some item.toJson) none [] []
  | map notes value => document notes "object" (some value.toJson) none none [] []
  | record notes properties required =>
    document notes "object" none none (some (.obj (propertiesJson properties))) [] required

/-- Properties as the fields of a document. -/
def propertiesJson : List (String × Schema) → Json.Fields
  | [] => []
  | (name, s) :: rest => (name, s.toJson) :: propertiesJson rest

end

end Schema

end SecretFanout
