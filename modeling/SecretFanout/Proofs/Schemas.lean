import SecretFanout.Copier.Schema
import SecretFanout.Proofs.Validation

/-!
# Schemas and their documents

A schema says itself which values it accepts, and so does the document that is written of it. They
say the same, unless an object or a record names something twice: a schema then looks at the last
field of a name, and its document at all of them.

* `Json.namesOnce`, `Schema.namesOnce` — values and schemas in which nothing is named twice.
* `Schema.fits_iff` — fields that have the forms of the properties, told property by property.
* `Schema.admits_toJson_iff` — the agreement, by cases on the schema.
-/

namespace SecretFanout

namespace Json

/-! ## Names that stand once -/

mutual

/-- Whether each object in a value names each of its fields once. -/
def namesOnce : Json → Bool
  | .arr items => itemsNameOnce items
  | .obj fields => (fields.map Prod.fst).Nodup && fieldsNameOnce fields
  | _ => true

/-- Whether this holds of all items. -/
def itemsNameOnce : List Json → Bool
  | [] => true
  | item :: rest => namesOnce item && itemsNameOnce rest

/-- Whether this holds of the values of all fields. -/
def fieldsNameOnce : List (String × Json) → Bool
  | [] => true
  | (_, value) :: rest => namesOnce value && fieldsNameOnce rest

end

theorem itemsNameOnce_iff {items : List Json} :
    itemsNameOnce items = true ↔ ∀ item ∈ items, item.namesOnce = true := by
  induction items with
  | nil => simp [itemsNameOnce]
  | cons item rest ih => simp [itemsNameOnce, ih]

theorem fieldsNameOnce_iff {fields : Fields} :
    fieldsNameOnce fields = true ↔ ∀ e ∈ fields, e.2.namesOnce = true := by
  induction fields with
  | nil => simp [fieldsNameOnce]
  | cons e rest ih => simp [fieldsNameOnce, ih]

theorem mem_of_lastNamed? {α : Type} {name : String} {l : List (String × α)} {a : α}
    (h : lastNamed? name l = some a) : (name, a) ∈ l := by
  induction l with
  | nil => cases h
  | cons e rest ih =>
    obtain ⟨k, b⟩ := e
    rw [lastNamed?] at h
    rcases Option.or_eq_some_iff.1 h with hrest | ⟨-, hhead⟩
    · exact List.mem_cons_of_mem _ (ih hrest)
    · obtain ⟨rfl, hb⟩ := Option.ite_none_right_eq_some.1 hhead
      cases hb
      exact List.mem_cons_self

/-- Where each name stands once, the last value of a name is its only one. -/
theorem lastNamed?_eq_some_iff {α : Type} {name : String} {l : List (String × α)} {a : α}
    (h : (l.map Prod.fst).Nodup) : lastNamed? name l = some a ↔ (name, a) ∈ l := by
  refine ⟨mem_of_lastNamed?, ?_⟩
  intro hmem
  induction l with
  | nil => cases hmem
  | cons e rest ih =>
    obtain ⟨k, b⟩ := e
    obtain ⟨hk, hrest⟩ := List.nodup_cons.1 h
    rw [lastNamed?]
    rcases List.mem_cons.1 hmem with heq | hmem
    · cases heq
      have hnone : lastNamed? name rest = none := by
        cases hlast : lastNamed? name rest with
        | none => rfl
        | some b => exact absurd (List.mem_map_of_mem (mem_of_lastNamed? hlast)) hk
      simp [hnone]
    · rw [ih hrest hmem, Option.some_or]

theorem field?_eq_lastNamed? (name : String) (fields : Fields) :
    field? name fields = lastNamed? name fields := by
  induction fields with
  | nil => rfl
  | cons e rest ih =>
    obtain ⟨k, v⟩ := e
    rw [field?_cons, lastNamed?, ih]

end Json

open Json

namespace Schema

mutual

/-- Whether each record in a schema names each of its properties once. -/
def namesOnce : Schema → Bool
  | text .. => true
  | list _ item => namesOnce item
  | map _ value => namesOnce value
  | record _ properties _ =>
    (properties.map Prod.fst).Nodup && propertiesNameOnce properties

/-- Whether this holds of the schemas of all properties. -/
def propertiesNameOnce : List (String × Schema) → Bool
  | [] => true
  | (_, s) :: rest => namesOnce s && propertiesNameOnce rest

end

/-! ## The agreement -/

variable {properties : List (String × Schema)} {fields : Fields}

theorem acceptsProperties_iff :
    acceptsProperties properties fields = true ↔
      ∀ e ∈ properties, ∀ v, field? e.1 fields = some v → e.2.accepts v = true := by
  induction properties with
  | nil => simp [acceptsProperties]
  | cons e rest ih =>
    obtain ⟨name, s⟩ := e
    rw [acceptsProperties, Bool.and_eq_true, ih, List.forall_mem_cons]
    cases field? name fields <;> simp

/-- Fields in which each name stands once have the forms of the properties with their names exactly
if each property that is there has its form. -/
theorem fits_iff (hproperties : (properties.map Prod.fst).Nodup)
    (hfields : (fields.map Prod.fst).Nodup) :
    Fits properties fields ↔
      ∀ e ∈ properties, ∀ v, field? e.1 fields = some v → e.2.toJson.admits v = true := by
  constructor
  · intro h e he v hv
    exact h (e.1, v) (mem_of_field? hv) e.2 ((lastNamed?_eq_some_iff hproperties).2 he)
  · intro h e he s hs
    have hfield : field? e.1 fields = some e.2 := by
      rw [field?_eq_lastNamed?]
      exact (lastNamed?_eq_some_iff hfields).2 he
    exact h (e.1, s) (mem_of_lastNamed? hs) e.2 hfield

mutual

/-- **The document of a schema admits what the schema accepts**, where nothing is named twice. -/
theorem admits_toJson_iff : ∀ (s : Schema) {v : Json}, s.namesOnce = true →
    v.namesOnce = true → (s.toJson.admits v = true ↔ s.accepts v = true)
  | text notes choices, v, _, _ => by
    rw [admits_text_iff]
    cases v <;> simp [accepts, Schema.notes]
  | list notes s, v, hs, hv => by
    rw [admits_list_iff]
    cases v with
    | arr items =>
      have hitems : ∀ item ∈ items, (s.toJson.admits item = true ↔ s.accepts item = true) :=
        fun item hitem => admits_toJson_iff s hs (itemsNameOnce_iff.1 hv item hitem)
      simpa [accepts] using forall₂_congr hitems
    | _ => simp [accepts, Schema.notes]
  | map notes s, v, hs, hv => by
    rw [admits_map_iff]
    cases v with
    | obj fields =>
      have hvalues := fieldsNameOnce_iff.1 (Bool.and_eq_true_iff.1 hv).2
      have hfields : ∀ e ∈ fields, (s.toJson.admits e.2 = true ↔ s.accepts e.2 = true) :=
        fun e he => admits_toJson_iff s hs (hvalues e he)
      simpa [accepts] using forall₂_congr hfields
    | _ => simp [accepts, Schema.notes]
  | record notes properties names, v, hs, hv => by
    obtain ⟨hproperties, hschemas⟩ := Bool.and_eq_true_iff.1 hs
    rw [admits_record_iff]
    cases v with
    | obj fields =>
      obtain ⟨hfields, hvalues⟩ := Bool.and_eq_true_iff.1 hv
      have hthere : (∀ name ∈ names, ∃ value, (name, value) ∈ fields) ↔
          ∀ name ∈ names, (field? name fields).isSome = true := by
        simp only [isSome_field?_iff]
      have hproperty : (∀ e ∈ properties, ∀ v, field? e.1 fields = some v →
          e.2.toJson.admits v = true) ↔ acceptsProperties properties fields = true := by
        rw [acceptsProperties_iff]
        refine forall₂_congr fun e he => forall₂_congr fun v hfield => ?_
        exact properties_admit_iff properties hschemas e he v
          (fieldsNameOnce_iff.1 hvalues _ (mem_of_field? hfield))
      have hfits := fits_iff (of_decide_eq_true hproperties) (of_decide_eq_true hfields)
      simp [accepts, hthere, hfits.trans hproperty]
    | _ => simp [accepts, Schema.notes]

theorem properties_admit_iff : ∀ (properties : List (String × Schema)),
    propertiesNameOnce properties = true → ∀ e ∈ properties, ∀ v : Json, v.namesOnce = true →
      (e.2.toJson.admits v = true ↔ e.2.accepts v = true)
  | [], _, _, he, _, _ => by cases he
  | (name, s) :: rest, hs, e, he, v, hv => by
    obtain ⟨hs, hrest⟩ := Bool.and_eq_true_iff.1 hs
    rcases List.mem_cons.1 he with rfl | he
    · exact admits_toJson_iff s hs hv
    · exact properties_admit_iff rest hrest e he v hv

end

/-- In the schema of what a copier is asked to do nothing is named twice. -/
example : Copier.specSchema.namesOnce = true := by decide

end Schema

end SecretFanout
