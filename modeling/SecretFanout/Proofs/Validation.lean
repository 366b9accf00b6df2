import SecretFanout.Json.Schema

/-!
# Documents by which others are checked

A cluster knows a schema as a document only, and checks values by what stands there. What it finds
in the document of a schema is said once for each kind of schema.

* `Json.admits` — whether a value has the form that a document describes.
* `Schema.admits_text_iff`, `admits_list_iff`, `admits_map_iff`, `admits_record_iff` — which values
  the document of a schema admits.
* `Schema.Describes` — a schema whose document fits a reader and a writer: what it admits is read,
  and what is written it admits. `Describes.choice`, `Describes.list` and `Describes.map` build such
  schemas from others.
* `Schema.Fits` — fields that have the forms of the properties with their names; what is read from
  such fields, and which fields that are written are such.
-/

namespace SecretFanout

namespace Json

/-! ## Checking by a document -/

/-- What a document says under a name. -/
def under? (j : Json) (name : String) : Option Json := j.fields?.bind (field? name)

/-- The words by which documents call the type of a value. -/
def typeWords : Json → List String
  | bool _ => ["boolean"]
  | int _ => ["integer", "number"]
  | float .. => ["number"]
  | str _ => ["string"]
  | arr _ => ["array"]
  | obj _ => ["object"]
  | null | unreadable => []

/-- Whether a value is of the type that a document asks for. -/
def isOfType (schema value : Json) : Bool :=
  match schema.under? "type" with
  | some (.str word) => value.typeWords.contains word
  | _ => true

/-- Whether a value is one of those that a document offers. -/
def isOffered (schema value : Json) : Bool :=
  match schema.under? "enum" with
  | some (.arr choices) => choices.contains value
  | _ => true

/-- Whether all fields are there that a document asks for. -/
def hasRequired (schema : Json) (fields : Fields) : Bool :=
  match schema.under? "required" with
  | some (.arr names) => names.all fun name => fields.any fun e => name = .str e.1
  | _ => true

/-- What a document says about the values of a field: what it says about the property of this name,
else what it says about all other fields. -/
def aboutField? (schema : Json) (name : String) : Option Json :=
  ((schema.under? "properties").bind (·.under? name)).or (schema.under? "additionalProperties")

mutual

/-- Whether a value has the form that a document describes. Null stands for a value only where that
is said, and a field about which nothing is said is not looked at. -/
def admits : Json → Json → Bool
  | schema, .null => schema.under? "nullable" = some (.bool true)
  | _, .unreadable => false
  | schema, .arr items =>
    schema.isOfType (.arr items) && schema.isOffered (.arr items) &&
      match schema.under? "items" with
      | some itemSchema => admitsItems itemSchema items
      | none => true
  | schema, .obj fields =>
    schema.isOfType (.obj fields) && schema.isOffered (.obj fields) &&
      schema.hasRequired fields && admitsFields schema fields
  | schema, value => schema.isOfType value && schema.isOffered value

/-- Whether all items have the form that a document describes. -/
def admitsItems : Json → List Json → Bool
  | _, [] => true
  | schema, item :: rest => admits schema item && admitsItems schema rest

/-- Whether all fields have the forms that a document describes. -/
def admitsFields : Json → List (String × Json) → Bool
  | _, [] => true
  | schema, (name, value) :: rest =>
    (match schema.aboutField? name with
      | some valueSchema => admits valueSchema value
      | none => true) && admitsFields schema rest

end

theorem admitsItems_iff {schema : Json} {items : List Json} :
    schema.admitsItems items = true ↔ ∀ item ∈ items, schema.admits item = true := by
  induction items with
  | nil => simp [admitsItems]
  | cons item rest ih => simp [admitsItems, ih]

theorem admitsFields_iff {schema : Json} {fields : Fields} :
    schema.admitsFields fields = true ↔
      ∀ e ∈ fields, ∀ s, schema.aboutField? e.1 = some s → s.admits e.2 = true := by
  induction fields with
  | nil => simp [admitsFields]
  | cons e rest ih =>
    obtain ⟨name, value⟩ := e
    rw [admitsFields, Bool.and_eq_true, ih, List.forall_mem_cons]
    cases schema.aboutField? name <;> simp

/-- The last value of a name. -/
def lastNamed? {α : Type} (name : String) : List (String × α) → Option α
  | [] => none
  | (k, a) :: rest => (lastNamed? name rest).or (if k = name then some a else none)

end Json

open Json

namespace Schema

variable {notes : SchemaNotes} {s : Schema} {choices names : List String}
variable {properties : List (String × Schema)} {fields : Fields} {v : Json}

/-! ## The document of a schema -/

theorem field?_propertiesJson (name : String) (properties : List (String × Schema)) :
    field? name (propertiesJson properties) = (lastNamed? name properties).map toJson := by
  induction properties with
  | nil => rfl
  | cons e rest ih =>
    obtain ⟨k, s⟩ := e
    rw [propertiesJson, lastNamed?, field?_cons, ih]
    by_cases hk : k = name <;> cases lastNamed? name rest <;> simp [hk]

section Document

variable (notes : SchemaNotes) (type : String) (values items parts : Option Json)
variable (choices names : List String)

theorem isOfType_document_iff :
    (document notes type values items parts choices names).isOfType v = true ↔
      type ∈ v.typeWords := by
  have htype : (document notes type values items parts choices names).under? "type" =
      some (.str type) := by
    simp [document, under?, fields?, field?_append, field?_present, field?_cons]
  rw [isOfType, htype]
  exact List.contains_iff_mem

theorem isOffered_document_iff :
    (document notes type values items parts choices names).isOffered v = true ↔
      choices = [] ∨ ∃ word ∈ choices, v = .str word := by
  have henum : (document notes type values items parts choices names).under? "enum" =
      if choices.isEmpty then none else some (ofList .str choices) := by
    simp [document, under?, fields?, field?_append, field?_present, field?_cons]
  rw [isOffered, henum]
  cases choices with
  | nil => simp
  | cons word rest =>
    have hmem (w : String) : Json.str w = v ↔ v = .str w := eq_comm
    simp [ofList, hmem]

theorem hasRequired_document_iff :
    (document notes type values items parts choices names).hasRequired fields = true ↔
      ∀ name ∈ names, ∃ value, (name, value) ∈ fields := by
  have hrequired : (document notes type values items parts choices names).under? "required" =
      if names.isEmpty then none else some (ofList .str names) := by
    simp [document, under?, fields?, field?_append, field?_present, field?_cons]
  rw [hasRequired, hrequired]
  cases names with
  | nil => simp
  | cons name rest => simp [ofList]

theorem under?_document_nullable :
    (document notes type values items parts choices names).under? "nullable" =
      if notes.nullable then some (.bool true) else none := by
  simp [document, under?, fields?, field?_append, field?_present, field?_cons]

theorem under?_document_items :
    (document notes type values items parts choices names).under? "items" = items := by
  simp [document, under?, fields?, field?_append, field?_present, field?_cons]

theorem aboutField?_document (name : String) :
    (document notes type values items parts choices names).aboutField? name =
      (parts.bind (·.under? name)).or values := by
  have hparts : (document notes type values items parts choices names).under? "properties" =
      parts := by
    simp [document, under?, fields?, field?_append, field?_present, field?_cons]
  have hvalues : (document notes type values items parts choices names).under?
      "additionalProperties" = values := by
    simp [document, under?, fields?, field?_append, field?_present, field?_cons]
  rw [aboutField?, hparts, hvalues]

end Document

/-! ## What the document of a schema admits -/

/-- The document of texts admits texts, and of these one of the choices if there are any. -/
theorem admits_text_iff :
    (text notes choices).toJson.admits v = true ↔
      v = .null ∧ notes.nullable = true ∨
      ∃ word, v = .str word ∧ (choices = [] ∨ word ∈ choices) := by
  rw [toJson]
  cases v <;> simp [admits, under?_document_nullable, isOfType_document_iff, isOffered_document_iff,
    typeWords]

/-- The document of lists admits lists of what the document of their items admits. -/
theorem admits_list_iff :
    (list notes s).toJson.admits v = true ↔
      v = .null ∧ notes.nullable = true ∨
      ∃ items, v = .arr items ∧ ∀ item ∈ items, s.toJson.admits item = true := by
  rw [toJson]
  cases v <;> simp [admits, under?_document_nullable, isOfType_document_iff, isOffered_document_iff,
    typeWords, under?_document_items, admitsItems_iff]

/-- The document of maps admits objects all of whose values the document of the values admits. -/
theorem admits_map_iff :
    (map notes s).toJson.admits v = true ↔
      v = .null ∧ notes.nullable = true ∨
      ∃ fields, v = .obj fields ∧ ∀ e ∈ fields, s.toJson.admits e.2 = true := by
  rw [toJson]
  cases v <;> simp [admits, under?_document_nullable, isOfType_document_iff, isOffered_document_iff,
    typeWords, hasRequired_document_iff, aboutField?_document, admitsFields_iff]

/-- Fields have the forms of the properties with their names. -/
def Fits (properties : List (String × Schema)) (fields : Fields) : Prop :=
  ∀ e ∈ fields, ∀ s, lastNamed? e.1 properties = some s → s.toJson.admits e.2 = true

/-- The document of records admits objects with all fields that have to be there in which the
fields have the forms of the properties with their names. -/
theorem admits_record_iff :
    (record notes properties names).toJson.admits v = true ↔
      v = .null ∧ notes.nullable = true ∨
      ∃ fields, v = .obj fields ∧ (∀ name ∈ names, ∃ value, (name, value) ∈ fields) ∧
        Fits properties fields := by
  have habout (name : String) : (Json.obj (propertiesJson properties)).under? name =
      (lastNamed? name properties).map toJson := field?_propertiesJson name properties
  rw [toJson]
  cases v <;> simp [admits, under?_document_nullable, isOfType_document_iff, isOffered_document_iff,
    typeWords, hasRequired_document_iff, aboutField?_document, admitsFields_iff, habout, Fits]

/-! ## Readers and writers -/

section Describes

variable {α : Type} {read : Json → Option α} {write : α → Json}

/-- The document of a schema fits a reader and a writer. -/
structure Describes (s : Schema) (read : Json → Option α) (write : α → Json) : Prop where
  /-- What it admits is read. -/
  reads : ∀ v, s.toJson.admits v = true → ∃ a, read v = some a
  /-- What is written it admits. -/
  writes : ∀ a, s.toJson.admits (write a) = true

theorem describes_text (hnull : notes.nullable = false) : (text notes []).Describes text? str where
  reads := by
    intro v hv
    obtain ⟨-, hyes⟩ | ⟨word, rfl, -⟩ := admits_text_iff.1 hv
    · exact absurd hyes (by simp [hnull])
    · exact ⟨word, rfl⟩
  writes := fun word => admits_text_iff.2 (.inr ⟨word, rfl, .inl rfl⟩)

/-- A schema of choices fits what reads each of them and writes nothing else. -/
theorem describes_choice (hsome : choices ≠ [])
    (hread : ∀ word ∈ choices, ∃ a, read (.str word) = some a)
    (hwrite : ∀ a, ∃ word ∈ choices, write a = .str word)
    (hnull : notes.nullable = false) :
    (text notes choices).Describes read write where
  reads := by
    intro v hv
    obtain ⟨-, hyes⟩ | ⟨word, rfl, hnone | hword⟩ := admits_text_iff.1 hv
    · exact absurd hyes (by simp [hnull])
    · exact absurd hnone hsome
    · exact hread word hword
  writes := by
    intro a
    obtain ⟨word, hword, heq⟩ := hwrite a
    exact admits_text_iff.2 (.inr ⟨word, heq, .inr hword⟩)

theorem exists_mapM {β γ : Type} {f : β → Option γ} {l : List β}
    (h : ∀ b ∈ l, ∃ c, f b = some c) : ∃ cs, l.mapM f = some cs := by
  induction l with
  | nil => exact ⟨[], rfl⟩
  | cons b rest ih =>
    obtain ⟨c, hc⟩ := h b (by simp)
    obtain ⟨cs, hcs⟩ := ih fun b hb => h b (by simp [hb])
    exact ⟨c :: cs, by simp [hc, hcs]⟩

theorem Describes.list (h : s.Describes read write) (hnull : notes.nullable = false) :
    (Schema.list notes s).Describes (list? read) (ofList write) where
  reads := by
    intro v hv
    obtain ⟨-, hyes⟩ | ⟨items, rfl, hitems⟩ := admits_list_iff.1 hv
    · exact absurd hyes (by simp [hnull])
    · exact exists_mapM fun item hitem => h.reads item (hitems item hitem)
  writes := by
    intro items
    refine admits_list_iff.2 (.inr ⟨items.map write, rfl, ?_⟩)
    intro v hv
    obtain ⟨a, -, rfl⟩ := List.mem_map.1 hv
    exact h.writes a

theorem Describes.map (h : s.Describes read write) (hnull : notes.nullable = false) :
    (Schema.map notes s).Describes (map? read) (ofMap write) where
  reads := by
    intro v hv
    obtain ⟨-, hyes⟩ | ⟨fields, rfl, hfields⟩ := admits_map_iff.1 hv
    · exact absurd hyes (by simp [hnull])
    · have hentry : ∀ e ∈ fields,
          ∃ entry, (do pure (e.1, ← read e.2) : Option (String × α)) = some entry := by
        intro e he
        obtain ⟨a, ha⟩ := h.reads e.2 (hfields e he)
        exact ⟨(e.1, a), by simp [ha]⟩
      obtain ⟨entries, hentries⟩ := exists_mapM hentry
      exact ⟨SortedMap.ofList entries, by rw [map?, hentries]; rfl⟩
  writes := by
    intro m
    refine admits_map_iff.2 (.inr ⟨_, rfl, ?_⟩)
    intro e he
    obtain ⟨entry, -, rfl⟩ := List.mem_map.1 he
    exact h.writes entry.2

/-! ## Fields -/

variable (name : String)

theorem Fits.required (h : Fits properties fields) (hs : lastNamed? name properties = some s)
    (hd : s.Describes read write) (hthere : ∃ value, (name, value) ∈ fields) :
    ∃ a, required fields name read = some a := by
  obtain ⟨last, hlast⟩ := Option.isSome_iff_exists.1 (isSome_field?_iff.2 hthere)
  obtain ⟨a, ha⟩ := hd.reads last (h _ (mem_of_field? hlast) s hs)
  exact ⟨a, by rw [Json.required, hlast, Option.bind_some, ha]⟩

theorem Fits.defaulted (h : Fits properties fields) (hs : lastNamed? name properties = some s)
    (hd : s.Describes read write) (default : α) :
    ∃ a, defaulted fields name read default = some a := by
  cases hlast : field? name fields with
  | none => exact ⟨default, by rw [Json.defaulted, hlast]⟩
  | some last =>
    obtain ⟨a, ha⟩ := hd.reads last (h _ (mem_of_field? hlast) s hs)
    exact ⟨a, by rw [Json.defaulted, hlast]; exact ha⟩

/-- A text that may be null is read as one that may be missing. -/
theorem Fits.optional (h : Fits properties fields)
    (hs : lastNamed? name properties = some (text notes [])) :
    ∃ t, optional fields name text? = some t := by
  have hreads : ∀ v ∈ occurrences name fields, ∃ t, nullable? text? v = some t := by
    intro v hv
    obtain ⟨rfl, -⟩ | ⟨word, rfl, -⟩ := admits_text_iff.1 (h _ (mem_occurrences.1 hv) _ hs)
    · exact ⟨none, rfl⟩
    · exact ⟨some word, rfl⟩
  obtain ⟨values, hvalues⟩ := exists_mapM hreads
  exact ⟨values.getLast?.join, by rw [Json.optional, hvalues]; rfl⟩

theorem fits_nil : Fits properties [] := by simp [Fits]

theorem Fits.cons {rest : Fields} (hs : lastNamed? name properties = some s)
    (hv : s.toJson.admits v = true) (hrest : Fits properties rest) :
    Fits properties ((name, v) :: rest) := by
  refine List.forall_mem_cons.2 ⟨?_, hrest⟩
  intro s' hs'
  obtain rfl : s = s' := Option.some.inj (hs.symm.trans hs')
  exact hv

theorem Fits.written {rest : Fields} (hs : lastNamed? name properties = some s)
    (hd : s.Describes read write) (a : α) (hrest : Fits properties rest) :
    Fits properties ((name, write a) :: rest) := hrest.cons name hs (hd.writes a)

theorem Fits.append {l m : Fields} (hl : Fits properties l) (hm : Fits properties m) :
    Fits properties (l ++ m) := List.forall_mem_append.2 ⟨hl, hm⟩

theorem fits_present {value : Option Json} (hs : lastNamed? name properties = some s)
    (hvalue : ∀ v, value = some v → s.toJson.admits v = true) :
    Fits properties (present name value) := by
  cases value with
  | none => exact fits_nil
  | some v => exact fits_nil.cons name hs (hvalue v rfl)

end Describes

/-! ## Records -/

theorem exists_fields_of_admits (h : (record notes properties names).toJson.admits v = true)
    (hnull : notes.nullable = false) :
    ∃ fields, v = .obj fields ∧ (∀ name ∈ names, ∃ value, (name, value) ∈ fields) ∧
      Fits properties fields := by
  obtain ⟨-, hyes⟩ | hfields := admits_record_iff.1 h
  · exact absurd hyes (by simp [hnull])
  · exact hfields

theorem admits_obj (hthere : ∀ name ∈ names, ∃ value, (name, value) ∈ fields)
    (hfits : Fits properties fields) :
    (record notes properties names).toJson.admits (.obj fields) = true :=
  admits_record_iff.2 (.inr ⟨fields, rfl, hthere, hfits⟩)

end Schema

end SecretFanout
