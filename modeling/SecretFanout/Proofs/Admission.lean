import SecretFanout.Copier.Schema
import SecretFanout.Proofs.Validation

/-!
# Documents that the cluster lets pass

The document that makes copiers known to a cluster and the reader of copiers agree: what the cluster
lets pass can be read, and what is written it lets pass.

* `NameSelector.described` to `CopierSpec.described` — the schema of each part of a copier fits its
  reader and its writer.
* `Json.specSchema?` — the schema that a definition gives for what objects of a kind are asked to
  do.
* `definition_describes_specs` — the agreement.
-/

namespace SecretFanout

open Json Schema

namespace Schema

variable {notes : SchemaNotes} {s : Schema} {properties : List (String × Schema)}

theorem describes_anyText : anyText.Describes text? str := describes_text rfl

theorem describes_texts (hnull : notes.nullable = false) :
    (texts notes).Describes (list? text?) (ofList str) := .list describes_anyText hnull

theorem describes_textMap (hnull : notes.nullable = false) :
    (textMap notes).Describes (map? text?) ofTexts := .map describes_anyText hnull

theorem fits_unlessEmpty {α : Type} {read : Json → Option (List α)} {write : α → Json}
    (name : String) (hs : lastNamed? name properties = some s)
    (hd : s.Describes read (ofList write)) (items : List α) :
    Fits properties (present name (unlessEmpty write items)) := by
  refine fits_present name hs ?_
  intro v hv
  obtain rfl := eq_of_unlessEmpty hv
  exact hd.writes items

theorem fits_textsUnlessEmpty (name : String) (hs : lastNamed? name properties = some s)
    (hd : s.Describes (map? text?) ofTexts) (m : TextMap) :
    Fits properties (present name (textsUnlessEmpty m)) := by
  refine fits_present name hs ?_
  intro v hv
  obtain rfl := eq_of_textsUnlessEmpty hv
  exact hd.writes m

end Schema

/-! ## Selectors -/

theorem NameSelector.described : NameSelector.schema.Describes ofJson? toJson where
  reads := by
    intro v hv
    obtain ⟨fields, rfl, -, hfits⟩ := exists_fields_of_admits hv rfl
    obtain ⟨patterns, hpatterns⟩ := hfits.defaulted "matchNames" rfl (describes_texts rfl) []
    exact ⟨⟨patterns⟩, by simp [ofJson?, hpatterns]⟩
  writes := by
    intro s
    exact admits_obj (by simp) (.written "matchNames" rfl (describes_texts rfl) s.patterns fits_nil)

theorem UidSelector.described : UidSelector.schema.Describes ofJson? toJson where
  reads := by
    intro v hv
    obtain ⟨fields, rfl, -, hfits⟩ := exists_fields_of_admits hv rfl
    obtain ⟨uids, huids⟩ := hfits.defaulted "matchUids" rfl (describes_texts rfl) []
    exact ⟨⟨uids⟩, by simp [ofJson?, huids]⟩
  writes := by
    intro s
    exact admits_obj (by simp) (.written "matchUids" rfl (describes_texts rfl) s.uids fits_nil)

theorem Owner.described : Owner.schema.Describes ofJson? toJson where
  reads := by
    intro v hv
    obtain ⟨fields, rfl, hthere, hfits⟩ := exists_fields_of_admits hv rfl
    obtain ⟨apiVersion, hapiVersion⟩ :=
      hfits.required "apiVersion" rfl describes_anyText (hthere _ (by simp))
    obtain ⟨kind, hkind⟩ := hfits.required "kind" rfl describes_anyText (hthere _ (by simp))
    obtain ⟨name, hname⟩ := hfits.required "name" rfl describes_anyText (hthere _ (by simp))
    obtain ⟨uid, huid⟩ := hfits.required "uid" rfl describes_anyText (hthere _ (by simp))
    exact ⟨⟨apiVersion, kind, name, uid⟩, by simp [ofJson?, hapiVersion, hkind, hname, huid]⟩
  writes := by
    intro o
    refine admits_obj (by simp) ?_
    exact .written "apiVersion" rfl describes_anyText o.apiVersion <|
      .written "kind" rfl describes_anyText o.kind <|
      .written "name" rfl describes_anyText o.name <|
      .written "uid" rfl describes_anyText o.uid fits_nil

theorem OwnerSelector.described : OwnerSelector.schema.Describes ofJson? toJson where
  reads := by
    intro v hv
    obtain ⟨fields, rfl, -, hfits⟩ := exists_fields_of_admits hv rfl
    obtain ⟨owners, howners⟩ := hfits.defaulted "matchOwners" rfl (.list Owner.described rfl) []
    exact ⟨⟨owners⟩, by simp [ofJson?, howners]⟩
  writes := by
    intro s
    exact admits_obj (by simp)
      (.written "matchOwners" rfl (.list Owner.described rfl) s.owners fits_nil)

theorem LabelOperator.described :
    LabelOperator.schema.Describes ofJson? fun op => .str op.text := by
  refine describes_choice (by decide) ?_ ?_ rfl
  · intro word hword
    obtain ⟨op, -, rfl⟩ := List.mem_map.1 hword
    cases op <;> exact ⟨_, rfl⟩
  · intro op
    exact ⟨op.text, List.mem_map_of_mem (by cases op <;> decide), rfl⟩

theorem LabelRequirement.described : LabelRequirement.schema.Describes ofJson? toJson where
  reads := by
    intro v hv
    obtain ⟨fields, rfl, hthere, hfits⟩ := exists_fields_of_admits hv rfl
    obtain ⟨key, hkey⟩ := hfits.required "key" rfl describes_anyText (hthere _ (by simp))
    obtain ⟨operator, hoperator⟩ :=
      hfits.required "operator" rfl LabelOperator.described (hthere _ (by simp))
    obtain ⟨values, hvalues⟩ := hfits.defaulted "values" rfl (describes_texts rfl) []
    exact ⟨⟨key, operator, values⟩, by simp [ofJson?, hkey, hoperator, hvalues]⟩
  writes := by
    intro r
    refine admits_obj (by simp) (.append ?_ ?_)
    · exact .written "key" rfl describes_anyText r.key <|
        .written "operator" rfl LabelOperator.described r.operator fits_nil
    · exact fits_unlessEmpty "values" rfl (describes_texts rfl) r.values

theorem LabelSelector.described : LabelSelector.schema.Describes ofJson? toJson where
  reads := by
    intro v hv
    obtain ⟨fields, rfl, -, hfits⟩ := exists_fields_of_admits hv rfl
    obtain ⟨exact', hexact⟩ := hfits.defaulted "matchLabels" rfl (describes_textMap rfl) .empty
    obtain ⟨requirements, hrequirements⟩ :=
      hfits.defaulted "matchExpressions" rfl (.list LabelRequirement.described rfl) []
    exact ⟨⟨exact', requirements⟩, by simp [ofJson?, hexact, hrequirements]⟩
  writes := by
    intro s
    refine admits_obj (by simp) (.append ?_ ?_)
    · exact fits_unlessEmpty "matchExpressions" rfl (.list LabelRequirement.described rfl)
        s.requirements
    · exact fits_textsUnlessEmpty "matchLabels" rfl (describes_textMap rfl) s.exact

/-! ## Rules -/

theorem Target.described : Target.schema.Describes ofJson? toJson where
  reads := by
    intro v hv
    obtain ⟨fields, rfl, -, hfits⟩ := exists_fields_of_admits hv rfl
    obtain ⟨names, hnames⟩ := hfits.defaulted "nameSelector" rfl NameSelector.described {}
    obtain ⟨uids, huids⟩ := hfits.defaulted "uidSelector" rfl UidSelector.described {}
    obtain ⟨owners, howners⟩ := hfits.defaulted "ownerSelector" rfl OwnerSelector.described {}
    obtain ⟨labels, hlabels⟩ := hfits.defaulted "labelSelector" rfl LabelSelector.described {}
    exact ⟨⟨names, uids, owners, labels⟩, by simp [ofJson?, hnames, huids, howners, hlabels]⟩
  writes := by
    intro t
    refine admits_obj (by simp) ?_
    exact .written "labelSelector" rfl LabelSelector.described t.labels <|
      .written "nameSelector" rfl NameSelector.described t.names <|
      .written "ownerSelector" rfl OwnerSelector.described t.owners <|
      .written "uidSelector" rfl UidSelector.described t.uids fits_nil

theorem SecretKey.described : SecretKey.schema.Describes ofJson? toJson where
  reads := by
    intro v hv
    obtain ⟨fields, rfl, hthere, hfits⟩ := exists_fields_of_admits hv rfl
    obtain ⟨name, hname⟩ := hfits.required "name" rfl describes_anyText (hthere _ (by simp))
    obtain ⟨ns, hns⟩ := hfits.required "namespace" rfl describes_anyText (hthere _ (by simp))
    exact ⟨⟨ns, name⟩, by simp [ofJson?, hname, hns]⟩
  writes := by
    intro k
    refine admits_obj (by simp) ?_
    exact .written "name" rfl describes_anyText k.name <|
      .written "namespace" rfl describes_anyText k.ns fits_nil

theorem CopyTemplate.described : CopyTemplate.schema.Describes ofJson? toJson where
  reads := by
    intro v hv
    obtain ⟨fields, rfl, -, hfits⟩ := exists_fields_of_admits hv rfl
    obtain ⟨name, hname⟩ := hfits.optional "name" rfl
    obtain ⟨labels, hlabels⟩ := hfits.defaulted "labels" rfl (describes_textMap rfl) .empty
    exact ⟨⟨name, labels⟩, by simp [ofJson?, hname, hlabels]⟩
  writes := by
    intro t
    refine admits_obj (by simp) (.append ?_ ?_)
    · exact fits_textsUnlessEmpty "labels" rfl (describes_textMap rfl) t.labels
    · refine fits_present "name" rfl ?_
      intro v hv
      obtain ⟨name, -, rfl⟩ := Option.map_eq_some_iff.1 hv
      exact admits_text_iff.2 (.inr ⟨name, rfl, .inl rfl⟩)

/-- Only the name may be null. -/
example : CopyTemplate.schema.toJson.admits (.obj [("name", .null)]) = true ∧
    CopyTemplate.schema.toJson.admits (.obj [("labels", .null)]) = false := by decide

theorem ReclaimPolicy.described : ReclaimPolicy.schema.Describes ofJson? toJson := by
  refine describes_choice (by decide) ?_ ?_ rfl
  · intro word hword
    obtain ⟨policy, -, rfl⟩ := List.mem_map.1 hword
    cases policy <;> exact ⟨_, rfl⟩
  · intro policy
    exact ⟨policy.text, List.mem_map_of_mem (by cases policy <;> decide), rfl⟩

theorem Rule.described : Rule.schema.Describes ofJson? toJson where
  reads := by
    intro v hv
    obtain ⟨fields, rfl, hthere, hfits⟩ := exists_fields_of_admits hv rfl
    obtain ⟨source, hsource⟩ :=
      hfits.required "sourceSecret" rfl SecretKey.described (hthere _ (by simp))
    obtain ⟨target, htarget⟩ := hfits.defaulted "targetNamespaces" rfl Target.described {}
    obtain ⟨template, htemplate⟩ := hfits.defaulted "targetSecret" rfl CopyTemplate.described {}
    obtain ⟨reclaim, hreclaim⟩ :=
      hfits.defaulted "reclaimPolicy" rfl ReclaimPolicy.described .delete
    exact ⟨⟨source, target, template, reclaim⟩,
      by simp [ofJson?, hsource, htarget, htemplate, hreclaim]⟩
  writes := by
    intro r
    refine admits_obj (by simp) ?_
    exact .written "reclaimPolicy" rfl ReclaimPolicy.described r.reclaim <|
      .written "sourceSecret" rfl SecretKey.described r.source <|
      .written "targetNamespaces" rfl Target.described r.target <|
      .written "targetSecret" rfl CopyTemplate.described r.template fits_nil

/-! ## Copiers -/

theorem CopierSpec.described : Copier.specSchema.Describes ofJson? toJson where
  reads := by
    intro v hv
    obtain ⟨fields, rfl, -, hfits⟩ := exists_fields_of_admits hv rfl
    obtain ⟨rules, hrules⟩ := hfits.defaulted "rules" rfl (.list Rule.described rfl) []
    obtain ⟨period, hperiod⟩ := hfits.defaulted "syncPeriod" rfl (describes_text rfl) defaultPeriod
    exact ⟨⟨rules, period⟩, by simp [ofJson?, hrules, hperiod]⟩
  writes := by
    intro s
    refine admits_obj (by simp) (.append ?_ ?_)
    · exact fits_unlessEmpty "rules" rfl (.list Rule.described rfl) s.rules
    · exact .written "syncPeriod" rfl (describes_text rfl) s.syncPeriod fits_nil

/-- The schema that a definition of a kind gives, in one of its versions, for what objects of this
kind are asked to do. -/
def Json.specSchema? (definition : Json) (version : String) : Option Json := do
  let versions ← (← (← definition.under? "spec").under? "versions").list? some
  let entry ← versions.find? fun entry => entry.under? "name" = some (.str version)
  let schema ← (← entry.under? "schema").under? "openAPIV3Schema"
  (← schema.under? "properties").under? "spec"

/-- **What the cluster lets pass can be read, and what is written it lets pass.**  The definition by
which copiers are made known to a cluster has a schema for what they are asked to do. Every document
that has the form described there is read by the copiers, and for whatever a copier is asked to do
the document that is written has this form. -/
theorem definition_describes_specs :
    ∃ schema, Copier.definition.specSchema? Copier.version = some schema ∧
      (∀ j : Json, schema.admits j = true → ∃ s, CopierSpec.ofJson? j = some s) ∧
      ∀ s : CopierSpec, schema.admits s.toJson = true :=
  ⟨Copier.specSchema.toJson, rfl, (CopierSpec.described).reads, (CopierSpec.described).writes⟩

end SecretFanout
