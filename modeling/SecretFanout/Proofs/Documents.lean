import SecretFanout.Copier.Document
import SecretFanout.Proofs.Texts

/-!
# Documents that are read back

What a copier is asked to do is written as a document from which the same is read again, whatever
the document leaves out.

* `Json.ReadsBack` — a reader that gives back each value that a writer has written;
  `ReadsBack.list` and `ReadsBack.map` lift this to lists and maps.
* `required_of_field`, `defaulted_of_field`, `defaulted_of_unlessEmpty`,
  `defaulted_of_textsUnlessEmpty`, `optional_of_occurrences` — what is read from a field by what is
  written there, if anything is.
* `NameSelector.readsBack` to `Rule.readsBack` — the parts of a copier.
* `specs_are_read_back` — what a copier is asked to do.
-/

namespace SecretFanout

/-- The entries of a map make the same map. -/
theorem SortedMap.ofList_entries {κ α : Type} [Ord κ] [Std.TransOrd κ] [Std.LawfulEqOrd κ]
    (m : SortedMap κ α) : SortedMap.ofList m.entries = m := by
  refine ext_get? ?_
  intro k
  rw [ofList, get?_foldl_insert m.entries m.ascending, get?_empty, Option.or_none]
  rfl

namespace Json

variable {α : Type} {read : Json → Option α} {write : α → Json} {fields : Fields} {name : String}

/-! ## Values -/

/-- What is written of a value is read as the same value. -/
def ReadsBack (read : Json → Option α) (write : α → Json) : Prop := ∀ a, read (write a) = some a

theorem readsBack_text : ReadsBack text? str := fun _ => rfl

theorem ReadsBack.list (h : ReadsBack read write) : ReadsBack (list? read) (ofList write) :=
  fun items => mapM_map_of_forall h items

theorem ReadsBack.map (h : ReadsBack read write) : ReadsBack (map? read) (ofMap write) := by
  intro m
  have hentries := mapM_map_of_forall (f := fun e => do pure (e.1, ← read e.2))
    (g := fun e => (e.1, write e.2)) (fun e => by simp [h e.2]) m.entries
  rw [ofMap, map?, hentries, Option.bind_eq_bind, Option.bind_some, SortedMap.ofList_entries]
  rfl

/-! ## Fields -/

theorem required_of_field {a : α} (h : ReadsBack read write)
    (hfield : field? name fields = some (write a)) : required fields name read = some a := by
  rw [required, hfield, Option.bind_some, h a]

theorem defaulted_of_field {a default : α} (h : ReadsBack read write)
    (hfield : field? name fields = some (write a)) :
    defaulted fields name read default = some a := by
  rw [defaulted, hfield]
  exact h a

/-- A list that is left out where it is empty is read as the empty one. -/
theorem defaulted_of_unlessEmpty {l : List α} (h : ReadsBack read write)
    (hfield : field? name fields = unlessEmpty write l) :
    defaulted fields name (list? read) [] = some l := by
  cases l with
  | nil => rw [defaulted, hfield]; rfl
  | cons item rest => exact defaulted_of_field h.list hfield

/-- A map that is left out where it is empty is read as the empty one. -/
theorem defaulted_of_textsUnlessEmpty {m : TextMap}
    (hfield : field? name fields = textsUnlessEmpty m) :
    defaulted fields name (map? text?) .empty = some m := by
  rw [textsUnlessEmpty] at hfield
  split at hfield
  · next hempty =>
    have hm : m = .empty := SortedMap.ext_entries (List.isEmpty_iff.1 hempty)
    rw [defaulted, hfield, hm]
  · exact defaulted_of_field readsBack_text.map hfield

/-- A text that may be missing is read as missing if it is left out, and only then. -/
theorem optional_of_occurrences {t : Option String}
    (hfield : occurrences name fields = (t.map str).toList) :
    optional fields name text? = some t := by
  rw [optional, hfield]
  cases t <;> rfl

end Json

open Json

/-! ## Selectors -/

theorem NameSelector.readsBack : ReadsBack NameSelector.ofJson? NameSelector.toJson := by
  intro s
  simp only [toJson, ofJson?, record?_obj, Option.bind_eq_bind, Option.bind_some]
  rw [defaulted_of_field readsBack_text.list (a := s.patterns)]
  all_goals rfl

theorem UidSelector.readsBack : ReadsBack UidSelector.ofJson? UidSelector.toJson := by
  intro s
  simp only [toJson, ofJson?, record?_obj, Option.bind_eq_bind, Option.bind_some]
  rw [defaulted_of_field readsBack_text.list (a := s.uids)]
  all_goals rfl

theorem Owner.readsBack : ReadsBack Owner.ofJson? Owner.toJson := by
  intro o
  simp only [toJson, ofJson?, record?_obj, Option.bind_eq_bind, Option.bind_some]
  rw [required_of_field readsBack_text (a := o.apiVersion),
    required_of_field readsBack_text (a := o.kind), required_of_field readsBack_text (a := o.name),
    required_of_field readsBack_text (a := o.uid)]
  all_goals rfl

theorem OwnerSelector.readsBack : ReadsBack OwnerSelector.ofJson? OwnerSelector.toJson := by
  intro s
  simp only [toJson, ofJson?, record?_obj, Option.bind_eq_bind, Option.bind_some]
  rw [defaulted_of_field Owner.readsBack.list (a := s.owners)]
  all_goals rfl

theorem LabelOperator.readsBack : ReadsBack LabelOperator.ofJson? fun op => .str op.text := by
  intro op
  cases op <;> rfl

theorem LabelRequirement.readsBack :
    ReadsBack LabelRequirement.ofJson? LabelRequirement.toJson := by
  intro r
  simp only [toJson, ofJson?, record?_obj, Option.bind_eq_bind, Option.bind_some]
  rw [required_of_field readsBack_text (a := r.key),
    required_of_field LabelOperator.readsBack (a := r.operator),
    defaulted_of_unlessEmpty readsBack_text (l := r.values)]
  · rfl
  all_goals simp [field?_present, field?_cons]

theorem LabelSelector.readsBack : ReadsBack LabelSelector.ofJson? LabelSelector.toJson := by
  intro s
  simp only [toJson, ofJson?, record?_obj, Option.bind_eq_bind, Option.bind_some]
  rw [defaulted_of_textsUnlessEmpty (m := s.exact),
    defaulted_of_unlessEmpty LabelRequirement.readsBack (l := s.requirements)]
  · rfl
  all_goals simp [field?_append, field?_present]

/-! ## Rules -/

theorem Target.readsBack : ReadsBack Target.ofJson? Target.toJson := by
  intro t
  simp only [toJson, ofJson?, record?_obj, Option.bind_eq_bind, Option.bind_some]
  rw [defaulted_of_field NameSelector.readsBack (a := t.names),
    defaulted_of_field UidSelector.readsBack (a := t.uids),
    defaulted_of_field OwnerSelector.readsBack (a := t.owners),
    defaulted_of_field LabelSelector.readsBack (a := t.labels)]
  all_goals rfl

theorem SecretKey.readsBack : ReadsBack SecretKey.ofJson? SecretKey.toJson := by
  intro k
  simp only [toJson, ofJson?, record?_obj, Option.bind_eq_bind, Option.bind_some]
  rw [required_of_field readsBack_text (a := k.ns), required_of_field readsBack_text (a := k.name)]
  all_goals rfl

theorem CopyTemplate.readsBack : ReadsBack CopyTemplate.ofJson? CopyTemplate.toJson := by
  intro t
  simp only [toJson, ofJson?, record?_obj, Option.bind_eq_bind, Option.bind_some]
  rw [optional_of_occurrences (t := t.name), defaulted_of_textsUnlessEmpty (m := t.labels)]
  · rfl
  all_goals simp [field?_append, field?_present, occurrences_append, occurrences_present]

theorem ReclaimPolicy.readsBack : ReadsBack ReclaimPolicy.ofJson? ReclaimPolicy.toJson := by
  intro p
  cases p <;> rfl

theorem Rule.readsBack : ReadsBack Rule.ofJson? Rule.toJson := by
  intro r
  simp only [toJson, ofJson?, record?_obj, Option.bind_eq_bind, Option.bind_some]
  rw [required_of_field SecretKey.readsBack (a := r.source),
    defaulted_of_field Target.readsBack (a := r.target),
    defaulted_of_field CopyTemplate.readsBack (a := r.template),
    defaulted_of_field ReclaimPolicy.readsBack (a := r.reclaim)]
  all_goals rfl

/-! ## Copiers -/

theorem CopierSpec.readsBack : ReadsBack CopierSpec.ofJson? CopierSpec.toJson := by
  intro s
  simp only [toJson, ofJson?, record?_obj, Option.bind_eq_bind, Option.bind_some]
  rw [defaulted_of_unlessEmpty Rule.readsBack (l := s.rules),
    defaulted_of_field readsBack_text (a := s.syncPeriod)]
  · rfl
  all_goals simp [field?_append, field?_present, field?_cons]

/-! ## Texts -/

theorem isSimple_unlessEmpty {α : Type} {levels : Nat} {write : α → Json}
    (h : ∀ a, (write a).isSimple levels = true) (name : String) (items : List α) :
    ∀ e ∈ present name (unlessEmpty write items), e.2.isSimple (levels + 1) = true := by
  intro e he
  obtain ⟨v, hv, rfl⟩ := mem_present_iff.1 he
  obtain rfl := eq_of_unlessEmpty hv
  exact isSimple_ofList h items

theorem isSimple_textsUnlessEmpty {levels : Nat} (name : String) (m : TextMap) :
    ∀ e ∈ present name (textsUnlessEmpty m), e.2.isSimple (levels + 1) = true := by
  intro e he
  obtain ⟨v, hv, rfl⟩ := mem_present_iff.1 he
  obtain rfl := eq_of_textsUnlessEmpty hv
  exact isSimple_ofTexts m

theorem NameSelector.isSimple_toJson (levels : Nat) (s : NameSelector) :
    s.toJson.isSimple (levels + 2) = true := by
  simp [toJson, isSimple_obj_iff, isSimple_ofList, isSimple_str]

theorem UidSelector.isSimple_toJson (levels : Nat) (s : UidSelector) :
    s.toJson.isSimple (levels + 2) = true := by
  simp [toJson, isSimple_obj_iff, isSimple_ofList, isSimple_str]

theorem Owner.isSimple_toJson (levels : Nat) (o : Owner) :
    o.toJson.isSimple (levels + 1) = true := by
  simp [toJson, isSimple_obj_iff, isSimple_str]

theorem OwnerSelector.isSimple_toJson (levels : Nat) (s : OwnerSelector) :
    s.toJson.isSimple (levels + 3) = true := by
  simp [toJson, isSimple_obj_iff, isSimple_ofList, Owner.isSimple_toJson]

theorem LabelRequirement.isSimple_toJson (levels : Nat) (r : LabelRequirement) :
    r.toJson.isSimple (levels + 2) = true := by
  refine isSimple_obj_iff.2 (List.forall_mem_append.2 ⟨by simp [isSimple_str], ?_⟩)
  exact isSimple_unlessEmpty isSimple_str "values" r.values

theorem LabelSelector.isSimple_toJson (levels : Nat) (s : LabelSelector) :
    s.toJson.isSimple (levels + 4) = true := by
  refine isSimple_obj_iff.2 (List.forall_mem_append.2 ⟨?_, ?_⟩)
  · exact isSimple_unlessEmpty (LabelRequirement.isSimple_toJson levels) _ s.requirements
  · exact isSimple_textsUnlessEmpty "matchLabels" s.exact

theorem Target.isSimple_toJson (levels : Nat) (t : Target) :
    t.toJson.isSimple (levels + 5) = true := by
  have hlabels := LabelSelector.isSimple_toJson levels t.labels
  have hnames := NameSelector.isSimple_toJson (levels + 2) t.names
  have howners := OwnerSelector.isSimple_toJson (levels + 1) t.owners
  have huids := UidSelector.isSimple_toJson (levels + 2) t.uids
  simp [toJson, isSimple_obj_iff, hlabels, hnames, howners, huids]

theorem SecretKey.isSimple_toJson (levels : Nat) (k : SecretKey) :
    k.toJson.isSimple (levels + 1) = true := by
  simp [toJson, isSimple_obj_iff, isSimple_str]

theorem CopyTemplate.isSimple_toJson (levels : Nat) (t : CopyTemplate) :
    t.toJson.isSimple (levels + 2) = true := by
  refine isSimple_obj_iff.2 (List.forall_mem_append.2 ⟨isSimple_textsUnlessEmpty _ t.labels, ?_⟩)
  cases t.name <;> simp [present, isSimple_str]

theorem Rule.isSimple_toJson (levels : Nat) (r : Rule) :
    r.toJson.isSimple (levels + 6) = true := by
  have hsource := SecretKey.isSimple_toJson (levels + 4) r.source
  have htarget := Target.isSimple_toJson levels r.target
  have htemplate := CopyTemplate.isSimple_toJson (levels + 3) r.template
  simp [toJson, isSimple_obj_iff, ReclaimPolicy.toJson, isSimple_str, hsource, htarget, htemplate]

theorem CopierSpec.isSimple_toJson (levels : Nat) (s : CopierSpec) :
    s.toJson.isSimple (levels + 8) = true := by
  refine isSimple_obj_iff.2 (List.forall_mem_append.2 ⟨?_, by simp [isSimple_str]⟩)
  exact isSimple_unlessEmpty (Rule.isSimple_toJson levels) "rules" s.rules

/-- **What a copier is asked to do is read back from its document.**  From the document that is
written of it the same is read, whatever it holds, also when the document goes by its text. So a
document that can be read may be replaced by the one that is written of what it says, with all that
it left out. -/
theorem specs_are_read_back :
    (∀ s : CopierSpec, CopierSpec.ofJson? s.toJson = some s ∧
      (Json.ofText? s.toJson.render).bind CopierSpec.ofJson? = some s) ∧
    ∀ j : Json, ((CopierSpec.ofJson? j).bind fun s => CopierSpec.ofJson? s.toJson) =
      CopierSpec.ofJson? j := by
  refine ⟨?_, ?_⟩
  · intro s
    have htext : Json.ofText? s.toJson.render = some s.toJson :=
      ofText?_render (CopierSpec.isSimple_toJson 119 s)
    exact ⟨CopierSpec.readsBack s, by rw [htext, Option.bind_some, CopierSpec.readsBack s]⟩
  · intro j
    rw [funext CopierSpec.readsBack, Option.bind_fun_some]

end SecretFanout
