import SecretFanout.Cluster.Basic
import SecretFanout.Fanout.Copy

/-!
# Marks and contents of copies

What the two ways of writing a copy do to its mark, to its contents and to the key it is
stored under.

* `owns_newCopy`, `owns_refreshed` — a new copy carries the mark of its rule, and bringing
  a copy up to date leaves its mark as it was.
* `Rule.IsCurrent` — a copy has the type, the data and the labels that a rule asks for;
  `needsUpdate_eq_false_iff` says that this is what the test in `Copier.decide` tests.
* `decide_eq_create_iff`, `decide_eq_replace_iff`, `decide_eq_leave` — when a copy is
  made, written again or left.
* `Copier.source_eq_of_ownership_eq` — rules of one copier with one mark have one source, as
  long as no slash stands in the namespaces of the sources.
-/

namespace SecretFanout

/-! ## Marks -/

namespace Ownership

theorem owns_iff {o : Ownership} {s : Secret} : o.owns s = true ↔ ofSecret? s = some o := by
  simp [owns]

/-- A secret carries at most one mark. -/
theorem owns_unique {o p : Ownership} {s : Secret} (ho : o.owns s = true) (hp : p.owns s = true) :
    o = p := by
  rw [owns_iff] at ho hp
  exact Option.some.inj (ho.symm.trans hp)

theorem get?_toAnnotations_copierKey (o : Ownership) :
    o.toAnnotations.get? copierKey = some o.copier := by
  rw [toAnnotations, SortedMap.get?_insert_of_ne _ _ (by decide), SortedMap.get?_insert_self]

theorem get?_toAnnotations_sourceKey (o : Ownership) :
    o.toAnnotations.get? sourceKey = some o.source := by
  rw [toAnnotations, SortedMap.get?_insert_self]

/-- The mark that annotations were made from is the one read off them. -/
theorem owns_of_annotations {o : Ownership} {s : Secret}
    (h : s.metadata.annotations = some o.toAnnotations) : o.owns s = true := by
  rw [owns_iff, ofSecret?, h]
  simp [get?_toAnnotations_copierKey, get?_toAnnotations_sourceKey]

@[simp] theorem owns_withVersion (o : Ownership) (s : Secret) (v : String) :
    o.owns (s.withVersion v) = o.owns s := rfl

@[simp] theorem owns_withAssignedUid (o : Ownership) (key : SecretKey) (s : Secret) :
    o.owns (Cluster.withAssignedUid key s) = o.owns s := rfl

/-- Bringing a copy up to date leaves its mark. -/
@[simp] theorem owns_refreshed (o : Ownership) (source copy : Secret) (labels : TextMap) :
    o.owns (source.refreshed copy labels) = o.owns copy := rfl

/-- A new copy carries the mark of its copier and its source. -/
@[simp] theorem owns_newCopy (c : Copier) (r : Rule) (ns : String) (source : Secret) :
    (c.ownership r).owns (c.newCopy r ns source) = true := owns_of_annotations rfl

end Ownership

/-- Two rules of one copier with the same mark have the same source, as long as no slash
stands in the namespaces of the sources. -/
theorem Copier.source_eq_of_ownership_eq {c : Copier} {r r' : Rule} (hr : '/' ∉ r.source.ns.toList)
    (hr' : '/' ∉ r'.source.ns.toList) (h : c.ownership r = c.ownership r') :
    r.source = r'.source :=
  SecretKey.text_injective hr hr' (congrArg Ownership.source h)

/-! ## Keys of copies -/

@[simp] theorem Secret.key_withVersion (s : Secret) (v : String) : (s.withVersion v).key = s.key :=
  rfl

@[simp] theorem Cluster.key_withAssignedUid (key : SecretKey) (s : Secret) :
    (withAssignedUid key s).key = s.key := rfl

@[simp] theorem Secret.key_refreshed (source copy : Secret) (labels : TextMap) :
    (source.refreshed copy labels).key = copy.key := rfl

@[simp] theorem Copier.key_newCopy (c : Copier) (r : Rule) (ns : String) (source : Secret) :
    (c.newCopy r ns source).key = r.copyKey ns := rfl

@[simp] theorem Secret.resourceVersion_refreshed (source copy : Secret) (labels : TextMap) :
    (source.refreshed copy labels).metadata.resourceVersion = copy.metadata.resourceVersion := rfl

/-! ## Contents -/

/-- A copy has the contents that a rule gives to copies of a source: its type, its data
and the labels of the source with the rule's put over them. -/
structure Rule.IsCurrent (r : Rule) (source copy : Secret) : Prop where
  /-- The type is the source's. -/
  type_eq : copy.type = source.type
  /-- The data is the source's; missing data differs from empty data. -/
  data_eq : copy.data = source.data
  /-- The labels are the source's with the rule's over them. -/
  labels_eq : copy.labels = source.labels.overlay r.template.labels

/-- An update is due exactly when the copy is not current. -/
theorem needsUpdate_eq_false_iff {r : Rule} {source copy : Secret} :
    source.needsUpdate copy (r.copyLabels source) = false ↔ r.IsCurrent source copy := by
  simp only [Secret.needsUpdate, Bool.or_eq_false_iff, bne_eq_false_iff_eq]
  constructor
  · rintro ⟨⟨ht, hd⟩, hl⟩
    exact ⟨ht.symm, hd.symm, hl⟩
  · rintro ⟨ht, hd, hl⟩
    exact ⟨⟨ht.symm, hd.symm⟩, hl⟩

namespace Rule.IsCurrent

variable {r : Rule} {source copy : Secret}

theorem withVersion (h : r.IsCurrent source copy) (v : String) :
    r.IsCurrent source (copy.withVersion v) := ⟨h.type_eq, h.data_eq, h.labels_eq⟩

theorem withAssignedUid (h : r.IsCurrent source copy) (key : SecretKey) :
    r.IsCurrent source (Cluster.withAssignedUid key copy) := ⟨h.type_eq, h.data_eq, h.labels_eq⟩

/-- What is current for a source is current for whatever is found under its key. -/
theorem of_stored {cl : Cluster} (h : r.IsCurrent source copy)
    (hsource : cl.secrets.get? r.source = some source) :
    ∀ found, cl.secrets.get? r.source = some found → r.IsCurrent found copy := by
  intro found hfound
  obtain rfl := Option.some.inj (hsource.symm.trans hfound)
  exact h

/-- Rules that put the same labels over the source's agree on what is current. -/
theorem congr {r' : Rule} (h : r.IsCurrent source copy)
    (hl : r.template.labels = r'.template.labels) : r'.IsCurrent source copy := by
  refine ⟨h.type_eq, h.data_eq, ?_⟩
  rw [h.labels_eq, hl]

end Rule.IsCurrent

theorem isCurrent_newCopy (c : Copier) (r : Rule) (ns : String) (source : Secret) :
    r.IsCurrent source (c.newCopy r ns source) := ⟨rfl, rfl, rfl⟩

theorem isCurrent_refreshed (r : Rule) (source copy : Secret) :
    r.IsCurrent source (source.refreshed copy (r.copyLabels source)) := ⟨rfl, rfl, rfl⟩

/-! ## Decisions -/

section Decide

variable {c : Copier} {r : Rule} {ns : String} {source : Secret} {found : Option Secret}

/-- A copy is made exactly where nothing stands. -/
theorem decide_eq_create_iff {copy : Secret} :
    c.decide r ns source found = .create copy ↔ found = none ∧ copy = c.newCopy r ns source := by
  cases found with
  | none => simp [Copier.decide, eq_comm]
  | some old =>
    simp only [Copier.decide]
    split
    · simp
    · split <;> simp

/-- A copy is written again exactly when one with the right mark stands there that is not
current, and then it keeps all but its contents. -/
theorem decide_eq_replace_iff {copy : Secret} :
    c.decide r ns source found = .replace copy ↔
      ∃ old, found = some old ∧ (c.ownership r).owns old = true ∧ ¬ r.IsCurrent source old ∧
        copy = source.refreshed old (r.copyLabels source) := by
  cases found with
  | none => simp [Copier.decide]
  | some old =>
    have hcurrent : source.needsUpdate old (r.copyLabels source) = false ↔ r.IsCurrent source old :=
      needsUpdate_eq_false_iff
    simp only [Copier.decide, Option.some.injEq, exists_eq_left']
    by_cases howns : (c.ownership r).owns old = true
    · by_cases hup : source.needsUpdate old (r.copyLabels source) = true
      · have hstale : ¬ r.IsCurrent source old := fun h => by simp [hcurrent.2 h] at hup
        simp [howns, hup, hstale, eq_comm]
      · have hfresh : r.IsCurrent source old := hcurrent.1 (by simpa using hup)
        simp [howns, hup, hfresh]
    · simp [howns]

/-- What is left alone is no gap, and if it carries the mark it is current. -/
theorem decide_eq_leave {outcome : Outcome} (h : c.decide r ns source found = .leave outcome) :
    ∃ old, found = some old ∧
      ((outcome = .notManaged ∧ (c.ownership r).owns old = false) ∨
        (outcome = .unchanged ∧ (c.ownership r).owns old = true ∧ r.IsCurrent source old)) := by
  cases found with
  | none => simp [Copier.decide] at h
  | some old =>
    refine ⟨old, rfl, ?_⟩
    simp only [Copier.decide] at h
    split at h
    · next howns =>
      cases h
      exact Or.inl ⟨rfl, by simpa using howns⟩
    · next howns =>
      split at h
      · next hup =>
        cases h
        exact Or.inr ⟨rfl, by simpa using howns, needsUpdate_eq_false_iff.1 (by simpa using hup)⟩
      · cases h

end Decide

end SecretFanout
