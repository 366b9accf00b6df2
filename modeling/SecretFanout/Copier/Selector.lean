import SecretFanout.Glob
import SecretFanout.Object.Meta

/-!
# Selectors

What a rule can ask of a namespace: its name, its identity, its owners or its labels.
A selector with nothing in it is empty and accepts nothing by itself; what an empty
selector means among others is for the target of a rule to say.

Names and label values are compared by a pattern test, which is a parameter of the
functions that end in `By`; the others use glob patterns.
-/

namespace SecretFanout

/-- A test of a text against a pattern, the pattern first. -/
abbrev PatternTest := String → String → Bool

/-! ## Names -/

/-- Patterns for names; those with a leading `!` exclude names. -/
structure NameSelector where
  /-- The patterns. -/
  patterns : List String := []
  deriving DecidableEq

namespace NameSelector

/-- Whether there is nothing to accept a name. -/
def isEmpty (s : NameSelector) : Bool := s.patterns.isEmpty

/-- What an excluding pattern excludes. -/
def exclusion? (pattern : String) : Option String :=
  match pattern.toList with
  | '!' :: rest => some (String.ofList rest)
  | _ => none

theorem exclusion?_eq_some_iff {p q : String} : exclusion? p = some q ↔ p = "!" ++ q := by
  rw [← String.toList_inj, String.toList_append, exclusion?]
  split
  · next rest hp =>
    rw [hp, Option.some.injEq, ← String.toList_inj, String.toList_ofList]
    exact List.cons_inj_right '!' |>.symm
  · next hp => simpa using fun h => hp q.toList h

theorem exclusion?_eq_none_iff {p : String} :
    exclusion? p = none ↔ p.toList.head? ≠ some '!' := by
  rw [exclusion?]
  split
  · next rest hp => simp [hp]
  · next hp => simpa [List.head?_eq_some_iff] using hp

/-- The patterns of which one has to match. -/
def includes (s : NameSelector) : List String :=
  s.patterns.filter fun p => (exclusion? p).isNone

/-- The patterns of which none may match. -/
def excludes (s : NameSelector) : List String := s.patterns.filterMap exclusion?

theorem mem_includes_iff {s : NameSelector} {p : String} :
    p ∈ s.includes ↔ p ∈ s.patterns ∧ p.toList.head? ≠ some '!' := by
  rw [includes, List.mem_filter, Option.isNone_iff_eq_none, exclusion?_eq_none_iff]

theorem mem_excludes_iff {s : NameSelector} {q : String} :
    q ∈ s.excludes ↔ "!" ++ q ∈ s.patterns := by
  simp only [excludes, List.mem_filterMap, exclusion?_eq_some_iff, exists_eq_right]

/-- Whether a name matches an including pattern, if there is one, and no excluding one. -/
def acceptsBy (test : PatternTest) (s : NameSelector) (name : String) : Bool :=
  !s.isEmpty &&
    (s.includes.isEmpty || s.includes.any fun p => test p name) &&
    !s.excludes.any fun p => test p name

theorem acceptsBy_iff {test : PatternTest} {s : NameSelector} {name : String} :
    s.acceptsBy test name = true ↔
      s.patterns ≠ [] ∧ (s.includes = [] ∨ ∃ p ∈ s.includes, test p name = true) ∧
        ∀ p ∈ s.excludes, test p name = false := by
  simp [acceptsBy, isEmpty, and_assoc]

/-- Whether a name is accepted, by glob patterns. -/
def accepts (s : NameSelector) (name : String) : Bool := s.acceptsBy globMatches name

end NameSelector

/-! ## Identities and owners -/

/-- Identities, compared exactly. -/
structure UidSelector where
  /-- The identities. -/
  uids : List String := []
  deriving DecidableEq

namespace UidSelector

/-- Whether there is no identity to accept. -/
def isEmpty (s : UidSelector) : Bool := s.uids.isEmpty

/-- Whether an identity is listed. -/
def accepts (s : UidSelector) (uid : String) : Bool := s.uids.contains uid

end UidSelector

/-- What identifies an owner. -/
structure Owner where
  /-- Group and version of the owner's kind. -/
  apiVersion : String
  /-- The owner's kind. -/
  kind : String
  /-- The owner's name. -/
  name : String
  /-- The owner's identity. -/
  uid : String
  deriving DecidableEq

/-- The owner that a reference points to. -/
def OwnerReference.owner (r : OwnerReference) : Owner := ⟨r.apiVersion, r.kind, r.name, r.uid⟩

/-- Owners, compared in all their fields. -/
structure OwnerSelector where
  /-- The owners. -/
  owners : List Owner := []
  deriving DecidableEq

namespace OwnerSelector

/-- Whether there is no owner to accept. -/
def isEmpty (s : OwnerSelector) : Bool := s.owners.isEmpty

/-- Whether one of the references points to a listed owner. -/
def accepts (s : OwnerSelector) (references : List OwnerReference) : Bool :=
  references.any fun r => s.owners.contains r.owner

end OwnerSelector

/-! ## Labels -/

/-- How a requirement reads the label under its key. -/
inductive LabelOperator where
  /-- The label is there and its value matches a pattern. -/
  | isIn
  /-- The label is missing or its value matches no pattern. -/
  | notIn
  /-- The label is there. -/
  | present
  /-- The label is missing. -/
  | absent
  deriving DecidableEq

/-- A requirement on one label. -/
structure LabelRequirement where
  /-- The key of the label. -/
  key : String
  /-- What is asked of it. -/
  operator : LabelOperator
  /-- The patterns for its value. -/
  values : List String := []
  deriving DecidableEq

/-- Whether labels meet a requirement. -/
def LabelRequirement.acceptsBy (test : PatternTest) (r : LabelRequirement) (labels : TextMap) :
    Bool :=
  match labels.get? r.key, r.operator with
  | some value, .isIn => r.values.any fun p => test p value
  | some value, .notIn => !r.values.any fun p => test p value
  | some _, .present => true
  | some _, .absent => false
  | none, .isIn | none, .present => false
  | none, .notIn | none, .absent => true

/-- Exact labels and further requirements, all of which have to hold. -/
structure LabelSelector where
  /-- Labels that have to be there with these values. -/
  exact : TextMap := .empty
  /-- The further requirements. -/
  requirements : List LabelRequirement := []
  deriving DecidableEq

namespace LabelSelector

/-- Whether nothing is asked. -/
def isEmpty (s : LabelSelector) : Bool := s.exact.isEmpty && s.requirements.isEmpty

theorem isEmpty_iff {s : LabelSelector} : s.isEmpty = true ↔ s = {} := by
  constructor
  · obtain ⟨exactLabels, requirements⟩ := s
    rw [isEmpty, Bool.and_eq_true, List.isEmpty_iff]
    rintro ⟨hexact, rfl⟩
    obtain rfl : exactLabels = .empty := SortedMap.ext_entries (List.isEmpty_iff.1 hexact)
    rfl
  · rintro rfl
    rfl

/-- Whether labels meet everything that is asked, and something is. -/
def acceptsBy (test : PatternTest) (s : LabelSelector) (labels : TextMap) : Bool :=
  !s.isEmpty &&
    (s.exact.toList.all fun e => labels.get? e.1 == some e.2) &&
    s.requirements.all fun r => r.acceptsBy test labels

theorem acceptsBy_iff {test : PatternTest} {s : LabelSelector} {labels : TextMap} :
    s.acceptsBy test labels = true ↔ s.isEmpty = false ∧
      (∀ key value, s.exact.get? key = some value → labels.get? key = some value) ∧
        ∀ r ∈ s.requirements, r.acceptsBy test labels = true := by
  simp [acceptsBy, SortedMap.get?_eq_some_iff, and_assoc]

/-- Whether labels are accepted, by glob patterns. -/
def accepts (s : LabelSelector) (labels : TextMap) : Bool := s.acceptsBy globMatches labels

end LabelSelector

end SecretFanout
