import Mathlib.Logic.Basic
import SecretFanout.Copier.Target

/-!
# Edits of a target

How the namespaces that a target accepts change when it is edited, for any test of texts against
patterns. An empty selector asks for nothing and so has to be told apart from one that has entries:
more entries ask for less, but the first ones ask for more.

* `Criterion.Passes` — a selector asks for nothing or accepts a namespace; `passes_uid_iff`,
  `passes_owner_iff` and `passes_label_iff` say what that means for each.
* `Target.acceptsBy_mono` — a target accepts what another does if each of its selectors lets pass
  what that of the other does.
* `Target.Narrowed`, `Target.Widened`, `Target.Rearranged` — the edits.
* `edits_have_a_direction` — what each of them does.
-/

namespace SecretFanout

variable {test : PatternTest} {ns : Snapshot}

/-! ## Selectors that let a namespace pass -/

namespace Criterion

/-- A selector asks for nothing, or it accepts a namespace. -/
def Passes (test : PatternTest) (ns : Snapshot) (c : Criterion) : Prop :=
  c.isEmpty = false → c.acceptsBy test ns = true

theorem passes_uid_iff {s : UidSelector} :
    (uid s).Passes test ns ↔ s.uids = [] ∨ ns.uid ∈ s.uids := by
  rw [Passes, ← Bool.not_eq_true, ← or_iff_not_imp_left]
  simp [isEmpty, acceptsBy, UidSelector.isEmpty, UidSelector.accepts]

theorem passes_owner_iff {s : OwnerSelector} :
    (owner s).Passes test ns ↔ s.owners = [] ∨ ∃ r ∈ ns.owners, r.owner ∈ s.owners := by
  rw [Passes, ← Bool.not_eq_true, ← or_iff_not_imp_left]
  simp [isEmpty, acceptsBy, OwnerSelector.isEmpty, OwnerSelector.accepts]

/-- A selector for labels that asks for nothing needs no case of its own. -/
theorem passes_label_iff {s : LabelSelector} : (label s).Passes test ns ↔
    (∀ key value, s.exact.get? key = some value → ns.labels.get? key = some value) ∧
      ∀ r ∈ s.requirements, r.acceptsBy test ns.labels = true := by
  rw [Passes, acceptsBy, isEmpty, LabelSelector.acceptsBy_iff]
  constructor
  · intro h
    by_cases hempty : s.isEmpty = true
    · obtain rfl := LabelSelector.isEmpty_iff.1 hempty
      simp
    · exact (h (Bool.not_eq_true _ ▸ hempty)).2
  · exact fun h hasks => ⟨hasks, h⟩

end Criterion

namespace Target

/-- A target accepts a namespace if its name is accepted and all other selectors let it pass. -/
theorem acceptsBy_iff_passes {t : Target} : t.acceptsBy test ns = true ↔
    t.namesAsked.acceptsBy test ns.name = true ∧ (Criterion.uid t.uids).Passes test ns ∧
      (Criterion.owner t.owners).Passes test ns ∧ (Criterion.label t.labels).Passes test ns := by
  rw [acceptsBy_iff, otherCriteria]
  simp only [List.forall_mem_cons, List.not_mem_nil, false_imp_iff, implies_true, and_true,
    Criterion.Passes]

/-- What each selector lets pass, the target accepts. -/
theorem acceptsBy_mono {t t' : Target} (h : t.acceptsBy test ns = true)
    (hnames : t.namesAsked.acceptsBy test ns.name = true →
      t'.namesAsked.acceptsBy test ns.name = true)
    (huids : (Criterion.uid t.uids).Passes test ns → (Criterion.uid t'.uids).Passes test ns)
    (howners : (Criterion.owner t.owners).Passes test ns →
      (Criterion.owner t'.owners).Passes test ns)
    (hlabels : (Criterion.label t.labels).Passes test ns →
      (Criterion.label t'.labels).Passes test ns) :
    t'.acceptsBy test ns = true := by
  obtain ⟨hname, huid, howner, hlabel⟩ := acceptsBy_iff_passes.1 h
  exact acceptsBy_iff_passes.2 ⟨hnames hname, huids huid, howners howner, hlabels hlabel⟩

theorem namesAsked_of_patterns {t : Target} (h : t.names.patterns ≠ []) :
    t.namesAsked = t.names := by
  rw [namesAsked, NameSelector.isEmpty, if_neg (by simpa using h)]

end Target

/-! ## Names -/

namespace NameSelector

variable {s s' : NameSelector} {pattern name : String}

/-- One exclusion more leaves out what its pattern matches. -/
theorem acceptsBy_append_exclusion (h : s.patterns ≠ []) :
    (mk (s.patterns ++ ["!" ++ pattern])).acceptsBy test name = true ↔
      s.acceptsBy test name = true ∧ test pattern name = false := by
  have hsome : exclusion? ("!" ++ pattern) = some pattern := exclusion?_eq_some_iff.2 rfl
  have hincludes : (mk (s.patterns ++ ["!" ++ pattern])).includes = s.includes := by
    simp [includes, hsome]
  have hexcludes : (mk (s.patterns ++ ["!" ++ pattern])).excludes = s.excludes ++ [pattern] := by
    simp [excludes, hsome]
  rw [acceptsBy_iff, acceptsBy_iff, hincludes, hexcludes, List.forall_mem_append,
    List.forall_mem_singleton]
  simp [h, and_assoc]

/-- One inclusion more takes in what its pattern matches, if there are others. -/
theorem acceptsBy_append_inclusion (hpattern : pattern.toList.head? ≠ some '!')
    (h : s.includes ≠ []) (haccepts : s.acceptsBy test name = true) :
    (mk (s.patterns ++ [pattern])).acceptsBy test name = true := by
  have hnone : exclusion? pattern = none := exclusion?_eq_none_iff.2 hpattern
  have hincludes : (mk (s.patterns ++ [pattern])).includes = s.includes ++ [pattern] := by
    simp [includes, hnone]
  have hexcludes : (mk (s.patterns ++ [pattern])).excludes = s.excludes := by
    simp [excludes, hnone]
  obtain ⟨-, hincluded, hexcluded⟩ := acceptsBy_iff.1 haccepts
  obtain ⟨p, hp, hmatch⟩ := hincluded.resolve_left h
  rw [acceptsBy_iff, hincludes, hexcludes]
  exact ⟨by simp, Or.inr ⟨p, by simp [hp], hmatch⟩, hexcluded⟩

/-- The order of the patterns and their number make no difference. -/
theorem acceptsBy_of_same_patterns (h : ∀ p, p ∈ s.patterns ↔ p ∈ s'.patterns)
    (haccepts : s.acceptsBy test name = true) : s'.acceptsBy test name = true := by
  have hincludes : ∀ p, p ∈ s.includes ↔ p ∈ s'.includes := fun p => by
    rw [mem_includes_iff, mem_includes_iff, h]
  have hexcludes : ∀ p, p ∈ s.excludes ↔ p ∈ s'.excludes := fun p => by
    rw [mem_excludes_iff, mem_excludes_iff, h]
  rw [acceptsBy_iff] at haccepts ⊢
  simpa only [ne_eq, List.eq_nil_iff_forall_not_mem, h, hincludes, hexcludes] using haccepts

end NameSelector

/-! ## Edits -/

/-- Lists with the same entries, in whatever order and however often. -/
def SameEntries {α : Type} (l l' : List α) : Prop := ∀ x, x ∈ l ↔ x ∈ l'

namespace SameEntries

variable {α : Type} {l l' : List α}

theorem symm (h : SameEntries l l') : SameEntries l' l := fun x => (h x).symm

/-- Entries can be put in another order. -/
theorem of_perm (h : l.Perm l') : SameEntries l l' := fun _ => h.mem_iff

/-- An entry can be written once more. -/
theorem of_mem {x : α} (h : x ∈ l) : SameEntries l (x :: l) := fun y => by
  rw [List.mem_cons, or_iff_right_of_imp]
  rintro rfl
  exact h

theorem eq_nil_iff (h : SameEntries l l') : l = [] ↔ l' = [] := by
  simp only [List.eq_nil_iff_forall_not_mem, h _]

end SameEntries

/-- A requirement on labels with its values in another order or repeated. -/
structure LabelRequirement.Rearranged (r r' : LabelRequirement) : Prop where
  /-- It is about the same label. -/
  key : r.key = r'.key
  /-- It asks the same of it. -/
  operator : r.operator = r'.operator
  /-- It has the same values. -/
  values : SameEntries r.values r'.values

namespace LabelRequirement.Rearranged

variable {r r' : LabelRequirement}

theorem symm (h : r.Rearranged r') : r'.Rearranged r :=
  ⟨h.key.symm, h.operator.symm, h.values.symm⟩

/-- The order of the values and their number make no difference. -/
theorem acceptsBy_eq (h : r.Rearranged r') (labels : TextMap) :
    r.acceptsBy test labels = r'.acceptsBy test labels := by
  have hany : ∀ label, (r.values.any fun p => test p label) = r'.values.any fun p => test p label :=
    fun label => by
      rw [Bool.eq_iff_iff, List.any_eq_true, List.any_eq_true]
      simp only [h.values _]
  simp only [acceptsBy, h.key, h.operator, hany]

end LabelRequirement.Rearranged

namespace Target

/-- A target that is edited so that it asks for more. -/
inductive Narrowed (t : Target) : Target → Prop
  /-- An excluding pattern is put behind other patterns. -/
  | exclusion (h : t.names.isEmpty = false) (pattern : String) :
      Narrowed t { t with names := ⟨t.names.patterns ++ ["!" ++ pattern]⟩ }
  /-- A requirement on labels is put behind the others, if there are any. -/
  | requirement (r : LabelRequirement) :
      Narrowed t { t with labels.requirements := t.labels.requirements ++ [r] }
  /-- A label is asked for under a new key. -/
  | label (key value : String) (h : t.labels.exact.get? key = none) :
      Narrowed t { t with labels.exact := t.labels.exact.insert key value }
  /-- Identities are asked for where none were. -/
  | uids (h : t.uids.isEmpty = true) (uids : List String) : Narrowed t { t with uids := ⟨uids⟩ }
  /-- Owners are asked for where none were. -/
  | owners (h : t.owners.isEmpty = true) (owners : List Owner) :
      Narrowed t { t with owners := ⟨owners⟩ }

/-- A target that is edited so that it asks for less. -/
inductive Widened (t : Target) : Target → Prop
  /-- An identity is put behind others. -/
  | uid (h : t.uids.isEmpty = false) (uid : String) :
      Widened t { t with uids := ⟨t.uids.uids ++ [uid]⟩ }
  /-- An owner is put behind others. -/
  | owner (h : t.owners.isEmpty = false) (owner : Owner) :
      Widened t { t with owners := ⟨t.owners.owners ++ [owner]⟩ }
  /-- An including pattern is put behind patterns of which one includes names already. -/
  | inclusion (h : ∃ p ∈ t.names.patterns, p.toList.head? ≠ some '!') (pattern : String)
      (hpattern : pattern.toList.head? ≠ some '!') :
      Widened t { t with names := ⟨t.names.patterns ++ [pattern]⟩ }

/-- A target whose entries are put in another order or repeated, those of its requirements on
labels too. -/
structure Rearranged (t t' : Target) : Prop where
  /-- It has the same patterns for names. -/
  patterns : SameEntries t.names.patterns t'.names.patterns
  /-- It has the same identities. -/
  uids : SameEntries t.uids.uids t'.uids.uids
  /-- It has the same owners. -/
  owners : SameEntries t.owners.owners t'.owners.owners
  /-- It asks for the same labels. -/
  exact_eq : t.labels.exact = t'.labels.exact
  /-- It keeps every requirement on labels. -/
  kept : ∀ r ∈ t.labels.requirements, ∃ r' ∈ t'.labels.requirements, r.Rearranged r'
  /-- It has no other requirement on labels. -/
  known : ∀ r' ∈ t'.labels.requirements, ∃ r ∈ t.labels.requirements, r.Rearranged r'

variable {t t' : Target}

theorem Rearranged.symm (h : t.Rearranged t') : t'.Rearranged t where
  patterns := h.patterns.symm
  uids := h.uids.symm
  owners := h.owners.symm
  exact_eq := h.exact_eq.symm
  kept r' hr' := (h.known r' hr').imp fun _ hr => ⟨hr.1, hr.2.symm⟩
  known r hr := (h.kept r hr).imp fun _ hr' => ⟨hr'.1, hr'.2.symm⟩

/-- What a narrowed target accepts was accepted before. -/
theorem Narrowed.acceptsBy (h : t.Narrowed t') (haccepts : t'.acceptsBy test ns = true) :
    t.acceptsBy test ns = true := by
  cases h with
  | exclusion h pattern =>
    refine acceptsBy_mono haccepts ?_ id id id
    have hpatterns : t.names.patterns ≠ [] := by simpa [NameSelector.isEmpty] using h
    rw [namesAsked_of_patterns hpatterns, namesAsked_of_patterns (by simp)]
    exact fun h => ((NameSelector.acceptsBy_append_exclusion hpatterns).1 h).1
  | requirement r =>
    refine acceptsBy_mono haccepts id id id ?_
    rw [Criterion.passes_label_iff, Criterion.passes_label_iff]
    rintro ⟨hexact, hall⟩
    exact ⟨hexact, fun r hr => hall r (by simp [hr])⟩
  | label key value h =>
    refine acceptsBy_mono haccepts id id id ?_
    rw [Criterion.passes_label_iff, Criterion.passes_label_iff]
    rintro ⟨hexact, hall⟩
    refine ⟨fun k v hkv => hexact k v ?_, hall⟩
    rw [SortedMap.get?_insert, if_neg, hkv]
    rintro rfl
    rw [h] at hkv
    cases hkv
  | uids h uids =>
    refine acceptsBy_mono haccepts id ?_ id id
    exact fun _ => Criterion.passes_uid_iff.2 (Or.inl (List.isEmpty_iff.1 h))
  | owners h owners =>
    refine acceptsBy_mono haccepts id id ?_ id
    exact fun _ => Criterion.passes_owner_iff.2 (Or.inl (List.isEmpty_iff.1 h))

/-- What was accepted before, a widened target accepts. -/
theorem Widened.acceptsBy (h : t.Widened t') (haccepts : t.acceptsBy test ns = true) :
    t'.acceptsBy test ns = true := by
  cases h with
  | uid h uid =>
    refine acceptsBy_mono haccepts id ?_ id id
    have huids : t.uids.uids ≠ [] := by simpa [UidSelector.isEmpty] using h
    rw [Criterion.passes_uid_iff, Criterion.passes_uid_iff]
    exact fun hpass => Or.inr (by simp [hpass.resolve_left huids])
  | owner h owner =>
    refine acceptsBy_mono haccepts id id ?_ id
    have howners : t.owners.owners ≠ [] := by simpa [OwnerSelector.isEmpty] using h
    rw [Criterion.passes_owner_iff, Criterion.passes_owner_iff]
    intro hpass
    obtain ⟨r, hr, howner⟩ := hpass.resolve_left howners
    exact Or.inr ⟨r, hr, by simp [howner]⟩
  | inclusion h pattern hpattern =>
    refine acceptsBy_mono haccepts ?_ id id id
    obtain ⟨p, hp, hupright⟩ := h
    have hincludes : t.names.includes ≠ [] :=
      List.ne_nil_of_mem (NameSelector.mem_includes_iff.2 ⟨hp, hupright⟩)
    rw [namesAsked_of_patterns (List.ne_nil_of_mem hp), namesAsked_of_patterns (by simp)]
    exact NameSelector.acceptsBy_append_inclusion hpattern hincludes

/-- What was accepted before, a rearranged target accepts. -/
theorem Rearranged.acceptsBy (h : t.Rearranged t') (haccepts : t.acceptsBy test ns = true) :
    t'.acceptsBy test ns = true := by
  refine acceptsBy_mono haccepts ?_ ?_ ?_ ?_
  · by_cases hempty : t.names.patterns = []
    · have hempty' : t'.names.patterns = [] := h.patterns.eq_nil_iff.1 hempty
      simp only [namesAsked, NameSelector.isEmpty, hempty, hempty']
      exact id
    · have hempty' : t'.names.patterns ≠ [] := fun he => hempty (h.patterns.eq_nil_iff.2 he)
      rw [namesAsked_of_patterns hempty, namesAsked_of_patterns hempty']
      exact NameSelector.acceptsBy_of_same_patterns h.patterns
  · rw [Criterion.passes_uid_iff, Criterion.passes_uid_iff, h.uids.eq_nil_iff, h.uids]
    exact id
  · simp only [Criterion.passes_owner_iff, h.owners.eq_nil_iff, h.owners _]
    exact id
  · rw [Criterion.passes_label_iff, Criterion.passes_label_iff, h.exact_eq]
    rintro ⟨hexact, hall⟩
    refine ⟨hexact, fun r' hr' => ?_⟩
    obtain ⟨r, hr, hrearranged⟩ := h.known r' hr'
    rw [← hrearranged.acceptsBy_eq, hall r hr]

end Target

/-- **Edits have a direction.**  Let a target be edited, and let texts be held against patterns by
any test.

* A `!` pattern put behind other patterns, one more requirement on labels, a label under a new key,
  and identities or owners where none were asked for: none of these makes the target accept a
  namespace that it did not accept.
* One more identity or owner behind others, and one more pattern without a `!` where there is one
  already: none of these makes it turn away a namespace that it accepted.
* The order in which patterns, identities, owners, requirements and their values are written, and
  how often, makes no difference. -/
theorem edits_have_a_direction (test : PatternTest) (t t' : Target) (ns : Snapshot) :
    (t.Narrowed t' → t.acceptsBy test ns = false → t'.acceptsBy test ns = false) ∧
    (t.Widened t' → t.acceptsBy test ns = true → t'.acceptsBy test ns = true) ∧
    (t.Rearranged t' → t'.acceptsBy test ns = t.acceptsBy test ns) := by
  refine ⟨fun h => ?_, fun h => h.acceptsBy, fun h => ?_⟩
  · rw [← Bool.not_eq_true, ← Bool.not_eq_true]
    exact mt h.acceptsBy
  · rw [Bool.eq_iff_iff]
    exact ⟨h.symm.acceptsBy, h.acceptsBy⟩

namespace Sample

/-- A test of texts against what they start with. -/
def startsWith : PatternTest := fun pattern text => pattern.toList.isPrefixOf text.toList

/-- The namespaces of a team, but for the old ones. -/
def squad : Target where
  names := ⟨["team-", "!team-old"]⟩
  uids := ⟨["1"]⟩
  labels := ⟨.ofList [("env", "prod")], [⟨"tier", .isIn, ["front", "back"]⟩]⟩

/-- A namespace of the team. -/
def web : Snapshot where
  name := "team-web"
  uid := "1"
  labels := .ofList [("env", "prod"), ("tier", "frontend")]

/-- One of its old namespaces. -/
def legacy : Snapshot := { web with name := "team-old-web" }

end Sample

open Sample in
/-- The old namespace is not accepted when one pattern more excludes names, and the other one is
accepted when an identity is added and when entries are put in another order and repeated. -/
theorem edited_squad_keeps_its_direction :
    Target.acceptsBy startsWith
      { squad with names := ⟨squad.names.patterns ++ ["!" ++ "team-test"]⟩ } legacy = false ∧
    Target.acceptsBy startsWith { squad with uids := ⟨squad.uids.uids ++ ["2"]⟩ } web = true ∧
    Target.acceptsBy startsWith {
      names := ⟨["!team-old", "team-", "!team-old"]⟩
      uids := ⟨["1", "1"]⟩
      labels := ⟨.ofList [("env", "prod")], [⟨"tier", .isIn, ["back", "front"]⟩]⟩ } web =
        squad.acceptsBy startsWith web := by
  refine ⟨(edits_have_a_direction startsWith squad _ legacy).1 (.exclusion rfl "team-test") ?_,
    (edits_have_a_direction startsWith squad _ web).2.1 (.uid rfl "2") ?_,
    (edits_have_a_direction startsWith squad _ web).2.2 ?_⟩
  · decide
  · decide
  · have htier : LabelRequirement.Rearranged ⟨"tier", .isIn, ["front", "back"]⟩
        ⟨"tier", .isIn, ["back", "front"]⟩ := ⟨rfl, rfl, .of_perm (.swap ..)⟩
    refine ⟨.of_mem (by decide), .of_mem (by decide), .of_perm .rfl, rfl, ?_, ?_⟩
    · rintro r hr
      obtain rfl := List.mem_singleton.1 hr
      exact ⟨_, List.mem_singleton_self _, htier⟩
    · rintro r hr
      obtain rfl := List.mem_singleton.1 hr
      exact ⟨_, List.mem_singleton_self _, htier⟩

end SecretFanout
