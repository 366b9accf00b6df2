import SecretFanout.Copier.Target
import SecretFanout.Proofs.Literals

/-!
# Selectors without globs

What selectors accept whose patterns are literal: names and label values are then compared
exactly, as they are by selectors that know no patterns.

* `LabelRequirement.IsMet`, `LabelSelector.IsMet` — a requirement and a selector for labels, with
  values compared exactly.
* `NameSelector.accepts_iff_of_literal`, `LabelSelector.accepts_iff_of_literal` — one selector.
* `literal_selectors_compare_exactly` — both at once.
-/

namespace SecretFanout

open Glob

/-! ## Names -/

namespace NameSelector

/-- A pattern for names that is literal, or is literal behind the sign for an exclusion. -/
def IsExact (pattern : String) : Prop :=
  IsLiteral pattern ∨ ∃ name, pattern = "!" ++ name ∧ IsLiteral name

/-- What includes or excludes names by such a pattern is literal itself. -/
theorem IsExact.isLiteral_of_upright {p : String} (h : IsExact p)
    (hupright : p.toList.head? ≠ some '!') : IsLiteral p := by
  rcases h with h | ⟨name, rfl, -⟩
  · exact h
  · exact absurd (by rw [String.toList_append]; rfl) hupright

theorem IsExact.isLiteral_of_excluded {name : String} (h : IsExact ("!" ++ name)) :
    IsLiteral name := by
  rcases h with h | ⟨name', heq, h⟩
  · exact absurd (by rw [String.toList_append]; rfl) h.upright
  · rwa [(String.append_right_inj "!").1 heq]

/-- Literal patterns are names that are accepted or are not. -/
theorem accepts_iff_of_literal {s : NameSelector} (h : ∀ p ∈ s.patterns, IsExact p)
    {name : String} :
    s.accepts name = true ↔ s.patterns ≠ [] ∧
      ((∃ p ∈ s.patterns, p.toList.head? ≠ some '!' ∧ name = p) ∨
        ∀ p ∈ s.patterns, p.toList.head? = some '!') ∧
      ∀ p, "!" ++ p ∈ s.patterns → name ≠ p := by
  have hincluded : (s.includes = [] ∨ ∃ p ∈ s.includes, globMatches p name = true) ↔
      ((∃ p ∈ s.patterns, p.toList.head? ≠ some '!' ∧ name = p) ∨
        ∀ p ∈ s.patterns, p.toList.head? = some '!') := by
    rw [or_comm]
    refine or_congr ⟨?_, ?_⟩ ?_
    · rintro ⟨p, hp, hmatch⟩
      obtain ⟨hmem, hupright⟩ := mem_includes_iff.1 hp
      have hliteral := (h p hmem).isLiteral_of_upright hupright
      exact ⟨p, hmem, hupright, (globMatches_literal hliteral).1 hmatch⟩
    · rintro ⟨p, hmem, hupright, rfl⟩
      have hliteral := (h name hmem).isLiteral_of_upright hupright
      exact ⟨name, mem_includes_iff.2 ⟨hmem, hupright⟩, (globMatches_literal hliteral).2 rfl⟩
    · simp only [List.eq_nil_iff_forall_not_mem, mem_includes_iff, not_and, not_not]
  have hexcluded : (∀ p ∈ s.excludes, globMatches p name = false) ↔
      ∀ p, "!" ++ p ∈ s.patterns → name ≠ p := by
    refine forall_congr' fun p => ?_
    rw [mem_excludes_iff]
    refine imp_congr_right fun hp => ?_
    rw [← Bool.not_eq_true, globMatches_literal (h _ hp).isLiteral_of_excluded]
  rw [accepts, acceptsBy_iff, hincluded, hexcluded]

end NameSelector

/-! ## Labels -/

/-- What a requirement asks of labels, with values compared exactly. -/
def LabelRequirement.IsMet (r : LabelRequirement) (labels : TextMap) : Prop :=
  match r.operator with
  | .isIn => ∃ value ∈ r.values, labels.get? r.key = some value
  | .notIn => ∀ value ∈ r.values, labels.get? r.key ≠ some value
  | .present => labels.get? r.key ≠ none
  | .absent => labels.get? r.key = none

/-- What a selector asks of labels, with values compared exactly. -/
structure LabelSelector.IsMet (s : LabelSelector) (labels : TextMap) : Prop where
  /-- The exact labels are there. -/
  exact_labels : ∀ key value, s.exact.get? key = some value → labels.get? key = some value
  /-- The requirements are met. -/
  requirements : ∀ r ∈ s.requirements, r.IsMet labels

/-- The values of a requirement that reads them are literal. -/
def LabelRequirement.IsExact (r : LabelRequirement) : Prop :=
  r.operator = .isIn ∨ r.operator = .notIn → ∀ value ∈ r.values, IsLiteral value

theorem LabelRequirement.accepts_iff_of_literal {r : LabelRequirement} (h : r.IsExact)
    {labels : TextMap} : r.acceptsBy globMatches labels = true ↔ r.IsMet labels := by
  obtain ⟨key, operator, values⟩ := r
  cases operator with
  | isIn =>
    have hvalues : ∀ value ∈ values, IsLiteral value := h (Or.inl rfl)
    cases hlabel : labels.get? key with
    | none => simp [acceptsBy, IsMet, hlabel]
    | some label =>
      simp only [acceptsBy, IsMet, hlabel, List.any_eq_true, Option.some.injEq]
      exact exists_congr fun value => and_congr_right fun hmem =>
        globMatches_literal (hvalues value hmem)
  | notIn =>
    have hvalues : ∀ value ∈ values, IsLiteral value := h (Or.inr rfl)
    cases hlabel : labels.get? key with
    | none => simp [acceptsBy, IsMet, hlabel]
    | some label =>
      simp only [acceptsBy, IsMet, hlabel, Bool.not_eq_true', List.any_eq_false, ne_eq,
        Option.some.injEq]
      exact forall₂_congr fun value hmem => not_congr (globMatches_literal (hvalues value hmem))
  | present => cases hlabel : labels.get? key <;> simp [acceptsBy, IsMet, hlabel]
  | absent => cases hlabel : labels.get? key <;> simp [acceptsBy, IsMet, hlabel]

/-- Literal values are label values that are there or are not. -/
theorem LabelSelector.accepts_iff_of_literal {s : LabelSelector}
    (h : ∀ r ∈ s.requirements, r.IsExact) {labels : TextMap} :
    s.accepts labels = true ↔ s ≠ {} ∧ s.IsMet labels := by
  rw [accepts, acceptsBy_iff, ← Bool.not_eq_true, isEmpty_iff]
  refine and_congr_right fun _ => ⟨?_, ?_⟩
  · rintro ⟨hexact, hrequirements⟩
    exact ⟨hexact, fun r hr => (r.accepts_iff_of_literal (h r hr)).1 (hrequirements r hr)⟩
  · rintro ⟨hexact, hrequirements⟩
    exact ⟨hexact, fun r hr => (r.accepts_iff_of_literal (h r hr)).2 (hrequirements r hr)⟩

/-- **Literal selectors compare exactly.**  A pattern is literal if it has none of `*`, `?`, `[`,
`{` and `\` in it and does not start with `!`.

* A selector for names, of patterns each of which is literal or is literal behind a `!`, accepts
  a name if and only if it has patterns, the name is one of those without a `!` or there are none,
  and the name is none that stands behind a `!`.
* A selector for labels whose values are literal accepts labels if and only if it asks for
  something, and all that it asks for is there, with values compared exactly. -/
theorem literal_selectors_compare_exactly :
    (∀ s : NameSelector, (∀ p ∈ s.patterns, NameSelector.IsExact p) → ∀ name,
      (s.accepts name = true ↔ s.patterns ≠ [] ∧
        ((∃ p ∈ s.patterns, p.toList.head? ≠ some '!' ∧ name = p) ∨
          ∀ p ∈ s.patterns, p.toList.head? = some '!') ∧
        ∀ p, "!" ++ p ∈ s.patterns → name ≠ p)) ∧
    ∀ s : LabelSelector, (∀ r ∈ s.requirements, r.IsExact) → ∀ labels,
      (s.accepts labels = true ↔ s ≠ {} ∧ s.IsMet labels) :=
  ⟨fun _ h _ => NameSelector.accepts_iff_of_literal h,
    fun _ h _ => LabelSelector.accepts_iff_of_literal h⟩

/-- Closing brackets and commas are literal: one such name is accepted and another is excluded,
and a label is held against such a value. -/
theorem brackets_are_compared_exactly :
    (NameSelector.mk ["tok]en", "!a]b,c"]).accepts "tok]en" = true ∧
    (NameSelector.mk ["!a]b,c"]).accepts "a]b,c" = false ∧
    (LabelSelector.mk (.ofList [("app", "web")]) [⟨"tier", .isIn, ["a,b", "c]"]⟩]).accepts
      (.ofList [("app", "web"), ("tier", "c]")]) = true := by
  obtain ⟨hnames, hlabels⟩ := literal_selectors_compare_exactly
  have hincluding : NameSelector.IsExact "tok]en" := Or.inl (by decide)
  have hexcluding : NameSelector.IsExact "!a]b,c" := Or.inr ⟨"a]b,c", by decide, by decide⟩
  refine ⟨?_, ?_, ?_⟩
  · refine (hnames _ (by simp [hincluding, hexcluding]) _).2 ⟨by simp, Or.inl ?_, ?_⟩
    · exact ⟨"tok]en", by simp, by decide, rfl⟩
    · rintro p hp rfl
      revert hp
      decide
  · rw [← Bool.not_eq_true, hnames _ (by simp [hexcluding])]
    rintro ⟨-, -, hnot⟩
    exact hnot "a]b,c" (by decide) rfl
  · refine (hlabels _ ?_ _).2 ⟨by decide, ?_, ?_⟩
    · rintro r hr - value hvalue
      obtain rfl := List.mem_singleton.1 hr
      revert value
      decide
    · intro key value hkey
      obtain ⟨rfl, rfl⟩ := Prod.mk.inj (List.mem_singleton.1 (SortedMap.get?_eq_some_iff.1 hkey))
      decide
    · rintro r hr
      obtain rfl := List.mem_singleton.1 hr
      exact ⟨"c]", by decide, by decide⟩

end SecretFanout
