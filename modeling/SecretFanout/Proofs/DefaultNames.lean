import SecretFanout.Copier.Target
import SecretFanout.Proofs.Literals

/-!
# Patterns for beginnings, and the names of the system

A literal pattern with a star behind it accepts or excludes the names that start with it. The
default selector for names is one of these, and so a target that asks for no names leaves out
the namespaces of the system.

* `NameSelector.accepts_star`, `NameSelector.accepts_excluded_star` — the two selectors.
* `Target.accepts_iff_of_names`, `Target.accepts_iff_of_no_names` — a target with a selector for
  names, and one without.
* `default_names_leave_out_the_system` — all of it.
-/

namespace SecretFanout

open Glob

/-! ## One pattern -/

namespace NameSelector

variable {test : PatternTest} {pattern name : String}

/-- A selector with one pattern accepts what the pattern matches. -/
theorem acceptsBy_singleton (h : pattern.toList.head? ≠ some '!') :
    (mk [pattern]).acceptsBy test name = test pattern name := by
  have hnone : exclusion? pattern = none := exclusion?_eq_none_iff.2 h
  simp [acceptsBy, isEmpty, includes, excludes, hnone]

/-- A selector with one exclusion accepts what the excluding pattern does not match. -/
theorem acceptsBy_exclusion : (mk ["!" ++ pattern]).acceptsBy test name = !test pattern name := by
  have hsome : exclusion? ("!" ++ pattern) = some pattern := exclusion?_eq_some_iff.2 rfl
  simp [acceptsBy, isEmpty, includes, excludes, hsome]

/-- Names are accepted by what they start with. -/
theorem accepts_star (h : IsLiteral pattern) (hname : '/' ∉ name.toList) :
    (mk [pattern ++ "*"]).accepts name = true ↔ ∃ rest, name = pattern ++ rest := by
  rw [accepts, acceptsBy_singleton h.upright_star, globMatches_star h hname]

/-- Names are excluded by what they start with. -/
theorem accepts_excluded_star (h : IsLiteral pattern) (hname : '/' ∉ name.toList) :
    (mk ["!" ++ (pattern ++ "*")]).accepts name = true ↔ ¬ ∃ rest, name = pattern ++ rest := by
  rw [accepts, acceptsBy_exclusion, Bool.not_eq_true', ← Bool.not_eq_true,
    globMatches_star h hname]

end NameSelector

/-! ## Targets with and without a selector for names -/

namespace Target

variable {t : Target} {ns : Snapshot}

/-- Where names are asked for, nothing else is asked of them. -/
theorem accepts_iff_of_names (h : t.names.isEmpty = false) :
    t.accepts ns = true ↔ t.names.accepts ns.name = true ∧
      ∀ c ∈ t.otherCriteria, c.isEmpty = false → c.accepts ns = true := by
  rw [accepts, acceptsBy_iff, namesAsked, h]
  rfl

/-- Where no names are asked for, all but those of the system are taken. -/
theorem accepts_iff_of_no_names (h : t.names.isEmpty = true) (hns : '/' ∉ ns.name.toList) :
    t.accepts ns = true ↔ (¬ ∃ rest, ns.name = "kube-" ++ rest) ∧
      ∀ c ∈ t.otherCriteria, c.isEmpty = false → c.accepts ns = true := by
  have hliteral : IsLiteral "kube-" := by decide
  rw [accepts, acceptsBy_iff, namesAsked, h, ← NameSelector.accepts_excluded_star hliteral hns]
  rfl

end Target

/-- **Default names leave out the system.**  A literal pattern with a star behind it stands for the
names that start with it, as long as there is no `/` in them, and with a `!` before it for the
names that do not.

* Therefore a target that asks for no names accepts a namespace if and only if its name does not
  start with `kube-` and each other selector that asks for something accepts it.
* A target that asks for names accepts a namespace, whatever it is called, if and only if each
  selector that asks for something accepts it; to start with `kube-` makes no difference. -/
theorem default_names_leave_out_the_system :
    (∀ pattern name : String, IsLiteral pattern → '/' ∉ name.toList →
      ((NameSelector.mk [pattern ++ "*"]).accepts name = true ↔ ∃ rest, name = pattern ++ rest) ∧
      ((NameSelector.mk ["!" ++ pattern ++ "*"]).accepts name = true ↔
        ¬ ∃ rest, name = pattern ++ rest)) ∧
    (∀ (t : Target) (ns : Snapshot), t.names.isEmpty = true → '/' ∉ ns.name.toList →
      (t.accepts ns = true ↔ (¬ ∃ rest, ns.name = "kube-" ++ rest) ∧
        ∀ c ∈ [Criterion.uid t.uids, .owner t.owners, .label t.labels],
          c.isEmpty = false → c.accepts ns = true)) ∧
    ∀ (t : Target) (ns : Snapshot), t.names.isEmpty = false →
      (t.accepts ns = true ↔ t.names.accepts ns.name = true ∧
        ∀ c ∈ [Criterion.uid t.uids, .owner t.owners, .label t.labels],
          c.isEmpty = false → c.accepts ns = true) := by
  refine ⟨fun pattern name h hname => ⟨NameSelector.accepts_star h hname, ?_⟩,
    fun t ns => Target.accepts_iff_of_no_names, fun t ns => Target.accepts_iff_of_names⟩
  rw [String.append_assoc]
  exact NameSelector.accepts_excluded_star h hname

/-- A namespace of the system is left out, also where its labels are asked for and are right; it is
accepted where names that start as its own are asked for, and one of another name is accepted by
its labels. -/
theorem default_names_leave_out_kube_system :
    (Target.mk {} {} {} ⟨.ofList [("env", "prod")], []⟩).accepts
      { name := "kube-system", labels := .ofList [("env", "prod")] } = false ∧
    (Target.mk {} {} {} ⟨.ofList [("env", "prod")], []⟩).accepts
      { name := "kubernetes", labels := .ofList [("env", "prod")] } = true ∧
    (Target.mk ⟨["kube-*"]⟩ {} {} {}).accepts { name := "kube-system" } = true := by
  obtain ⟨hstars, hdefault, hasked⟩ := default_names_leave_out_the_system
  refine ⟨?_, ?_, ?_⟩
  · rw [← Bool.not_eq_true, hdefault _ _ rfl (by decide)]
    rintro ⟨hname, -⟩
    exact hname ⟨"system", rfl⟩
  · refine (hdefault _ _ rfl (by decide)).2 ⟨?_, by decide⟩
    rintro ⟨rest, hrest⟩
    have hlist := congrArg String.toList hrest
    rw [String.toList_append] at hlist
    have hstarts : "kube-".toList <+: "kubernetes".toList := ⟨rest.toList, hlist.symm⟩
    revert hstarts
    decide
  · refine (hasked _ _ rfl).2 ⟨?_, by decide⟩
    exact ((hstars "kube-" "kube-system" (by decide) (by decide)).1).2 ⟨"system", rfl⟩

end SecretFanout
