import SecretFanout.Copier.Selector
import SecretFanout.Object.Namespace

/-!
# Targets

The namespaces that a rule copies to. Each selector that is not empty has to accept the
namespace; in place of an empty name selector stand all names but those of the system,
`kube-*`.

* `Criterion` is one of the four selectors, `Target.criteria` lists them in order.
-/

namespace SecretFanout

/-- The selectors for the namespaces of a rule. -/
structure Target where
  /-- What is asked of the name. -/
  names : NameSelector := {}
  /-- What is asked of the identity. -/
  uids : UidSelector := {}
  /-- What is asked of the owners. -/
  owners : OwnerSelector := {}
  /-- What is asked of the labels. -/
  labels : LabelSelector := {}
  deriving DecidableEq

/-- One of the selectors for a namespace. -/
inductive Criterion where
  /-- A selector for its name. -/
  | name (s : NameSelector)
  /-- A selector for its identity. -/
  | uid (s : UidSelector)
  /-- A selector for its owners. -/
  | owner (s : OwnerSelector)
  /-- A selector for its labels. -/
  | label (s : LabelSelector)
  deriving DecidableEq

namespace Criterion

/-- Whether nothing is asked. -/
def isEmpty : Criterion → Bool
  | name s => s.isEmpty
  | uid s => s.isEmpty
  | owner s => s.isEmpty
  | label s => s.isEmpty

/-- Whether the selector alone accepts a namespace. -/
def acceptsBy (test : PatternTest) : Criterion → Snapshot → Bool
  | name s, ns => s.acceptsBy test ns.name
  | uid s, ns => s.accepts ns.uid
  | owner s, ns => s.accepts ns.owners
  | label s, ns => s.acceptsBy test ns.labels

/-- Whether the selector alone accepts a namespace, by glob patterns. -/
def accepts (c : Criterion) (ns : Snapshot) : Bool := c.acceptsBy globMatches ns

end Criterion

namespace Target

/-- The names taken where none are asked for: all but those of the system. -/
def defaultNames : NameSelector := ⟨["!kube-*"]⟩

/-- The selectors in the order in which they are asked. -/
def criteria (t : Target) : List Criterion :=
  [.name t.names, .uid t.uids, .owner t.owners, .label t.labels]

/-- Whether every selector that asks for something accepts a namespace, and without a
name selector the default names do. -/
def acceptsBy (test : PatternTest) (t : Target) (ns : Snapshot) : Bool :=
  (!t.names.isEmpty || defaultNames.acceptsBy test ns.name) &&
    (t.criteria.filter fun c => !c.isEmpty).all fun c => c.acceptsBy test ns

/-- The selectors beside the one for names. -/
def otherCriteria (t : Target) : List Criterion := [.uid t.uids, .owner t.owners, .label t.labels]

/-- The selector for names that is asked in the end. -/
def namesAsked (t : Target) : NameSelector := if t.names.isEmpty then defaultNames else t.names

theorem acceptsBy_iff {test : PatternTest} {t : Target} {ns : Snapshot} :
    t.acceptsBy test ns = true ↔ t.namesAsked.acceptsBy test ns.name = true ∧
      ∀ c ∈ t.otherCriteria, c.isEmpty = false → c.acceptsBy test ns = true := by
  have hall : ((t.criteria.filter fun c => !c.isEmpty).all fun c => c.acceptsBy test ns) = true ↔
      ∀ c ∈ t.criteria, c.isEmpty = false → c.acceptsBy test ns = true := by
    simp only [List.all_eq_true, List.mem_filter, Bool.not_eq_true', and_imp]
  have hcriteria : t.criteria = .name t.names :: t.otherCriteria := rfl
  rw [acceptsBy, Bool.and_eq_true, hall, hcriteria, List.forall_mem_cons, namesAsked]
  cases hnames : t.names.isEmpty <;> simp [Criterion.isEmpty, Criterion.acceptsBy, hnames]

/-- Whether a namespace is a target, by glob patterns. -/
def accepts (t : Target) (ns : Snapshot) : Bool := t.acceptsBy globMatches ns

end Target

end SecretFanout
