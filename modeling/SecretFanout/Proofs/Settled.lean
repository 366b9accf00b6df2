import SecretFanout.Proofs.Store
import SecretFanout.Fanout.Pass

/-!
# Settled copies

A copy is settled when a pass would leave it: its source is missing, or something stands in
its place that is not the copier's, or is current.

* `Copier.Settled`, `Copier.Converged` — one copy, and all copies that a copier is to keep.
* `settled_put_of_ne`, `settled_put_same`, `settled_put_foreign` — what becomes of a settled
  copy when a secret is written elsewhere, or in its place by its own or by another copier.
* `exists_leave_iff_settled` — a copy whose source is there is left exactly when it is
  settled.
* `Copier.Consistent` — what the rules of a copier need for all of its copies to be settled
  at once.
-/

namespace SecretFanout

namespace Copier

variable {c : Copier} {r r' : Rule} {ns ns' : String} {cl cl' : Cluster} {copy : Secret}

/-! ## One copy -/

/-- There is nothing to do about a copy: if its source is there, then so is a secret in its
place, and if that carries the mark it is current. -/
def Settled (c : Copier) (r : Rule) (ns : String) (cl : Cluster) : Prop :=
  ∀ source, cl.secrets.get? r.source = some source →
    ∃ copy, cl.secrets.get? (r.copyKey ns) = some copy ∧
      ((c.ownership r).owns copy = true → r.IsCurrent source copy)

/-- A copy depends on the secrets under two keys. -/
theorem Settled.congr (h : c.Settled r ns cl)
    (hsource : cl'.secrets.get? r.source = cl.secrets.get? r.source)
    (hcopy : cl'.secrets.get? (r.copyKey ns) = cl.secrets.get? (r.copyKey ns)) :
    c.Settled r ns cl' := by
  intro source hs
  rw [hsource] at hs
  rw [hcopy]
  exact h source hs

/-- Without its source a copy is settled. -/
theorem settled_of_missing (h : cl.secrets.get? r.source = none) : c.Settled r ns cl := by
  intro source hs
  rw [h] at hs
  cases hs

/-- A copy does not go in the place of its source. -/
theorem copyKey_ne_source (h : ns ≠ r.source.ns) : r.copyKey ns ≠ r.source :=
  fun he => h (congrArg SecretKey.ns he)

/-- A write elsewhere leaves a copy as settled as it was. -/
theorem settled_put_of_ne {key : SecretKey} (hsource : key ≠ r.source)
    (hcopy : key ≠ r.copyKey ns) (h : c.Settled r ns cl) : c.Settled r ns (cl.put key copy) := by
  refine h.congr ?_ ?_
  · rw [Cluster.get?_put, if_neg hsource.symm]
  · rw [Cluster.get?_put, if_neg hcopy.symm]

/-- A secret that this copier puts up to date for one rule settles its place for every rule:
a rule with the same mark asks for the same contents. -/
theorem settled_put_same (hr : '/' ∉ r.source.ns.toList) (hr' : '/' ∉ r'.source.ns.toList)
    (hlabels : r.sourceText = r'.sourceText → r.template.labels = r'.template.labels)
    (hsource : r.copyKey ns ≠ r'.source) (hkey : r.copyKey ns = r'.copyKey ns')
    (hmark : (c.ownership r).owns copy = true)
    (hcurrent : ∀ source, cl.secrets.get? r.source = some source → r.IsCurrent source copy) :
    c.Settled r' ns' (cl.put (r.copyKey ns) copy) := by
  intro source hs
  rw [Cluster.get?_put, if_neg hsource.symm] at hs
  rw [Cluster.get?_put, if_pos hkey.symm]
  refine ⟨_, rfl, ?_⟩
  intro hown
  have hmarks : c.ownership r = c.ownership r' := Ownership.owns_unique hmark hown
  have hsources : r.source = r'.source := source_eq_of_ownership_eq hr hr' hmarks
  have hfresh := (hcurrent source (hsources ▸ hs)).withVersion (Text.natText (cl.version + 1))
  exact hfresh.congr (hlabels (congrArg Ownership.source hmarks))

/-- Putting a copy up to date settles it. -/
theorem settled_put_self (hns : ns ≠ r.source.ns) (hr : '/' ∉ r.source.ns.toList)
    (hmark : (c.ownership r).owns copy = true)
    (hcurrent : ∀ source, cl.secrets.get? r.source = some source → r.IsCurrent source copy) :
    c.Settled r ns (cl.put (r.copyKey ns) copy) :=
  settled_put_same hr hr (fun _ => rfl) (copyKey_ne_source hns) rfl hmark hcurrent

/-- A copy in whose place another copier has written is settled: it is not this copier's. -/
theorem settled_put_foreign {d : Copier} (hname : c.name ≠ d.name)
    (hkey : r'.copyKey ns' = r.copyKey ns)
    (hmark : (d.ownership r').owns copy = true) : c.Settled r ns (cl.put (r'.copyKey ns') copy) := by
  intro source _
  rw [Cluster.get?_put, if_pos hkey.symm]
  refine ⟨_, rfl, ?_⟩
  intro hown
  have hmarks : c.ownership r = d.ownership r' := Ownership.owns_unique hown hmark
  exact absurd (congrArg Ownership.copier hmarks) hname

/-- Where something can be decided at all, the decision is to leave exactly what is settled. -/
theorem exists_leave_iff_settled {source : Secret}
    (hs : cl.secrets.get? r.source = some source) :
    (∃ outcome, c.decide r ns source (cl.secrets.get? (r.copyKey ns)) = .leave outcome) ↔
      c.Settled r ns cl := by
  constructor
  · rintro ⟨outcome, hleave⟩
    obtain ⟨old, hold, hcase⟩ := decide_eq_leave hleave
    intro source' hs'
    obtain rfl : source' = source := Option.some.inj (hs'.symm.trans hs)
    refine ⟨old, hold, ?_⟩
    rcases hcase with ⟨-, hforeign⟩ | ⟨-, -, hcurrent⟩
    · intro hown
      rw [hforeign] at hown
      cases hown
    · exact fun _ => hcurrent
  · intro hsettled
    obtain ⟨copy, hcopy, hcurrent⟩ := hsettled source hs
    cases hd : c.decide r ns source (cl.secrets.get? (r.copyKey ns)) with
    | leave outcome => exact ⟨outcome, rfl⟩
    | create new =>
      rw [(decide_eq_create_iff.1 hd).1] at hcopy
      cases hcopy
    | replace new =>
      obtain ⟨old, hold, howns, hstale, -⟩ := decide_eq_replace_iff.1 hd
      obtain rfl : copy = old := Option.some.inj (hcopy.symm.trans hold)
      exact absurd (hcurrent howns) hstale

/-! ## All copies -/

/-- Every copy that a copier is to keep in a cluster is settled. -/
def Converged (c : Copier) (cl : Cluster) : Prop :=
  ∀ r ∈ c.spec.rules, ∀ n ∈ cl.namespaces.map Namespace.snapshot, n.terminating = false →
    r.selects n = true → c.Settled r n.name cl

theorem converged_iff :
    c.Converged cl ↔
      ∀ r ns, (r, ns) ∈ c.targets (cl.namespaces.map Namespace.snapshot) → c.Settled r ns cl := by
  constructor
  · intro h r ns hmem
    obtain ⟨hr, n, hn, hactive, hsel, rfl⟩ := mem_targets.1 hmem
    exact h r hr n hn hactive hsel
  · intro h r hr n hn hactive hsel
    exact h r n.name (mem_targets.2 ⟨hr, n, hn, hactive, hsel, rfl⟩)

/-- No copy goes into the namespace of its source. -/
theorem ne_source_of_mem_targets {namespaces : List Snapshot} (h : (r, ns) ∈ c.targets namespaces) :
    ns ≠ r.source.ns := by
  obtain ⟨-, n, -, -, hsel, rfl⟩ := mem_targets.1 h
  simp only [Rule.selects, Bool.and_eq_true, bne_iff_ne] at hsel
  exact hsel.1

/-- Two rules agree about their copies: where they keep one secret from one source, they put
the same labels on it. -/
def Agree (copy copy' : Rule × String) : Prop :=
  copy.1.copyKey copy.2 = copy'.1.copyKey copy'.2 → copy.1.sourceText = copy'.1.sourceText →
    copy.1.template.labels = copy'.1.template.labels

instance (copy copy' : Rule × String) : Decidable (Agree copy copy') :=
  inferInstanceAs (Decidable (_ → _ → _))

/-- The rules of a copier do not contradict each other where there are these namespaces. -/
structure Consistent (c : Copier) (namespaces : List Snapshot) : Prop where
  /-- The namespace of a source and its name can be told apart in a mark. -/
  slash_free : ∀ r ∈ c.spec.rules, '/' ∉ r.source.ns.toList
  /-- Two rules that keep one secret from one source put the same labels on it. -/
  agree : ∀ copy ∈ c.targets namespaces, ∀ copy' ∈ c.targets namespaces, Agree copy copy'

instance (c : Copier) (namespaces : List Snapshot) : Decidable (c.Consistent namespaces) :=
  decidable_of_iff
    ((∀ r ∈ c.spec.rules, '/' ∉ r.source.ns.toList) ∧
      ∀ copy ∈ c.targets namespaces, ∀ copy' ∈ c.targets namespaces, Agree copy copy')
    ⟨fun h => ⟨h.1, h.2⟩, fun h => ⟨h.slash_free, h.agree⟩⟩

theorem Consistent.slash_free_targets {namespaces : List Snapshot} (h : c.Consistent namespaces) :
    ∀ copy ∈ c.targets namespaces, '/' ∉ copy.1.source.ns.toList :=
  fun _ hmem => h.slash_free _ (mem_targets.1 hmem).1

end Copier

end SecretFanout
