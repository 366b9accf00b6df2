import SecretFanout.Copier.Basic

/-!
# Triggers

Which copiers a changed secret or a changed namespace concerns.

* `Copier.readsSecret` and `Copier.selectsNamespace` are the two tests.
* `CopierRef` names a copier; one without a name cannot be named.
* `copierRefs?_eq_some_iff`: of several copiers either all can be named or none.
-/

namespace SecretFanout

/-- A copier by name. -/
structure CopierRef where
  /-- Its name. -/
  name : String
  /-- Its namespace, if it has one. -/
  ns : Option String
  deriving DecidableEq

/-- A reference as kind, version, group and name. -/
def CopierRef.text (r : CopierRef) : String :=
  let base := Copier.kind ++ "." ++ Copier.version ++ "." ++ Copier.group ++ "/" ++ r.name
  match r.ns with
  | none => base
  | some ns => base ++ "." ++ ns

namespace Copier

/-- The reference to a copier. -/
def ref? (c : Copier) : Option CopierRef := c.metadata.name.map fun name => ⟨name, c.metadata.ns⟩

/-- Whether a secret is the source of one of the rules. -/
def readsSecret (c : Copier) (key : SecretKey) : Bool :=
  c.spec.rules.any fun r => r.isSource key

/-- Whether one of the rules selects a namespace. -/
def selectsNamespace (c : Copier) (ns : Snapshot) : Bool :=
  c.spec.rules.any fun r => r.selects ns

end Copier

/-- The copiers that a changed secret concerns. -/
def copiersForSecret (copiers : List Copier) (key : SecretKey) : List Copier :=
  copiers.filter fun c => c.readsSecret key

/-- The copiers that a changed namespace concerns. -/
def copiersForNamespace (copiers : List Copier) (ns : Snapshot) : List Copier :=
  copiers.filter fun c => c.selectsNamespace ns

/-- References to copiers, if all of them can be named. -/
def copierRefs? (copiers : List Copier) : Option (List CopierRef) := copiers.mapM Copier.ref?

theorem copierRefs?_cons (c : Copier) (rest : List Copier) :
    copierRefs? (c :: rest) = c.ref?.bind fun ref => (copierRefs? rest).map (ref :: ·) := by
  rw [copierRefs?, copierRefs?, List.mapM_cons]
  cases c.ref? <;> cases rest.mapM Copier.ref? <;> rfl

/-- The references are those of the copiers one by one. -/
theorem copierRefs?_eq_some_iff {copiers : List Copier} {refs : List CopierRef} :
    copierRefs? copiers = some refs ↔ copiers.map Copier.ref? = refs.map some := by
  induction copiers generalizing refs with
  | nil => cases refs <;> simp [copierRefs?]
  | cons c rest ih =>
    rw [copierRefs?_cons]
    cases hc : c.ref? with
    | none => cases refs <;> simp [hc]
    | some ref =>
      cases refs with
      | nil => simp
      | cons ref' refs =>
        simp only [List.map_cons, hc, Option.bind_some, Option.map_eq_some_iff, List.cons.injEq,
          Option.some.injEq]
        constructor
        · rintro ⟨refs', hrest, rfl, rfl⟩
          exact ⟨rfl, ih.1 hrest⟩
        · rintro ⟨rfl, hrest⟩
          exact ⟨refs, ih.2 hrest, rfl, rfl⟩

theorem mem_of_copierRefs? {copiers : List Copier} {refs : List CopierRef}
    (h : copierRefs? copiers = some refs) {c : Copier} (hc : c ∈ copiers) {ref : CopierRef}
    (href : c.ref? = some ref) : ref ∈ refs := by
  have hmem := List.mem_map_of_mem (f := Copier.ref?) hc
  rw [copierRefs?_eq_some_iff.1 h, href] at hmem
  simpa using hmem

/-- Copiers that have names can be referred to. -/
theorem exists_copierRefs? {copiers : List Copier} (h : ∀ c ∈ copiers, c.metadata.name.isSome) :
    ∃ refs, copierRefs? copiers = some refs := by
  induction copiers with
  | nil => exact ⟨[], rfl⟩
  | cons c rest ih =>
    obtain ⟨refs, hrefs⟩ := ih fun d hd => h d (by simp [hd])
    obtain ⟨name, hname⟩ := Option.isSome_iff_exists.1 (h c (by simp))
    exact ⟨⟨name, c.metadata.ns⟩ :: refs, by simp [copierRefs?_cons, Copier.ref?, hname, hrefs]⟩

end SecretFanout
