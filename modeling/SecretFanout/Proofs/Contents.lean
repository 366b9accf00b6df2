import Mathlib.Logic.Function.Basic
import SecretFanout.Proofs.Settled

/-!
# What stands in a cluster, versions aside

A cluster gives an identity and a version to each secret that it stores. Copying looks at
neither, so what copies do to each other can be told without them.

* `Secret.bare`, `Cluster.view` — a secret without what the cluster gave it, and what stands
  under each key in this sense; `View.write` puts a secret there.
* `Copier.verdict`, `Copier.synced` — the decision about one copy, and what stands in the
  cluster once it is carried out; `verdict_view` says that the decision is the one that
  `Copier.decide` makes about the secrets themselves.
* `Copier.Rests` — there is nothing to do about a copy; `rests_view_iff` says that it is then
  settled in the cluster, and `rests_synced` that this is so after it was brought up to date.
* `Copier.syncedAll` — copies brought up to date one after the other.
* `Separate`, `syncedAll_append_of_mem` — where each copy has a place of its own and none goes
  where a source is, what was done to some of the copies before does not show after all of
  them.
-/

namespace SecretFanout

/-! ## Secrets without their versions -/

/-- The secret without what the cluster gives it: its identity and its version. -/
def Secret.bare (s : Secret) : Secret :=
  { s with metadata := { s.metadata with uid := none, resourceVersion := none } }

@[simp] theorem Secret.bare_withVersion (s : Secret) (v : String) :
    (s.withVersion v).bare = s.bare := rfl

@[simp] theorem Ownership.owns_bare (o : Ownership) (s : Secret) : o.owns s.bare = o.owns s := rfl

theorem Rule.IsCurrent.bare_iff {r : Rule} {source copy : Secret} :
    r.IsCurrent source.bare copy.bare ↔ r.IsCurrent source copy :=
  ⟨fun h => ⟨h.type_eq, h.data_eq, h.labels_eq⟩, fun h => ⟨h.type_eq, h.data_eq, h.labels_eq⟩⟩

/-! ## Decisions -/

namespace Decision

/-- The same decision about a bare copy. -/
def bare : Decision → Decision
  | .create copy => .create copy.bare
  | .replace copy => .replace copy.bare
  | .leave outcome => .leave outcome

/-- The copy that is to be written. -/
def copy? : Decision → Option Secret
  | .create copy => some copy
  | .replace copy => some copy
  | .leave _ => none

theorem copy?_eq_none_iff {d : Decision} : d.copy? = none ↔ ∃ outcome, d = .leave outcome := by
  cases d <;> simp [copy?]

end Decision

/-- Versions do not matter to a decision. -/
theorem decide_bare (c : Copier) (r : Rule) (ns : String) (source : Secret)
    (found : Option Secret) :
    c.decide r ns source.bare (found.map Secret.bare) = (c.decide r ns source found).bare := by
  cases found with
  | none => rfl
  | some old =>
    have hneeds : source.bare.needsUpdate old.bare (r.copyLabels source.bare) =
        source.needsUpdate old (r.copyLabels source) := rfl
    simp only [Option.map_some, Copier.decide, Ownership.owns_bare, hneeds]
    split
    · rfl
    · split
      · rfl
      · rfl

/-! ## What stands under the keys -/

/-- What stands under each key. -/
abbrev View := SecretKey → Option Secret

/-- What stands under each key once a secret, if there is one, is put under a key. -/
def View.write (v : View) (key : SecretKey) : Option Secret → View
  | none => v
  | some secret => Function.update v key (some secret)

/-- What stands under each key of a cluster, versions aside. -/
def Cluster.view (cl : Cluster) : View := fun key => (cl.secrets.get? key).map Secret.bare

theorem Cluster.view_eq_none_iff {cl : Cluster} {key : SecretKey} :
    cl.view key = none ↔ cl.secrets.get? key = none := by
  simp [view]

/-- Storing a secret changes what stands under its key. -/
theorem Cluster.view_put (cl : Cluster) (key : SecretKey) (s : Secret) :
    (cl.put key s).view = Function.update cl.view key (some s.bare) := by
  funext k
  by_cases hk : k = key
  · subst hk
    simp [view, get?_put]
  · simp [view, get?_put, hk]

/-- Where the copy of a rule in a namespace is stored. -/
abbrev placeOf (copy : Rule × String) : SecretKey := copy.1.copyKey copy.2

namespace Copier

variable {c : Copier} {copy other : Rule × String} {v w : View} {key : SecretKey}

/-! ## One copy -/

/-- The decision about a copy from what stands under the keys. -/
def verdict (c : Copier) (copy : Rule × String) (v : View) : Decision :=
  match v copy.1.source with
  | none => .leave .sourceMissing
  | some source => c.decide copy.1 copy.2 source (v (placeOf copy))

/-- What stands under the keys once a copy is brought up to date. -/
def synced (c : Copier) (copy : Rule × String) (v : View) : View :=
  View.write v (placeOf copy) (c.verdict copy v).copy?

/-- A decision depends on what stands under two keys. -/
theorem verdict_congr (hsource : v copy.1.source = w copy.1.source)
    (hplace : v (placeOf copy) = w (placeOf copy)) : c.verdict copy v = c.verdict copy w := by
  rw [verdict, verdict, hsource, hplace]

/-- The decision about a copy in a cluster does not depend on versions. -/
theorem verdict_view (c : Copier) (copy : Rule × String) (cl : Cluster) :
    c.verdict copy cl.view = (c.verdict copy cl.secrets.get?).bare := by
  rw [verdict, verdict, Cluster.view]
  cases cl.secrets.get? copy.1.source with
  | none => rfl
  | some source => exact decide_bare c copy.1 copy.2 source _

/-- Bringing a copy up to date changes nothing outside its place. -/
theorem synced_of_ne (h : key ≠ placeOf copy) : c.synced copy v key = v key := by
  rw [synced]
  cases (c.verdict copy v).copy? with
  | none => rfl
  | some secret => exact Function.update_of_ne h _ _

theorem synced_place :
    c.synced copy v (placeOf copy) = (c.verdict copy v).copy?.or (v (placeOf copy)) := by
  rw [synced]
  cases (c.verdict copy v).copy? with
  | none => rfl
  | some secret => exact Function.update_self ..

/-- What a copy becomes depends on what stands under two keys. -/
theorem synced_congr (hsource : v copy.1.source = w copy.1.source)
    (hplace : v (placeOf copy) = w (placeOf copy)) :
    c.synced copy v (placeOf copy) = c.synced copy w (placeOf copy) := by
  rw [synced_place, synced_place, verdict_congr hsource hplace, hplace]

/-- Nothing is removed. -/
theorem synced_ne_none (h : v key ≠ none) : c.synced copy v key ≠ none := by
  by_cases hkey : key = placeOf copy
  · subst hkey
    rw [synced_place]
    cases (c.verdict copy v).copy? <;> simp [h]
  · rwa [synced_of_ne hkey]

/-! ## Copies at rest -/

/-- There is nothing to do about a copy. -/
def Rests (c : Copier) (copy : Rule × String) (v : View) : Prop := (c.verdict copy v).copy? = none

theorem Rests.synced (h : c.Rests copy v) : c.synced copy v = v := by
  rw [Copier.synced, h, View.write]

theorem Rests.congr (h : c.Rests copy v) (hsource : w copy.1.source = v copy.1.source)
    (hplace : w (placeOf copy) = v (placeOf copy)) : c.Rests copy w := by
  rwa [Rests, verdict_congr hsource hplace]

/-- Without its source a copy is at rest. -/
theorem rests_of_missing (h : v copy.1.source = none) : c.Rests copy v := by
  rw [Rests, verdict, h]
  rfl

/-- Where the source is there, a copy is at rest when a secret stands in its place that is
current if it carries the mark. -/
theorem rests_iff_of_source {source : Secret} (hs : v copy.1.source = some source) :
    c.Rests copy v ↔ ∃ old, v (placeOf copy) = some old ∧
      ((c.ownership copy.1).owns old = true → copy.1.IsCurrent source old) := by
  rw [Rests, verdict, hs]
  constructor
  · intro hnone
    obtain ⟨outcome, hleave⟩ := Decision.copy?_eq_none_iff.1 hnone
    obtain ⟨old, hold, hcase⟩ := decide_eq_leave hleave
    refine ⟨old, hold, ?_⟩
    rcases hcase with ⟨-, hforeign⟩ | ⟨-, -, hcurrent⟩
    · intro howns
      rw [hforeign] at howns
      cases howns
    · exact fun _ => hcurrent
  · rintro ⟨old, hold, hcurrent⟩
    dsimp only
    cases hd : c.decide copy.1 copy.2 source (v (placeOf copy)) with
    | leave outcome => rfl
    | create new =>
      rw [(decide_eq_create_iff.1 hd).1] at hold
      cases hold
    | replace new =>
      obtain ⟨old', hold', howns, hstale, -⟩ := decide_eq_replace_iff.1 hd
      obtain rfl : old = old' := Option.some.inj (hold.symm.trans hold')
      exact absurd (hcurrent howns) hstale

/-- A copy is at rest in what stands in a cluster when it is settled there. -/
theorem rests_view_iff {cl : Cluster} {r : Rule} {ns : String} :
    c.Rests (r, ns) cl.view ↔ c.Settled r ns cl := by
  cases hs : cl.secrets.get? r.source with
  | none =>
    have hview : cl.view r.source = none := Cluster.view_eq_none_iff.2 hs
    exact ⟨fun _ => settled_of_missing hs, fun _ => rests_of_missing hview⟩
  | some source =>
    have hview : cl.view r.source = some source.bare := by rw [Cluster.view, hs, Option.map_some]
    refine (rests_iff_of_source hview).trans ?_
    constructor
    · rintro ⟨old, hold, hcurrent⟩ source' hs'
      obtain rfl := Option.some.inj (hs.symm.trans hs')
      obtain ⟨copy, hcopy, rfl⟩ := Option.map_eq_some_iff.1 hold
      exact ⟨copy, hcopy, fun howns => Rule.IsCurrent.bare_iff.1 (hcurrent howns)⟩
    · intro hsettled
      obtain ⟨copy, hcopy, hcurrent⟩ := hsettled source hs
      refine ⟨copy.bare, by rw [Cluster.view, hcopy, Option.map_some], ?_⟩
      exact fun howns => Rule.IsCurrent.bare_iff.2 (hcurrent howns)

/-- A copy is written when the source is there, and either nothing stands in its place or one
with the mark that is not current. -/
theorem of_copy?_verdict {secret : Secret} (h : (c.verdict copy v).copy? = some secret) :
    ∃ source, v copy.1.source = some source ∧
      ((v (placeOf copy) = none ∧ c.verdict copy v = .create secret ∧
          secret = c.newCopy copy.1 copy.2 source) ∨
        ∃ old, v (placeOf copy) = some old ∧ c.verdict copy v = .replace secret ∧
          (c.ownership copy.1).owns old = true ∧ ¬ copy.1.IsCurrent source old ∧
          secret = source.refreshed old (copy.1.copyLabels source)) := by
  rw [verdict] at h ⊢
  cases hs : v copy.1.source with
  | none =>
    rw [hs] at h
    cases h
  | some source =>
    rw [hs] at h
    refine ⟨source, rfl, ?_⟩
    dsimp only at h ⊢
    cases hd : c.decide copy.1 copy.2 source (v (placeOf copy)) with
    | leave outcome =>
      rw [hd] at h
      cases h
    | create new =>
      rw [hd] at h
      obtain rfl := Option.some.inj h
      obtain ⟨hfree, hnew⟩ := decide_eq_create_iff.1 hd
      exact Or.inl ⟨hfree, rfl, hnew⟩
    | replace new =>
      rw [hd] at h
      obtain rfl := Option.some.inj h
      obtain ⟨old, hold, howns, hstale, hnew⟩ := decide_eq_replace_iff.1 hd
      exact Or.inr ⟨old, hold, rfl, howns, hstale, hnew⟩

/-- What is written carries the mark. -/
theorem owns_of_copy?_verdict {secret : Secret} (h : (c.verdict copy v).copy? = some secret) :
    (c.ownership copy.1).owns secret = true := by
  obtain ⟨source, -, ⟨-, -, rfl⟩ | ⟨old, -, -, howns, -, rfl⟩⟩ := of_copy?_verdict h
  · exact Ownership.owns_newCopy c copy.1 copy.2 source
  · exact howns

/-- What is written is current. -/
theorem isCurrent_of_copy?_verdict {source secret : Secret} (hs : v copy.1.source = some source)
    (h : (c.verdict copy v).copy? = some secret) : copy.1.IsCurrent source secret := by
  obtain ⟨source', hs', hcase⟩ := of_copy?_verdict h
  obtain rfl : source = source' := Option.some.inj (hs.symm.trans hs')
  rcases hcase with ⟨-, -, rfl⟩ | ⟨old, -, -, -, -, rfl⟩
  · exact isCurrent_newCopy c copy.1 copy.2 source
  · exact isCurrent_refreshed copy.1 source old

/-- After it was brought up to date a copy is at rest. -/
theorem rests_synced (hne : placeOf copy ≠ copy.1.source) : c.Rests copy (c.synced copy v) := by
  have hsource : c.synced copy v copy.1.source = v copy.1.source := synced_of_ne hne.symm
  cases hs : v copy.1.source with
  | none => exact rests_of_missing (hsource.trans hs)
  | some source =>
    cases hd : (c.verdict copy v).copy? with
    | none =>
      have hrests : c.Rests copy v := hd
      rwa [hrests.synced]
    | some secret =>
      have hcurrent := isCurrent_of_copy?_verdict hs hd
      refine (rests_iff_of_source (hsource.trans hs)).2 ⟨secret, ?_, fun _ => hcurrent⟩
      rw [synced_place, hd, Option.some_or]

/-! ## Copies one after the other -/

/-- What stands under the keys once copies are brought up to date one after the other. -/
def syncedAll (c : Copier) (copies : List (Rule × String)) (v : View) : View :=
  copies.foldl (fun v copy => c.synced copy v) v

variable {copies more : List (Rule × String)}

@[simp] theorem syncedAll_nil (c : Copier) (v : View) : c.syncedAll [] v = v := rfl

@[simp] theorem syncedAll_cons (c : Copier) (copy : Rule × String) (copies : List (Rule × String))
    (v : View) : c.syncedAll (copy :: copies) v = c.syncedAll copies (c.synced copy v) := rfl

theorem syncedAll_append (c : Copier) (copies more : List (Rule × String)) (v : View) :
    c.syncedAll (copies ++ more) v = c.syncedAll more (c.syncedAll copies v) :=
  List.foldl_append

/-- Nothing is changed but places of copies. -/
theorem syncedAll_of_ne (h : ∀ copy ∈ copies, key ≠ placeOf copy) :
    c.syncedAll copies v key = v key := by
  induction copies generalizing v with
  | nil => rfl
  | cons copy rest ih =>
    rw [syncedAll_cons, ih fun copy hc => h copy (by simp [hc]), synced_of_ne (h copy (by simp))]

theorem syncedAll_ne_none (h : v key ≠ none) : c.syncedAll copies v key ≠ none := by
  induction copies generalizing v with
  | nil => exact h
  | cons copy rest ih => exact ih (synced_ne_none h)

end Copier

/-! ## Copies in places of their own -/

/-- No two different rules make copies in the same place. -/
def Separate (copies : List (Rule × String)) : Prop :=
  ∀ copy ∈ copies, ∀ copy' ∈ copies, placeOf copy = placeOf copy' → copy.1 = copy'.1

instance (copies : List (Rule × String)) : Decidable (Separate copies) :=
  inferInstanceAs (Decidable (∀ _ ∈ _, ∀ _ ∈ _, _ → _))

theorem Separate.eq {copies : List (Rule × String)} (h : Separate copies)
    {copy other : Rule × String} (hcopy : copy ∈ copies) (hother : other ∈ copies)
    (hplace : placeOf copy = placeOf other) : copy = other :=
  Prod.ext (h copy hcopy other hother hplace) (congrArg SecretKey.ns hplace)

namespace Copier

variable {c : Copier} {copy : Rule × String} {v : View} {copies all : List (Rule × String)}

section Apart

variable (hseparate : Separate all)
  (hdetached : ∀ copy ∈ all, ∀ copy' ∈ all, placeOf copy ≠ copy'.1.source)
include hseparate hdetached

/-- Where no copy goes where a source is, each copy becomes what it would become by itself, and
however often it is looked at. -/
theorem syncedAll_place (hsub : ∀ copy ∈ copies, copy ∈ all) (hmem : copy ∈ copies) :
    c.syncedAll copies v (placeOf copy) = c.synced copy v (placeOf copy) := by
  induction copies generalizing v with
  | nil => cases hmem
  | cons first rest ih =>
    have hrest : ∀ copy ∈ rest, copy ∈ all := fun copy hc => hsub copy (by simp [hc])
    have hfirst : first ∈ all := hsub first (by simp)
    have hsource : c.synced first v copy.1.source = v copy.1.source :=
      synced_of_ne (hdetached first hfirst copy (hsub copy hmem)).symm
    rw [syncedAll_cons]
    by_cases hsame : placeOf copy = placeOf first
    · obtain rfl := hseparate.eq (hsub copy hmem) hfirst hsame
      have hrests : c.Rests copy (c.synced copy v) :=
        rests_synced (hdetached copy hfirst copy hfirst)
      by_cases hc : copy ∈ rest
      · rw [ih hrest hc, hrests.synced]
      · refine syncedAll_of_ne ?_
        intro other hother hplace
        exact hc (hseparate.eq hfirst (hrest other hother) hplace ▸ hother)
    · have hc : copy ∈ rest := by
        rcases List.mem_cons.1 hmem with rfl | hc
        · exact absurd rfl hsame
        · exact hc
      rw [ih hrest hc]
      exact synced_congr hsource (synced_of_ne hsame)

/-- What was done to some of the copies before does not show once all of them are looked at. -/
theorem syncedAll_append_of_mem (hsub : ∀ copy ∈ copies, copy ∈ all) :
    c.syncedAll (copies ++ all) v = c.syncedAll all v := by
  have hboth : ∀ copy ∈ copies ++ all, copy ∈ all := by
    intro copy hc
    rcases List.mem_append.1 hc with hc | hc
    · exact hsub copy hc
    · exact hc
  funext key
  -- under a key of a copy both sides have what becomes of it by itself, elsewhere nothing changes
  by_cases hkey : ∃ copy ∈ all, key = placeOf copy
  · obtain ⟨copy, hmem, rfl⟩ := hkey
    rw [syncedAll_place hseparate hdetached hboth (List.mem_append_right _ hmem),
      syncedAll_place hseparate hdetached (fun _ h => h) hmem]
  · have hne : ∀ copy ∈ all, key ≠ placeOf copy := by
      intro copy hmem hplace
      exact hkey ⟨copy, hmem, hplace⟩
    rw [syncedAll_of_ne fun copy hc => hne copy (hboth copy hc), syncedAll_of_ne hne]

end Apart

end Copier

end SecretFanout
