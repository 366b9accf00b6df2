import SecretFanout.Cluster.Direct
import SecretFanout.Proofs.Marks

/-!
# Stores with versions

What passes may assume of whatever answers their calls: a secret is only added where there
is none, it only takes the place of the version that it was sent for, and no version is
given out twice.

* `Store.Evolves` — the store goes on in any way that uses no version again; this is all
  that is known of other writers, who may create, change and delete at will.
* `Store.Conditional` — the store keeps to the conditions of its writes.
* `Store.Remembers` — a secret that was read once: whatever is stored under its version
  later is that secret; `Remembers.evolves` says that this stays so for ever.
* `Cluster.store_conditional` — a cluster is such a store, and `Change.evolves` says that
  whatever happens to it from outside uses no version again.
* `Cluster.Keyed` — secrets are stored under their own keys; this is so from the start, and
  whatever happens from outside does not change it.
* `Sample` — a small cluster and copiers for it.
-/

namespace SecretFanout

/-- Something that answers calls, with what it holds and the versions it has given out. -/
structure Store (σ : Type) where
  /-- How calls are answered. -/
  gateway : Gateway σ
  /-- What is stored under a key. -/
  stored : σ → SecretKey → Option Secret
  /-- The versions given out so far. -/
  issued : σ → String → Prop

namespace Store

variable {σ : Type} {st : Store σ} {s t u : σ}

/-- Every stored secret has a version that was given out, and no two have the same one. -/
structure Coherent (st : Store σ) (s : σ) : Prop where
  /-- What is stored has a version, and that was given out. -/
  version_issued : ∀ {key x}, st.stored s key = some x →
    ∃ v, x.metadata.resourceVersion = some v ∧ st.issued s v
  /-- One version stands under one key. -/
  version_unique : ∀ {key key' x x'}, st.stored s key = some x → st.stored s key' = some x' →
    x.metadata.resourceVersion = x'.metadata.resourceVersion → key = key'

/-- The store goes on, whoever writes: what is new in it has a version never given out
before. -/
structure Evolves (st : Store σ) (s t : σ) : Prop where
  /-- The outcome is coherent. -/
  coherent : st.Coherent t
  /-- What was given out stays given out. -/
  issued_mono : ∀ {v}, st.issued s v → st.issued t v
  /-- What is stored was there before or has a new version. -/
  fresh : ∀ {key x}, st.stored t key = some x →
    st.stored s key = some x ∨ ∀ v, x.metadata.resourceVersion = some v → ¬ st.issued s v

theorem Evolves.refl (h : st.Coherent s) : st.Evolves s s := ⟨h, id, Or.inl⟩

theorem Evolves.trans (h : st.Evolves s t) (h' : st.Evolves t u) : st.Evolves s u := by
  refine ⟨h'.coherent, fun hv => h'.issued_mono (h.issued_mono hv), ?_⟩
  intro key x hx
  rcases h'.fresh hx with hx | hnew
  · exact h.fresh hx
  · exact Or.inr fun v hv hissued => hnew v hv (h.issued_mono hissued)

/-- The store answers readings truly, keeps to the conditions of writes, and uses no
version again. A write that is turned down changes nothing, and one that is not changes
its own key only. -/
structure Conditional (st : Store σ) : Prop where
  /-- A reading finds what is stored. -/
  read_found : ∀ {s key found}, (st.gateway.read key s).1 = .ok found → found = st.stored s key
  /-- A secret is only added where there is none. -/
  create_free : ∀ {s x}, (st.gateway.create x s).1 = .ok () → st.stored s x.key = none
  /-- A secret only takes the place of the version it was sent for. -/
  replace_current : ∀ {s x}, (st.gateway.replace x s).1 = .ok () →
    ∃ old, st.stored s x.key = some old ∧
      old.metadata.resourceVersion = x.metadata.resourceVersion
  /-- Adding a secret concerns its key, if it is not turned down. -/
  create_frame : ∀ {s x key}, st.stored (st.gateway.create x s).2 key ≠ st.stored s key →
    (st.gateway.create x s).1 = .ok () ∧ key = x.key
  /-- Replacing a secret concerns its key, if it is not turned down. -/
  replace_frame : ∀ {s x key}, st.stored (st.gateway.replace x s).2 key ≠ st.stored s key →
    (st.gateway.replace x s).1 = .ok () ∧ key = x.key
  /-- Listing uses no version again, whoever writes meanwhile. -/
  list_evolves : ∀ {s}, st.Coherent s → st.Evolves s (st.gateway.list s).2
  /-- Reading uses no version again, whoever writes meanwhile. -/
  read_evolves : ∀ {s key}, st.Coherent s → st.Evolves s (st.gateway.read key s).2
  /-- Adding uses no version again. -/
  create_evolves : ∀ {s x}, st.Coherent s → st.Evolves s (st.gateway.create x s).2
  /-- Replacing uses no version again. -/
  replace_evolves : ∀ {s x}, st.Coherent s → st.Evolves s (st.gateway.replace x s).2

/-- Whichever call a program makes, no version is used again. -/
theorem Conditional.step_evolves {α : Type} (h : st.Conditional) (hs : st.Coherent s)
    (p : Program α) : st.Evolves s (p.step st.gateway s).2 := by
  cases p with
  | done a => exact Evolves.refl hs
  | list next => exact h.list_evolves hs
  | read key next => exact h.read_evolves hs
  | create x next => exact h.create_evolves hs
  | replace x next => exact h.replace_evolves hs

/-! ## What was read once -/

/-- The version of a secret was given out, and whatever is stored under it is that secret. -/
def Remembers (st : Store σ) (s : σ) (old : Secret) : Prop :=
  ∃ v, old.metadata.resourceVersion = some v ∧ st.issued s v ∧
    ∀ key x, st.stored s key = some x → x.metadata.resourceVersion = some v → x = old

/-- What is stored can be remembered. -/
theorem Coherent.remembers (h : st.Coherent s) {key : SecretKey} {old : Secret}
    (hold : st.stored s key = some old) : st.Remembers s old := by
  obtain ⟨v, hv, hissued⟩ := h.version_issued hold
  refine ⟨v, hv, hissued, ?_⟩
  intro key' x hx hxv
  have hkey : key' = key := h.version_unique hx hold (by rw [hxv, hv])
  rw [hkey, hold] at hx
  exact (Option.some.inj hx).symm

/-- A store that uses no version again never puts anything else under a version that was
read, not even where the secret was deleted and made anew. -/
theorem Remembers.evolves {old : Secret} (h : st.Remembers s old) (hst : st.Evolves s t) :
    st.Remembers t old := by
  obtain ⟨v, hv, hissued, hsame⟩ := h
  refine ⟨v, hv, hst.issued_mono hissued, ?_⟩
  intro key x hx hxv
  rcases hst.fresh hx with hx | hnew
  · exact hsame key x hx hxv
  · exact absurd hissued (hnew v hxv)

theorem Remembers.eq_of_stored {old x : Secret} (h : st.Remembers s old) {key : SecretKey}
    (hx : st.stored s key = some x)
    (hv : x.metadata.resourceVersion = old.metadata.resourceVersion) : x = old := by
  obtain ⟨v, hold, -, hsame⟩ := h
  exact hsame key x hx (by rw [hv, hold])

end Store

/-! ## Clusters -/

namespace Cluster

/-- A cluster with the versions that its counter has passed. -/
def store : Store Cluster where
  gateway := direct
  stored c key := c.secrets.get? key
  issued c v := ∃ n ≤ c.version, v = Text.natText n

@[simp] theorem store_gateway : store.gateway = direct := rfl

@[simp] theorem store_stored (c : Cluster) (key : SecretKey) :
    store.stored c key = c.secrets.get? key := rfl

theorem not_issued_next (c : Cluster) : ¬ store.issued c (Text.natText (c.version + 1)) := by
  rintro ⟨n, hn, h⟩
  have := Text.natText_inj h
  omega

/-- Only the secrets and the counter matter to the versions. -/
theorem evolves_of_eq {c d : Cluster} (h : store.Coherent c) (hs : d.secrets = c.secrets)
    (hv : c.version ≤ d.version) : store.Evolves c d := by
  have hissued : ∀ {v}, store.issued c v → store.issued d v := by
    rintro v ⟨n, hn, rfl⟩
    exact ⟨n, Nat.le_trans hn hv, rfl⟩
  have hstored : ∀ key, store.stored d key = store.stored c key := by
    intro key
    rw [store_stored, store_stored, hs]
  refine ⟨⟨?_, ?_⟩, hissued, ?_⟩
  · intro key x hx
    rw [hstored] at hx
    obtain ⟨v, hxv, hi⟩ := h.version_issued hx
    exact ⟨v, hxv, hissued hi⟩
  · intro key key' x x' hx hx'
    rw [hstored] at hx hx'
    exact h.version_unique hx hx'
  · intro key x hx
    exact Or.inl (hstored key ▸ hx)

/-- A write takes the next version. -/
theorem evolves_put {c : Cluster} (h : store.Coherent c) (key : SecretKey) (s : Secret) :
    store.Evolves c (c.put key s) := by
  have hnew := not_issued_next c
  have hstored : ∀ {k x}, store.stored (c.put key s) k = some x →
      (k = key ∧ x = s.withVersion (Text.natText (c.version + 1))) ∨
        store.stored c k = some x := by
    intro k x hx
    simp only [store, get?_put] at hx
    split at hx
    · next hk => exact Or.inl ⟨hk, (Option.some.inj hx).symm⟩
    · exact Or.inr hx
  have hmono : ∀ {v}, store.issued c v → store.issued (c.put key s) v := by
    rintro v ⟨n, hn, rfl⟩
    exact ⟨n, Nat.le_succ_of_le hn, rfl⟩
  -- an older secret cannot have the version that was only now given out
  have hold : ∀ {k x}, store.stored c k = some x →
      x.metadata.resourceVersion ≠ some (Text.natText (c.version + 1)) := by
    intro k x hx he
    obtain ⟨v, hv, hi⟩ := h.version_issued hx
    rw [he] at hv
    exact hnew (Option.some.inj hv ▸ hi)
  refine ⟨⟨?_, ?_⟩, hmono, ?_⟩
  · intro k x hx
    rcases hstored hx with ⟨-, rfl⟩ | hx
    · exact ⟨_, rfl, c.version + 1, (Nat.le_refl _), rfl⟩
    · obtain ⟨v, hv, hi⟩ := h.version_issued hx
      exact ⟨v, hv, hmono hi⟩
  · intro k k' x x' hx hx' he
    rcases hstored hx with ⟨hk, rfl⟩ | hxc
    · rcases hstored hx' with ⟨hk', rfl⟩ | hxc'
      · rw [hk, hk']
      · exact absurd he.symm (hold hxc')
    · rcases hstored hx' with ⟨hk', rfl⟩ | hxc'
      · exact absurd he (hold hxc)
      · exact h.version_unique hxc hxc' he
  · intro k x hx
    rcases hstored hx with ⟨-, rfl⟩ | hx
    · refine Or.inr fun v hv hi => hnew ?_
      exact (Option.some.inj hv).symm ▸ hi
    · exact Or.inl hx

/-- A removal gives no version out. -/
theorem evolves_erase {c : Cluster} (h : store.Coherent c) (key : SecretKey) :
    store.Evolves c { c with secrets := c.secrets.erase key } := by
  have hstored : ∀ {k x}, (c.secrets.erase key).get? k = some x → store.stored c k = some x := by
    intro k x hx
    rw [SortedMap.get?_erase] at hx
    split at hx
    · cases hx
    · exact hx
  exact ⟨⟨fun hx => h.version_issued (hstored hx),
    fun hx hx' => h.version_unique (hstored hx) (hstored hx')⟩, id, fun hx => Or.inl (hstored hx)⟩

/-- Without races a reading changes nothing. -/
theorem read_of_no_races {c : Cluster} (hraces : c.faults.races = []) (key : SecretKey) :
    (c.read key).2 = c := by
  rw [read]
  split
  · rfl
  · simp [race, hraces]

/-- A reading may let a race take place, which is a write like any other. -/
theorem evolves_read {c : Cluster} (h : store.Coherent c) (key : SecretKey) :
    store.Evolves c (c.read key).2 := by
  simp only [read]
  split
  · exact Store.Evolves.refl h
  · simp only [race]
    split
    · split
      · next s hs =>
        have hquiet := evolves_of_eq (d := { c with faults := { c.faults with
          races := c.faults.races.filter (· ≠ key) } }) h rfl (Nat.le_refl _)
        exact hquiet.trans (evolves_put hquiet.coherent key s)
      · exact evolves_of_eq h rfl (Nat.le_refl _)
    · exact Store.Evolves.refl h

theorem create_cases (c : Cluster) (key : SecretKey) (s : Secret) :
    (c.secrets.get? key = none ∧
      c.create key s = (.ok (), c.put key (withAssignedUid key s))) ∨
    ∃ fault, c.create key s = (.error fault, c) := by
  simp only [create]
  split
  · exact Or.inr ⟨_, rfl⟩
  · split
    · exact Or.inr ⟨_, rfl⟩
    · next h => exact Or.inl ⟨by simpa [SortedMap.contains] using h, rfl⟩

theorem replace_cases (c : Cluster) (key : SecretKey) (s : Secret) :
    (∃ old, c.secrets.get? key = some old ∧
      old.metadata.resourceVersion = s.metadata.resourceVersion ∧
      c.replace key s = (.ok (), c.put key s)) ∨
    ∃ fault, c.replace key s = (.error fault, c) := by
  simp only [replace]
  split
  · exact Or.inr ⟨_, rfl⟩
  · split
    · exact Or.inr ⟨_, rfl⟩
    · next old hold =>
      split
      · next hv => exact Or.inl ⟨old, hold, hv, rfl⟩
      · exact Or.inr ⟨_, rfl⟩

/-- Clusters keep to the conditions of writes. -/
theorem store_conditional : store.Conditional where
  read_found := by
    intro c key found h
    simp only [store_gateway, direct, read] at h
    split at h
    · cases h
    · exact (Except.ok.inj h).symm
  create_free := by
    intro c x h
    rcases create_cases c x.key x with ⟨hfree, -⟩ | ⟨fault, he⟩
    · exact hfree
    · simp [direct, he, reply] at h
  replace_current := by
    intro c x h
    rcases replace_cases c x.key x with ⟨old, hold, hv, -⟩ | ⟨fault, he⟩
    · exact ⟨old, hold, hv⟩
    · simp [direct, he, reply] at h
  create_frame := by
    intro c x key h
    rcases create_cases c x.key x with ⟨-, he⟩ | ⟨fault, he⟩
    · simp only [store_gateway, store_stored, direct, he, get?_put] at h
      exact ⟨by simp [direct, he, reply], Decidable.by_contra fun hk => h (if_neg hk)⟩
    · simp [direct, he] at h
  replace_frame := by
    intro c x key h
    rcases replace_cases c x.key x with ⟨-, -, -, he⟩ | ⟨fault, he⟩
    · simp only [store_gateway, store_stored, direct, he, get?_put] at h
      exact ⟨by simp [direct, he, reply], Decidable.by_contra fun hk => h (if_neg hk)⟩
    · simp [direct, he] at h
  list_evolves := fun h => Store.Evolves.refl h
  read_evolves := fun h => evolves_read h _
  create_evolves := by
    intro c x h
    rcases create_cases c x.key x with ⟨-, he⟩ | ⟨fault, he⟩
    · simpa [direct, he] using evolves_put h x.key _
    · simpa [direct, he] using Store.Evolves.refl h
  replace_evolves := by
    intro c x h
    rcases replace_cases c x.key x with ⟨-, -, -, he⟩ | ⟨fault, he⟩
    · simpa [direct, he] using evolves_put h x.key x
    · simpa [direct, he] using Store.Evolves.refl h

end Cluster

/-- Whatever happens to a cluster from outside, no version is used again. -/
theorem Change.evolves (change : Change) {c : Cluster} (h : Cluster.store.Coherent c) :
    Cluster.store.Evolves c (change.apply c) := by
  cases change with
  | putSecret s => exact Cluster.evolves_put h s.key s
  | deleteSecret key => exact Cluster.evolves_erase h key
  | putNamespace n => exact Cluster.evolves_of_eq h rfl (Nat.le_succ _)
  | deleteNamespace name =>
    simp only [Change.apply]
    split
    · exact Cluster.evolves_of_eq h rfl (Nat.le_succ _)
    · exact Store.Evolves.refl h
  | putCopier copier => exact Cluster.evolves_of_eq h rfl (Nat.le_succ _)
  | deleteCopier name => exact Cluster.evolves_of_eq h rfl (Nat.le_refl _)
  | failWrites key => exact Cluster.evolves_of_eq h rfl (Nat.le_refl _)
  | failReads key => exact Cluster.evolves_of_eq h rfl (Nat.le_refl _)
  | failListing => exact Cluster.evolves_of_eq h rfl (Nat.le_refl _)
  | clearFaults => exact Cluster.evolves_of_eq h rfl (Nat.le_refl _)
  | race key => exact Cluster.evolves_of_eq h rfl (Nat.le_refl _)

/-- A cluster that is given its namespaces and secrets is coherent. -/
theorem Cluster.start_coherent (namespaces : List Namespace) (secrets : List Secret) :
    store.Coherent (start namespaces secrets) := by
  have hempty : store.Coherent { namespaces } := ⟨fun hx => by simp at hx, fun hx => by simp at hx⟩
  rw [start]
  generalize ({ namespaces } : Cluster) = c at hempty ⊢
  induction secrets generalizing c with
  | nil => exact hempty
  | cons s rest ih => exact ih _ (Change.evolves (.putSecret s) hempty).coherent

/-! ## Secrets under their own keys -/

/-- Every secret is stored under its own key. -/
def Cluster.Keyed (c : Cluster) : Prop := ∀ key s, c.secrets.get? key = some s → s.key = key

namespace Cluster.Keyed

variable {c d : Cluster}

theorem of_eq (h : c.Keyed) (hs : d.secrets = c.secrets) : d.Keyed := by
  intro key s hx
  rw [hs] at hx
  exact h key s hx

theorem put (h : c.Keyed) {key : SecretKey} {s : Secret} (hs : s.key = key) :
    (c.put key s).Keyed := by
  intro k x hx
  rw [get?_put] at hx
  split at hx
  · next hk =>
    rw [← Option.some.inj hx, hk]
    exact hs
  · exact h k x hx

theorem erase (h : c.Keyed) (key : SecretKey) :
    Cluster.Keyed { c with secrets := c.secrets.erase key } := by
  intro k x hx
  rw [SortedMap.get?_erase] at hx
  split at hx
  · cases hx
  · exact h k x hx

/-- This stays so whatever happens to a cluster from outside. -/
theorem change (h : c.Keyed) (change : Change) : (change.apply c).Keyed := by
  cases change with
  | putSecret s => exact h.put rfl
  | deleteSecret key => exact h.erase key
  | putNamespace n => exact h.of_eq rfl
  | deleteNamespace name =>
    simp only [Change.apply]
    split
    · exact h.of_eq rfl
    · exact h
  | putCopier copier => exact h.of_eq rfl
  | deleteCopier name => exact h.of_eq rfl
  | failWrites key => exact h.of_eq rfl
  | failReads key => exact h.of_eq rfl
  | failListing => exact h.of_eq rfl
  | clearFaults => exact h.of_eq rfl
  | race key => exact h.of_eq rfl

/-- It is so in a cluster that is given its namespaces and secrets. -/
theorem start (namespaces : List Namespace) (secrets : List Secret) :
    (Cluster.start namespaces secrets).Keyed := by
  have hempty : Cluster.Keyed { namespaces } := fun key s hx => by simp at hx
  rw [Cluster.start]
  generalize ({ namespaces } : Cluster) = c at hempty ⊢
  induction secrets generalizing c with
  | nil => exact hempty
  | cons s rest ih => exact ih _ (hempty.change (.putSecret s))

end Cluster.Keyed

/-! ## A small cluster -/

namespace Sample

/-- A secret to be copied. -/
def token : Secret where
  metadata := { name := some "token", ns := some "vault" }
  type := some "Opaque"
  data := some (SortedMap.empty.insert "k" [118])

/-- A copy of it that is out of date. -/
def staleToken : Secret where
  metadata := {
    name := some "token"
    ns := some "apps"
    annotations := some (Ownership.mk "team" "vault/token").toAnnotations }

/-- The rule that copies the token everywhere. -/
def spread : Rule := { source := ⟨"vault", "token"⟩ }

/-- A rule whose source is a copy made by `spread`. -/
def echo : Rule := { source := ⟨"apps", "token"⟩, template := { name := some "echo" } }

/-- A copier with a number of rules. -/
def team (rules : List Rule) : Copier where
  metadata := { name := some "team" }
  spec := { rules }

/-- A copier that copies what `team` makes by `spread`. -/
def relay : Copier where
  metadata := { name := some "relay" }
  spec := { rules := [echo] }

/-- Three namespaces, one of them the system's, with the token and the stale copy of it. -/
def cluster : Cluster :=
  .start (["vault", "apps", "kube-system"].map fun name => { metadata := { name := some name } })
    [token, staleToken]

end Sample

end SecretFanout
