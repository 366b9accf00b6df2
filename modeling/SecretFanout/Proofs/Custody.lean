import SecretFanout.Proofs.Chronicle
import SecretFanout.Proofs.Contents

/-!
# Who keeps a copy

Jobs of any copiers on one cluster, with no other writer. A copy belongs to the copier that has
made it and to the source that it was made from, from then on.

* `Secret.SameKeeper` — two versions of a secret have the same annotations and owners.
* `Cluster.Keeps` — a cluster goes on without a secret being lost or given to another keeper.
* `Copier.Abstains` — what comes of a copy that is left alone.
* `Copier.Faithful` — what a job has written down, and has read, is borne out by the cluster;
  `Faithful.effect` says what a call can do to the cluster, `Faithful.step` that it stays faithful.
* `copies_stay_with_their_keeper` — only the copier that has made a copy, and only by a rule with
  the same source, ever writes it again.
-/

namespace SecretFanout

/-! ## Keepers -/

/-- Two versions of a secret have the same annotations and the same owners. -/
structure Secret.SameKeeper (old new : Secret) : Prop where
  /-- The annotations are the same, the mark among them. -/
  annotations_eq : new.metadata.annotations = old.metadata.annotations
  /-- The owners are the same. -/
  owners_eq : new.metadata.ownerReferences = old.metadata.ownerReferences

namespace Secret.SameKeeper

theorem refl (x : Secret) : x.SameKeeper x := ⟨rfl, rfl⟩

theorem trans {x y z : Secret} (h : x.SameKeeper y) (h' : y.SameKeeper z) : x.SameKeeper z :=
  ⟨h'.annotations_eq.trans h.annotations_eq, h'.owners_eq.trans h.owners_eq⟩

/-- Both carry the same mark. -/
theorem owns_eq {x y : Secret} (h : x.SameKeeper y) (o : Ownership) : o.owns y = o.owns x := by
  rw [Ownership.owns, Ownership.owns, Ownership.ofSecret?, Ownership.ofSecret?, h.annotations_eq]

end Secret.SameKeeper

namespace Cluster

/-- A cluster goes on without losing a secret: each stays with its keeper, and what is set to go
wrong stays so. -/
structure Keeps (cl cl' : Cluster) : Prop where
  /-- No version is used again. -/
  evolves : store.Evolves cl cl'
  /-- What is set to go wrong stays so. -/
  faults_eq : cl'.faults = cl.faults
  /-- Secrets stay with their keepers. -/
  kept : ∀ {key x}, cl.secrets.get? key = some x →
    ∃ x', cl'.secrets.get? key = some x' ∧ x.SameKeeper x'

variable {cl cl' cl'' : Cluster}

theorem Keeps.refl (h : store.Coherent cl) : cl.Keeps cl :=
  ⟨.refl h, rfl, fun {_ x} hx => ⟨x, hx, .refl x⟩⟩

theorem Keeps.trans (h : cl.Keeps cl') (h' : cl'.Keeps cl'') : cl.Keeps cl'' := by
  refine ⟨h.evolves.trans h'.evolves, h'.faults_eq.trans h.faults_eq, ?_⟩
  intro key x hx
  obtain ⟨x', hx', hsame⟩ := h.kept hx
  obtain ⟨x'', hx'', hsame'⟩ := h'.kept hx'
  exact ⟨x'', hx'', hsame.trans hsame'⟩

/-- A secret stored where nothing is, or where a version with the same keeper is. -/
theorem Keeps.put (h : store.Coherent cl) {key : SecretKey} {s : Secret}
    (hplace : ∀ x, cl.secrets.get? key = some x → x.SameKeeper s) : cl.Keeps (cl.put key s) := by
  refine ⟨evolves_put h key s, rfl, ?_⟩
  intro k x hx
  rw [get?_put]
  split
  · next hk =>
    obtain ⟨ha, ho⟩ := hplace x (hk ▸ hx)
    exact ⟨_, rfl, ha, ho⟩
  · exact ⟨x, hx, .refl x⟩

/-- Without races a call that is no write leaves the cluster as it is. -/
theorem step_eq_of_no_write {α : Type} (hraces : cl.faults.races = []) {p : Program α}
    (hp : p.write? = none) : (p.step direct cl).2 = cl := by
  cases p with
  | done a => rfl
  | list next => rfl
  | read key next => exact read_of_no_races hraces key
  | create x next => cases hp
  | replace x next => cases hp

/-- Only keys that are set to go wrong cannot be read. -/
theorem direct_read_error {key : SecretKey} {e : SyncError}
    (h : (direct.read key cl).1 = .error e) :
    key ∈ cl.faults.reads ∧ e = .reading key (.store .timeout) := by
  unfold direct at h
  simp only [read] at h
  split at h
  · next hkey =>
    cases h
    exact ⟨hkey, rfl⟩
  · cases h

/-- A secret that is added is stored under its own key. -/
theorem direct_create_ok {x : Secret} (h : (direct.create x cl).1 = .ok ()) :
    (direct.create x cl).2 = cl.put x.key (withAssignedUid x.key x) := by
  rcases create_cases cl x.key x with ⟨-, hcreate⟩ | ⟨fault, hcreate⟩
  · simp [direct, hcreate]
  · simp [direct, hcreate, reply] at h

/-- A secret that cannot be added is turned down under its own key. -/
theorem direct_create_error {x : Secret} {e : SyncError}
    (h : (direct.create x cl).1 = .error e) : ∃ cause, e = .writing .create x.key cause := by
  rcases create_cases cl x.key x with ⟨-, hcreate⟩ | ⟨fault, hcreate⟩
  · simp [direct, hcreate, reply] at h
  · simp only [direct, hcreate, reply] at h
    cases h
    exact ⟨_, rfl⟩

end Cluster

/-! ## What jobs have written down -/

namespace Copier

variable {c : Copier} {cl cl' : Cluster} {copy : Rule × String} {told : Chronicle} {stage : Stage}
  {p : Program Chronicle}

/-- What comes of a copy that is left alone: it is not the copier's, or has no source, or is
turned down when it is to be added. Otherwise a key could not be read. -/
inductive Abstains (unreadable : List SecretKey) (copy : Rule × String) : Reply Outcome → Prop
  /-- A secret without the mark stands in its place. -/
  | notManaged : Abstains unreadable copy (.ok .notManaged)
  /-- There is no source. -/
  | sourceMissing : Abstains unreadable copy (.ok .sourceMissing)
  /-- It was not added. -/
  | rejected (cause : Cause) :
    Abstains unreadable copy (.error (.writing .create (placeOf copy) cause))
  /-- A key could not be read. -/
  | unread {key : SecretKey} (h : key ∈ unreadable) (cause : Cause) :
    Abstains unreadable copy (.error (.reading key cause))

/-- The secret in the place of a copy carries the mark of the copier and of the rule. -/
def Marked (c : Copier) (cl : Cluster) (copy : Rule × String) : Prop :=
  copy.1 ∈ c.spec.rules ∧
    ∃ x, cl.secrets.get? (placeOf copy) = some x ∧ (c.ownership copy.1).owns x = true

theorem Marked.keeps (h : c.Marked cl copy) (hkeeps : cl.Keeps cl') : c.Marked cl' copy := by
  obtain ⟨hrule, x, hx, howns⟩ := h
  obtain ⟨x', hx', hsame⟩ := hkeeps.kept hx
  exact ⟨hrule, x', hx', (hsame.owns_eq _).trans howns⟩

/-- A new copy that was added carries its mark. -/
theorem marked_of_created {source : Secret} (hrule : copy.1 ∈ c.spec.rules)
    (h : (Cluster.direct.create (c.newCopy copy.1 copy.2 source) cl).1 = .ok ()) :
    c.Marked (Cluster.direct.create (c.newCopy copy.1 copy.2 source) cl).2 copy := by
  refine ⟨hrule, Secret.withVersion (Cluster.withAssignedUid (placeOf copy)
    (c.newCopy copy.1 copy.2 source)) (Text.natText (cl.version + 1)), ?_, ?_⟩
  · rw [Cluster.direct_create_ok h, Cluster.get?_put]
    exact if_pos rfl
  · simp

/-- What a job has written down and read is borne out by the cluster: each copy was left alone or
carries its mark, and what was found in the place of the present one is remembered and has kept
its keeper. -/
structure Faithful (c : Copier) (cl : Cluster) (told : Chronicle) (stage : Stage) : Prop where
  /-- Each copy was left alone or carries its mark. -/
  lines : ∀ line ∈ told, c.Marked cl line.1 ∨ Abstains cl.faults.reads line.1 line.2
  /-- What was found in a copy's place is remembered, and its keeper still has the place. -/
  found : ∀ copy source old next, stage = .write copy source (some old) next →
    Cluster.store.Remembers cl old ∧
      ∃ x, cl.secrets.get? (placeOf copy) = some x ∧ old.SameKeeper x

theorem Faithful.keeps (h : c.Faithful cl told stage) (hkeeps : cl.Keeps cl') :
    c.Faithful cl' told stage := by
  refine ⟨?_, ?_⟩
  · intro line hline
    rw [hkeeps.faults_eq]
    exact (h.lines line hline).imp_left fun hmarked => hmarked.keeps hkeeps
  · intro copy source old next hstage
    obtain ⟨hremembers, x, hx, hsame⟩ := h.found copy source old next hstage
    obtain ⟨x', hx', hsame'⟩ := hkeeps.kept hx
    exact ⟨hremembers.evolves hkeeps.evolves, x', hx', hsame.trans hsame'⟩

/-- What the next call of a job can do to a cluster. -/
inductive Effect (c : Copier) (p : Program Chronicle) (cl : Cluster) : Cluster → Prop
  /-- Nothing. -/
  | none : Effect c p cl cl
  /-- A secret is added where there is none. -/
  | add {x : Secret} (hwrite : p.write? = some (.create x))
    (hfree : cl.secrets.get? x.key = Option.none) :
    Effect c p cl (cl.put x.key (Cluster.withAssignedUid x.key x))
  /-- A copy that stands there with the mark of a rule is written again. -/
  | renew {r : Rule} {source old : Secret} (hrule : r ∈ c.spec.rules)
    (hwrite : p.write? = some (.replace (source.refreshed old (r.copyLabels source))))
    (hold : cl.secrets.get? old.key = some old) (howns : (c.ownership r).owns old = true) :
    Effect c p cl (cl.put old.key (source.refreshed old (r.copyLabels source)))

/-- Every call of a faithful job has one of these effects. -/
theorem Faithful.effect (h : c.Faithful cl told stage) (hstands : c.Stands told stage p)
    (hraces : cl.faults.races = []) : c.Effect p cl (p.step Cluster.direct cl).2 := by
  cases hwrite : p.write? with
  | none =>
    rw [Cluster.step_eq_of_no_write hraces hwrite]
    exact .none
  | some d =>
    obtain ⟨copy, source, found, next, rfl, hrule, hdecide, hp⟩ := hstands.decided hwrite
    cases d with
    | leave outcome => cases p <;> cases hwrite
    | create x =>
      have hstep : (p.step Cluster.direct cl).2 = (cl.create x.key x).2 := by
        rw [hp]
        rfl
      rw [hstep]
      rcases Cluster.create_cases cl x.key x with ⟨hfree, hcreate⟩ | ⟨fault, hcreate⟩
      · rw [hcreate]
        exact .add hwrite hfree
      · rw [hcreate]
        exact .none
    | replace x =>
      obtain ⟨old, rfl, howns, -, rfl⟩ := decide_eq_replace_iff.1 hdecide
      have hstep : (p.step Cluster.direct cl).2 =
          (cl.replace old.key (source.refreshed old (copy.1.copyLabels source))).2 := by
        rw [hp]
        rfl
      rw [hstep]
      rcases Cluster.replace_cases cl old.key (source.refreshed old (copy.1.copyLabels source)) with
        ⟨stored, hstored, hv, hreplace⟩ | ⟨fault, hreplace⟩
      · -- what is stored under the version that was read is what was read
        obtain ⟨hremembers, -⟩ := h.found copy source old next rfl
        have hsame : stored = old := hremembers.eq_of_stored hstored hv
        rw [hreplace]
        exact .renew hrule hwrite (hsame ▸ hstored) howns
      · rw [hreplace]
        exact .none

/-- With each effect every secret stays with its keeper. -/
theorem Effect.keeps (h : c.Effect p cl cl') (hs : Cluster.store.Coherent cl) : cl.Keeps cl' := by
  cases h with
  | none => exact .refl hs
  | add hwrite hfree =>
    refine .put hs ?_
    intro x hx
    rw [hfree] at hx
    cases hx
  | renew hrule hwrite hold howns =>
    refine .put hs ?_
    intro x hx
    obtain rfl := Option.some.inj (hold.symm.trans hx)
    exact ⟨rfl, rfl⟩

/-- A secret is only changed by being written again under the mark of the copier and a rule. -/
theorem Effect.changed (h : c.Effect p cl cl') {key : SecretKey} {x : Secret}
    (hx : cl.secrets.get? key = some x) (hchanged : cl'.secrets.get? key ≠ some x) :
    ∃ r ∈ c.spec.rules, (c.ownership r).owns x = true ∧
      ∃ source : Secret, p.write? = some (.replace (source.refreshed x (r.copyLabels source))) := by
  cases h with
  | none => exact absurd hx hchanged
  | @add y hwrite hfree =>
    rw [Cluster.get?_put] at hchanged
    split at hchanged
    · next hkey =>
      rw [hkey, hfree] at hx
      cases hx
    · exact absurd hx hchanged
  | @renew r source old hrule hwrite hold howns =>
    rw [Cluster.get?_put] at hchanged
    split at hchanged
    · next hkey =>
      rw [hkey, hold] at hx
      obtain rfl := Option.some.inj hx
      exact ⟨r, hrule, howns, source, hwrite⟩
    · exact absurd hx hchanged

/-- A copy is written down truly. -/
theorem Faithful.add {news : Chronicle} {stage' : Stage} (h : c.Faithful cl told stage)
    (hkeeps : cl.Keeps cl')
    (hnews : ∀ line ∈ news, c.Marked cl' line.1 ∨ Abstains cl.faults.reads line.1 line.2)
    (hfound : ∀ copy source old next, stage' = .write copy source (some old) next →
      Cluster.store.Remembers cl old ∧ cl.secrets.get? (placeOf copy) = some old) :
    c.Faithful cl' (told ++ news) stage' := by
  refine ⟨?_, ?_⟩
  · intro line hline
    rcases List.mem_append.1 hline with hline | hline
    · exact (h.keeps hkeeps).lines line hline
    · rw [hkeeps.faults_eq]
      exact hnews line hline
  · intro copy source old next hstage
    obtain ⟨hremembers, hold⟩ := hfound copy source old next hstage
    obtain ⟨x, hx, hsame⟩ := hkeeps.kept hold
    exact ⟨hremembers.evolves hkeeps.evolves, x, hx, hsame⟩

/-- What a job writes down by a call is borne out by the cluster too. -/
theorem Faithful.step (h : c.Faithful cl told stage) (hstands : c.Stands told stage p)
    (hs : Cluster.store.Coherent cl) (hraces : cl.faults.races = []) :
    ∃ told' stage', c.Stands told' stage' (p.step Cluster.direct cl).1 ∧
      c.Faithful (p.step Cluster.direct cl).2 told' stage' := by
  have hkeeps := (h.effect hstands hraces).keeps hs
  obtain ⟨news, stage', hleads, hstands'⟩ := hstands.step Cluster.direct cl
  refine ⟨told ++ news, stage', hstands', h.add hkeeps ?_ ?_⟩
  · intro line hline
    cases hleads with
    | idle => cases hline
    | @unsourced copy next reply hrule hp hnext hread =>
      obtain rfl := List.mem_singleton.1 hline
      rcases hread with ⟨-, rfl⟩ | ⟨e, herror, rfl⟩
      · exact Or.inr .sourceMissing
      · obtain ⟨hkey, rfl⟩ := Cluster.direct_read_error herror
        exact Or.inr (.unread hkey _)
    | opened => cases hline
    | unplaced hnext hread =>
      obtain rfl := List.mem_singleton.1 hline
      obtain ⟨hkey, rfl⟩ := Cluster.direct_read_error hread
      exact Or.inr (.unread hkey _)
    | @left copy source next found outcome hrule hnext hread hdecide =>
      obtain rfl := List.mem_singleton.1 hline
      obtain ⟨old, rfl, ⟨rfl, -⟩ | ⟨rfl, howns, -⟩⟩ := decide_eq_leave hdecide
      · exact Or.inr .notManaged
      · have hmarked : c.Marked cl copy :=
          ⟨hrule, old, (Cluster.store_conditional.read_found hread).symm, howns⟩
        exact Or.inl (hmarked.keeps hkeeps)
    | placed => cases hline
    | @made copy source next found x hrule hdecide hp hnext =>
      obtain rfl := List.mem_singleton.1 hline
      obtain ⟨-, rfl⟩ := decide_eq_create_iff.1 hdecide
      have hstep : (p.step Cluster.direct cl).2 =
          (Cluster.direct.create (c.newCopy copy.1 copy.2 source) cl).2 := by
        rw [hp]
        rfl
      cases hcreate : (Cluster.direct.create (c.newCopy copy.1 copy.2 source) cl).1 with
      | error e =>
        obtain ⟨cause, rfl⟩ := Cluster.direct_create_error hcreate
        exact Or.inr (.rejected cause)
      | ok u =>
        rw [hstep]
        exact Or.inl (marked_of_created hrule hcreate)
    | @renewed copy source next found x hrule hdecide hp hnext =>
      obtain rfl := List.mem_singleton.1 hline
      obtain ⟨old, rfl, howns, -, -⟩ := decide_eq_replace_iff.1 hdecide
      obtain ⟨-, y, hy, hsame⟩ := h.found copy source old next rfl
      have hmarked : c.Marked cl copy := ⟨hrule, y, hy, (hsame.owns_eq _).trans howns⟩
      exact Or.inl (hmarked.keeps hkeeps)
  · intro copy source old next hstage
    cases hleads with
    | placed hread hdue hnext =>
      cases hstage
      have hold := (Cluster.store_conditional.read_found hread).symm
      exact ⟨hs.remembers hold, hold⟩
    | _ => cases hstage

end Copier

/-! ## Jobs side by side -/

variable {ι : Type} [DecidableEq ι] {copier : ι → Copier}

/-- Each job stands somewhere in its copies, and what it has written down and read is borne out by
the cluster. -/
def AllFaithful (copier : ι → Copier) (now : Traffic Cluster ι Chronicle) : Prop :=
  ∀ i, ∃ told stage, (copier i).Stands told stage (now.programs i) ∧
    (copier i).Faithful now.state told stage

/-- Wherever jobs without other writers come to, they are faithful, and every secret has stayed
with its keeper. -/
theorem faithful_of_reachable {start now : Traffic Cluster ι Chronicle}
    (hstart : Cluster.store.Coherent start.state) (hraces : start.state.faults.races = [])
    (hfaithful : AllFaithful copier start)
    (h : Traffic.Reachable Cluster.direct (fun _ _ => False) start now) :
    start.state.Keeps now.state ∧ AllFaithful copier now := by
  refine Traffic.invariant (fun cl => start.state.Keeps cl)
    (fun i p cl => ∃ told stage, (copier i).Stands told stage p ∧
      (copier i).Faithful cl told stage) Cluster.Keeps ?_ ?_ ?_ ?_ (.refl hstart) hfaithful h
  · intro cl cl' _ hother
    exact hother.elim
  · rintro i p cl hcl ⟨told, stage, hstands, hlocal⟩
    have hquiet : cl.faults.races = [] := by rw [hcl.faults_eq, hraces]
    exact ⟨(hlocal.effect hstands hquiet).keeps hcl.evolves.coherent,
      hlocal.step hstands hcl.evolves.coherent hquiet⟩
  · intro cl cl' hcl hkeeps
    exact hcl.trans hkeeps
  · rintro i p cl cl' _ hkeeps ⟨told, stage, hstands, hlocal⟩
    exact ⟨told, stage, hstands, hlocal.keeps hkeeps⟩

omit [DecidableEq ι] in
/-- At the start no job has written anything down. -/
theorem faithful_of_toldPasses (passes : ι → Nat) (cl : Cluster) :
    AllFaithful copier ⟨cl, fun i => (copier i).toldPasses (passes i) []⟩ := by
  intro i
  refine ⟨[], .between, .between (Copier.tells_toldPasses _ _), ?_, ?_⟩
  · simp
  · intro copy source old next hstage
    cases hstage

section Keepers

variable {i j : ι} {r : Rule} {key : SecretKey} {x : Secret} {now : Traffic Cluster ι Chronicle}

omit [DecidableEq ι] in
/-- A secret carries the marks of one copier and one source at most. -/
theorem keeper_unique (hnames : ∀ i j, (copier i).name = (copier j).name → copier i = copier j)
    (hslash : ∀ i, ∀ r ∈ (copier i).spec.rules, '/' ∉ r.source.ns.toList) {r' : Rule}
    (hr : r ∈ (copier i).spec.rules) (hr' : r' ∈ (copier j).spec.rules)
    (h : ((copier i).ownership r).owns x = true) (h' : ((copier j).ownership r').owns x = true) :
    copier j = copier i ∧ r'.source = r.source := by
  have hmark : (copier j).ownership r' = (copier i).ownership r := Ownership.owns_unique h' h
  exact ⟨hnames j i (congrArg Ownership.copier hmark),
    SecretKey.text_injective (hslash j r' hr') (hslash i r hr) (congrArg Ownership.source hmark)⟩

/-- Only a job for the keeper of a secret changes it, by a rule with the same source. -/
theorem changed_by_keeper
    (hnames : ∀ i j, (copier i).name = (copier j).name → copier i = copier j)
    (hslash : ∀ i, ∀ r ∈ (copier i).spec.rules, '/' ∉ r.source.ns.toList)
    (hfaithful : AllFaithful copier now) (hraces : now.state.faults.races = [])
    (hx : now.state.secrets.get? key = some x) (hr : r ∈ (copier i).spec.rules)
    (howns : ((copier i).ownership r).owns x = true)
    (hchanged : (now.call Cluster.direct j).state.secrets.get? key ≠ some x) :
    copier j = copier i ∧ ∃ r' ∈ (copier j).spec.rules, r'.source = r.source ∧
      ∃ source : Secret, (now.programs j).write? =
        some (.replace (source.refreshed x (r'.copyLabels source))) := by
  obtain ⟨told, stage, hstands, hlocal⟩ := hfaithful j
  obtain ⟨r', hr', howns', source, hwrite⟩ := (hlocal.effect hstands hraces).changed hx hchanged
  obtain ⟨hcopier, hsource⟩ := keeper_unique hnames hslash hr hr' howns howns'
  exact ⟨hcopier, r', hr', hsource, source, hwrite⟩

omit [DecidableEq ι] in
/-- All other jobs have left the secret alone. -/
theorem others_abstain
    (hnames : ∀ i j, (copier i).name = (copier j).name → copier i = copier j)
    (hslash : ∀ i, ∀ r ∈ (copier i).spec.rules, '/' ∉ r.source.ns.toList)
    (hfaithful : AllFaithful copier now) (hx : now.state.secrets.get? key = some x)
    (hr : r ∈ (copier i).spec.rules) (howns : ((copier i).ownership r).owns x = true)
    {log : Chronicle} (hdone : now.programs j = .done log) {line : (Rule × String) × Reply Outcome}
    (hline : line ∈ log) (hplace : placeOf line.1 = key)
    (hforeign : copier j ≠ copier i ∨ line.1.1.source ≠ r.source) :
    Copier.Abstains now.state.faults.reads line.1 line.2 := by
  obtain ⟨told, stage, hstands, hlocal⟩ := hfaithful j
  rw [hdone] at hstands
  obtain ⟨-, rfl⟩ := hstands.eq_of_done
  rcases hlocal.lines line hline with ⟨hr', y, hy, howns'⟩ | habstains
  · rw [hplace, hx] at hy
    obtain rfl := Option.some.inj hy
    obtain ⟨hcopier, hsource⟩ := keeper_unique hnames hslash hr hr' howns howns'
    exact absurd hforeign (by simp [hcopier, hsource])
  · exact habstains

end Keepers

/-- **Copies stay with their keeper.**  Let any number of jobs make passes, a number of them one
after the other each, for copiers with names of their own, whose sources have no slash in their
namespaces; and let nobody else write to the cluster. Once the cluster accepts a copy that a job
adds, the copy is a new copy by a rule of its copier, and from then on, wherever the jobs come to:

* There is a secret in its place with the same annotations and the same owners.
* A call that changes this secret in any way is one by a job for the same copier, which writes it
  again by a rule with the same source.
* Every line about that place in the chronicle of a job for another copier, or by a rule with
  another source, says that the copy was left alone. -/
theorem copies_stay_with_their_keeper (copier : ι → Copier) (passes : ι → Nat)
    (hnames : ∀ i j, (copier i).name = (copier j).name → copier i = copier j)
    (hslash : ∀ i, ∀ r ∈ (copier i).spec.rules, '/' ∉ r.source.ns.toList)
    {start : Cluster} (hstart : Cluster.store.Coherent start) (hraces : start.faults.races = [])
    {mid : Traffic Cluster ι Chronicle}
    (hmid : Traffic.Reachable Cluster.direct (fun _ _ => False)
      ⟨start, fun i => (copier i).toldPasses (passes i) []⟩ mid)
    {i : ι} {copy : Secret} (hcreate : (mid.programs i).write? = some (.create copy))
    (haccepted : (Cluster.direct.create copy mid.state).1 = .ok ()) :
    ∃ r ∈ (copier i).spec.rules, ∃ ns source, copy = (copier i).newCopy r ns source ∧
      ∀ now, Traffic.Reachable Cluster.direct (fun _ _ => False) (mid.call Cluster.direct i) now →
        ∃ x, now.state.secrets.get? copy.key = some x ∧
          x.metadata.annotations = copy.metadata.annotations ∧
          x.metadata.ownerReferences = copy.metadata.ownerReferences ∧
          (∀ j, (now.call Cluster.direct j).state.secrets.get? copy.key ≠ some x →
            copier j = copier i ∧ ∃ r' ∈ (copier j).spec.rules, r'.source = r.source ∧
              ∃ source : Secret, (now.programs j).write? =
                some (.replace (source.refreshed x (r'.copyLabels source)))) ∧
          ∀ j told, now.programs j = .done told → ∀ line ∈ told, placeOf line.1 = copy.key →
            copier j ≠ copier i ∨ line.1.1.source ≠ r.source →
            Copier.Abstains start.faults.reads line.1 line.2 := by
  have hinit : AllFaithful copier ⟨start, fun i => (copier i).toldPasses (passes i) []⟩ :=
    faithful_of_toldPasses passes start
  obtain ⟨-, hmidFaithful⟩ := faithful_of_reachable hstart hraces hinit hmid
  obtain ⟨told, stage, hstands, -⟩ := hmidFaithful i
  obtain ⟨target, source, found, next, -, hrule, hdecide, hp⟩ := hstands.decided hcreate
  obtain ⟨-, rfl⟩ := decide_eq_create_iff.1 hdecide
  refine ⟨target.1, hrule, target.2, source, rfl, ?_⟩
  intro now hnow
  -- once from the start to the moment the copy is there, and once from that moment on
  obtain ⟨hmade, hmadeFaithful⟩ := faithful_of_reachable hstart hraces hinit
    (hmid.tail (Traffic.step_call mid i))
  obtain ⟨hkept, hnowFaithful⟩ := faithful_of_reachable hmade.evolves.coherent
    (by rw [hmade.faults_eq, hraces]) hmadeFaithful hnow
  have hfaults : now.state.faults = start.faults := hkept.faults_eq.trans hmade.faults_eq
  have hquiet : now.state.faults.races = [] := by rw [hfaults, hraces]
  have hstate : (mid.call Cluster.direct i).state =
      (Cluster.direct.create ((copier i).newCopy target.1 target.2 source) mid.state).2 := by
    rw [Traffic.call, hp]
    rfl
  obtain ⟨x, hx, hsame⟩ := hkept.kept (by
    rw [hstate, Cluster.direct_create_ok haccepted, Cluster.get?_put, if_pos rfl])
  have howns : ((copier i).ownership target.1).owns x = true := by
    rw [hsame.owns_eq]
    simp
  refine ⟨x, hx, hsame.annotations_eq, hsame.owners_eq, ?_, ?_⟩
  · intro j hchanged
    exact changed_by_keeper hnames hslash hnowFaithful hquiet hx hrule howns hchanged
  · intro j told hdone line hline hplace hforeign
    rw [← hfaults]
    exact others_abstain hnames hslash hnowFaithful hx hrule howns hdone hline hplace hforeign

namespace Sample

/-- The token and a namespace that it is to be copied to. -/
def vacant : Cluster :=
  .start (["vault", "apps"].map fun name => { metadata := { name := some name } }) [token]

/-- Two copiers that copy the token to one place. -/
def rivals : Bool → Copier
  | true => team [spread]
  | false => { team [spread] with metadata := { name := some "rival" } }

/-- Two passes side by side, both of which have found the place empty. -/
def race : Traffic Cluster Bool Chronicle :=
  [true, false, true, false, true, false].foldl (Traffic.call Cluster.direct)
    ⟨vacant, fun i => (rivals i).toldPasses 1 []⟩

end Sample

/-- Of two copiers that have found a place empty, the first one to add its copy keeps the place;
the other one is turned away. -/
theorem rival_is_turned_away :
    ∃ x reply,
      ((Sample.race.call Cluster.direct true).call Cluster.direct false).state.secrets.get?
        ⟨"apps", "token"⟩ = some x ∧
      x.metadata.annotations = some (Ownership.mk "team" "vault/token").toAnnotations ∧
      ((Sample.race.call Cluster.direct true).call Cluster.direct false).programs false =
        .done [((Sample.spread, "apps"), reply)] ∧
      Copier.Abstains [] (Sample.spread, "apps") reply := by
  have hmid : Traffic.Reachable Cluster.direct (fun _ _ => False)
      ⟨Sample.vacant, fun i => (Sample.rivals i).toldPasses 1 []⟩ Sample.race :=
    (((((Relation.ReflTransGen.single (Traffic.step_call _ true)).tail
      (Traffic.step_call _ false)).tail (Traffic.step_call _ true)).tail
      (Traffic.step_call _ false)).tail (Traffic.step_call _ true)).tail
      (Traffic.step_call _ false)
  have hnames : ∀ i j, (Sample.rivals i).name = (Sample.rivals j).name →
      Sample.rivals i = Sample.rivals j := by
    rintro (_ | _) (_ | _) h
    · rfl
    · exact absurd h (by decide)
    · exact absurd h (by decide)
    · rfl
  have hslash : ∀ i, ∀ r ∈ (Sample.rivals i).spec.rules, '/' ∉ r.source.ns.toList := by
    decide
  obtain ⟨_, -, _, _, -, hkept⟩ := copies_stay_with_their_keeper Sample.rivals
    (fun _ => 1) hnames hslash (Cluster.start_coherent _ _) rfl hmid (i := true) rfl rfl
  obtain ⟨x, hx, hannotations, -, -, habstains⟩ := hkept _ (.single (Traffic.step_call _ false))
  have hforeign : Sample.rivals false ≠ Sample.rivals true := by decide
  exact ⟨x, _, hx, hannotations, rfl,
    habstains false _ rfl _ (List.mem_singleton.2 rfl) rfl (Or.inl hforeign)⟩

end SecretFanout
