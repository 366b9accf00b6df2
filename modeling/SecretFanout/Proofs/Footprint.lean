import Mathlib.Data.Set.Basic
import SecretFanout.Proofs.Reports
import SecretFanout.Proofs.Traffic

/-!
# Where attempts write

Attempts at copiers one after the other, the calls of which may fail at will: a call may be turned
down, or be carried out and its reply be lost. Whatever fails, an attempt writes only in the
places that its rules and the namespaces it has listed call for.

* `Fate`, `Gateway.unreliable` — what becomes of a call, and a gateway whose calls meet with what a
  script has for each of them.
* `Gateway.overheard` — a gateway that also writes down each call with its reply;
  `Program.run_overheard` says that this changes nothing else.
* `Cluster.WritesIn` — a cluster goes on by writes in some places only, and loses no secret.
* `Copier.Syncs.writesIn` — one copy after the other, a program that brings copies up to date
  writes in their places only.
* `Rule.Chooses` — a rule is to have a copy in a namespace, told selector by selector;
  `chooses_iff` says that this is what the test in `Rule.selects` tests.
* `attempts_write_in_chosen_places` — this said of attempts one after the other.
-/

namespace SecretFanout

variable {α β σ : Type}

/-! ## Calls that fail -/

/-- What becomes of a call. -/
inductive Fate where
  /-- It is answered. -/
  | answered
  /-- It is turned down, and nothing is done. -/
  | refused (cause : Cause)
  /-- It is carried out, but instead of the reply an error arrives. -/
  | lost (cause : Cause)

/-- A call that meets with the first fate of a script; calls beyond the script are answered. -/
def Fate.meet (error : Cause → SyncError) (answer : σ → Reply α × σ) (s : σ × List Fate) :
    Reply α × (σ × List Fate) :=
  match s.2.head? with
  | some (.refused cause) => (.error (error cause), s.1, s.2.tail)
  | some (.lost cause) => (.error (error cause), (answer s.1).2, s.2.tail)
  | _ => ((answer s.1).1, (answer s.1).2, s.2.tail)

/-- A gateway whose calls meet with the fates of a script, which has one for each call. -/
def Gateway.unreliable (g : Gateway σ) : Gateway (σ × List Fate) where
  list := Fate.meet .listing g.list
  read key := Fate.meet (.reading key) (g.read key)
  create secret := Fate.meet (.writing .create secret.key) (g.create secret)
  replace secret := Fate.meet (.writing .replace secret.key) (g.replace secret)

/-- Whatever its fate, a call leaves the state as it was or as its answer leaves it. -/
theorem Fate.meet_state (error : Cause → SyncError) (answer : σ → Reply α × σ)
    (s : σ × List Fate) :
    (Fate.meet error answer s).2.1 = s.1 ∨ (Fate.meet error answer s).2.1 = (answer s.1).2 := by
  rw [Fate.meet]
  split
  · exact Or.inl rfl
  · exact Or.inr rfl
  · exact Or.inr rfl

/-- A value only arrives if the call was answered with it. -/
theorem Fate.meet_ok {error : Cause → SyncError} {answer : σ → Reply α × σ}
    {s : σ × List Fate} {a : α} (h : (Fate.meet error answer s).1 = .ok a) :
    (answer s.1).1 = .ok a := by
  rw [Fate.meet] at h
  split at h
  · cases h
  · cases h
  · exact h

/-! ## Calls that are overheard -/

/-- A call with its reply. -/
inductive Exchange where
  /-- Namespaces were asked for. -/
  | list (reply : Reply (List Snapshot))
  /-- A secret was asked for. -/
  | read (key : SecretKey) (reply : Reply (Option Secret))
  /-- A secret was sent to be added. -/
  | create (secret : Secret) (reply : Reply Unit)
  /-- A secret was sent to be replaced. -/
  | replace (secret : Secret) (reply : Reply Unit)

/-- A gateway that also writes down each call with its reply, the latest last. -/
def Gateway.overheard (g : Gateway σ) : Gateway (σ × List Exchange) where
  list s :=
    let (r, t) := g.list s.1
    (r, t, s.2 ++ [.list r])
  read key s :=
    let (r, t) := g.read key s.1
    (r, t, s.2 ++ [.read key r])
  create secret s :=
    let (r, t) := g.create secret s.1
    (r, t, s.2 ++ [.create secret r])
  replace secret s :=
    let (r, t) := g.replace secret s.1
    (r, t, s.2 ++ [.replace secret r])

/-- Listening to the calls changes nothing about them, and what was heard stays written down. -/
theorem Program.run_overheard (g : Gateway σ) (p : Program α) (s : σ) (heard : List Exchange) :
    (p.run g.overheard (s, heard)).1 = (p.run g s).1 ∧
      (p.run g.overheard (s, heard)).2.1 = (p.run g s).2 ∧
      heard <+: (p.run g.overheard (s, heard)).2.2 := by
  induction p generalizing s heard with
  | done a => exact ⟨rfl, rfl, List.prefix_rfl⟩
  | list next ih =>
    obtain ⟨hreply, hstate, hheard⟩ := ih (g.list s).1 (g.list s).2 (heard ++ [.list (g.list s).1])
    exact ⟨hreply, hstate, (List.prefix_append ..).trans hheard⟩
  | read key next ih =>
    obtain ⟨hreply, hstate, hheard⟩ :=
      ih (g.read key s).1 (g.read key s).2 (heard ++ [.read key (g.read key s).1])
    exact ⟨hreply, hstate, (List.prefix_append ..).trans hheard⟩
  | create x next ih =>
    obtain ⟨hreply, hstate, hheard⟩ :=
      ih (g.create x s).1 (g.create x s).2 (heard ++ [.create x (g.create x s).1])
    exact ⟨hreply, hstate, (List.prefix_append ..).trans hheard⟩
  | replace x next ih =>
    obtain ⟨hreply, hstate, hheard⟩ :=
      ih (g.replace x s).1 (g.replace x s).2 (heard ++ [.replace x (g.replace x s).1])
    exact ⟨hreply, hstate, (List.prefix_append ..).trans hheard⟩

/-! ## Writes in some places -/

namespace Cluster

variable {cl cl' cl'' : Cluster} {places places' : Set SecretKey}

/-- A cluster goes on by writes in some places only: no other secret changes, and none is lost. -/
structure WritesIn (places : Set SecretKey) (cl cl' : Cluster) : Prop where
  /-- What is set to go wrong stays so. -/
  faults_eq : cl'.faults = cl.faults
  /-- Secrets stand under their own keys. -/
  keyed : cl'.Keyed
  /-- Other secrets stay as they are. -/
  elsewhere : ∀ key, key ∉ places → cl'.secrets.get? key = cl.secrets.get? key
  /-- No secret is lost. -/
  kept : ∀ key, cl.secrets.get? key ≠ none → cl'.secrets.get? key ≠ none

theorem WritesIn.refl (places : Set SecretKey) (h : cl.Keyed) : WritesIn places cl cl :=
  ⟨rfl, h, fun _ _ => rfl, fun _ => id⟩

theorem WritesIn.trans (h : WritesIn places cl cl') (h' : WritesIn places cl' cl'') :
    WritesIn places cl cl'' :=
  ⟨h'.faults_eq.trans h.faults_eq, h'.keyed,
    fun key hkey => (h'.elsewhere key hkey).trans (h.elsewhere key hkey),
    fun key hkey => h'.kept key (h.kept key hkey)⟩

theorem WritesIn.mono (h : WritesIn places cl cl') (hsub : places ⊆ places') :
    WritesIn places' cl cl' :=
  ⟨h.faults_eq, h.keyed, fun key hkey => h.elsewhere key fun hmem => hkey (hsub hmem), h.kept⟩

/-- A secret is stored in its own place. -/
theorem WritesIn.put (h : cl.Keyed) {x : Secret} {key : SecretKey} (hkey : x.key = key) :
    WritesIn {key} cl (cl.put key x) := by
  refine ⟨rfl, h.put hkey, ?_, ?_⟩
  · intro k hk
    rw [get?_put]
    exact if_neg hk
  · intro k hk
    rw [get?_put]
    split
    · exact Option.some_ne_none _
    · exact hk

theorem writesIn_create (h : cl.Keyed) (x : Secret) :
    WritesIn {x.key} cl (direct.create x cl).2 := by
  rcases create_cases cl x.key x with ⟨-, hcreate⟩ | ⟨fault, hcreate⟩
  · simpa [direct, hcreate] using WritesIn.put h (key_withAssignedUid x.key x)
  · simpa [direct, hcreate] using WritesIn.refl {x.key} h

theorem writesIn_replace (h : cl.Keyed) (x : Secret) :
    WritesIn {x.key} cl (direct.replace x cl).2 := by
  rcases replace_cases cl x.key x with ⟨-, -, -, hreplace⟩ | ⟨fault, hreplace⟩
  · simpa [direct, hreplace] using WritesIn.put h rfl
  · simpa [direct, hreplace] using WritesIn.refl {x.key} h

end Cluster

/-! ## What programs write -/

section Unreliable

variable {cl : Cluster} {fates : List Fate}

/-- Listing changes nothing. -/
theorem unreliable_list (cl : Cluster) (fates : List Fate) :
    ∃ reply fates', Cluster.direct.unreliable.list (cl, fates) = (reply, cl, fates') := by
  refine ⟨_, _, Prod.ext rfl (Prod.ext ?_ rfl)⟩
  rcases Fate.meet_state .listing Cluster.direct.list (cl, fates) with h | h
  · exact h
  · exact h

/-- Without races reading changes nothing, and if it is answered it finds what is stored. -/
theorem unreliable_read (hraces : cl.faults.races = []) (key : SecretKey) (fates : List Fate) :
    ∃ reply fates', Cluster.direct.unreliable.read key (cl, fates) = (reply, cl, fates') ∧
      ∀ found, reply = .ok found → found = cl.secrets.get? key := by
  refine ⟨_, _, Prod.ext rfl (Prod.ext ?_ rfl), ?_⟩
  · rcases Fate.meet_state (.reading key) (Cluster.direct.read key) (cl, fates) with h | h
    · exact h
    · exact h.trans (Cluster.read_of_no_races hraces key)
  · intro found hfound
    exact Cluster.store_conditional.read_found (Fate.meet_ok hfound)

/-- Whatever becomes of a write, it is in the place of the secret that was sent. -/
theorem writesIn_unreliable_create (h : cl.Keyed) (x : Secret) (fates : List Fate) :
    Cluster.WritesIn {x.key} cl (Cluster.direct.unreliable.create x (cl, fates)).2.1 := by
  rcases Fate.meet_state (.writing .create x.key) (Cluster.direct.create x) (cl, fates) with hs | hs
  · exact hs ▸ .refl _ h
  · exact hs ▸ Cluster.writesIn_create h x

theorem writesIn_unreliable_replace (h : cl.Keyed) (x : Secret) (fates : List Fate) :
    Cluster.WritesIn {x.key} cl (Cluster.direct.unreliable.replace x (cl, fates)).2.1 := by
  rcases Fate.meet_state (.writing .replace x.key) (Cluster.direct.replace x) (cl, fates)
    with hs | hs
  · exact hs ▸ .refl _ h
  · exact hs ▸ Cluster.writesIn_replace h x

end Unreliable

namespace Copier

variable {c : Copier} {copy : Rule × String} {cl : Cluster} {fates : List Fate}

/-- A decision is carried out in the place of its copy. -/
theorem writesIn_carryOut (h : cl.Keyed) {d : Decision} {key : SecretKey}
    (hd : ∀ secret, d.copy? = some secret → secret.key = key) (fates : List Fate) :
    Cluster.WritesIn {key} cl (d.carryOut.run Cluster.direct.unreliable (cl, fates)).2.1 := by
  cases d with
  | leave outcome => exact .refl _ h
  | create x =>
    obtain rfl : x.key = key := hd x rfl
    exact writesIn_unreliable_create h x fates
  | replace x =>
    obtain rfl : x.key = key := hd x rfl
    exact writesIn_unreliable_replace h x fates

/-- The work on one copy writes in its place only. -/
theorem writesIn_syncTarget (copy : Rule × String) (hkeyed : cl.Keyed)
    (hraces : cl.faults.races = []) (fates : List Fate) :
    Cluster.WritesIn {placeOf copy} cl
      ((c.syncTarget copy.1 copy.2).run Cluster.direct.unreliable (cl, fates)).2.1 := by
  rw [syncTarget]
  split
  · exact .refl _ hkeyed
  · obtain ⟨reply, fates', hread, hsource⟩ := unreliable_read hraces copy.1.source fates
    rw [Program.run, hread]
    cases reply with
    | error e => exact .refl _ hkeyed
    | ok found =>
      cases found with
      | none => exact .refl _ hkeyed
      | some source =>
        obtain ⟨reply', fates'', hread', hplace⟩ := unreliable_read hraces (placeOf copy) fates'
        simp only [Program.run, hread']
        cases reply' with
        | error e => exact .refl _ hkeyed
        | ok existing =>
          -- both readings were answered, so the decision is the one about what is stored
          have hverdict :
              c.verdict copy cl.secrets.get? = c.decide copy.1 copy.2 source existing := by
            rw [verdict, ← hsource _ rfl, hplace _ rfl]
          dsimp only
          rw [← hverdict]
          exact writesIn_carryOut hkeyed (fun _ => key_of_copy?_verdict hkeyed) fates''

/-- A program that brings copies up to date writes in the places of these copies only. -/
theorem Syncs.writesIn {covers : Rule → String → Prop} {p : Program α} (h : c.Syncs covers p)
    (hkeyed : cl.Keyed) (hraces : cl.faults.races = []) (fates : List Fate) :
    Cluster.WritesIn {key | ∃ r ns, covers r ns ∧ key = r.copyKey ns} cl
      (p.run Cluster.direct.unreliable (cl, fates)).2.1 := by
  induction h generalizing cl fates with
  | done a => exact .refl _ hkeyed
  | list next _ ih =>
    obtain ⟨reply, fates', hlist⟩ := unreliable_list cl fates
    rw [Program.run, hlist]
    exact ih reply hkeyed hraces fates'
  | @sync r ns hcovers next _ ih =>
    have hfirst := writesIn_syncTarget (c := c) (r, ns) hkeyed hraces fates
    rw [Program.run_bind]
    refine (hfirst.mono ?_).trans (ih _ hfirst.keyed ?_ _)
    · rintro key rfl
      exact ⟨r, ns, hcovers, rfl⟩
    · rw [hfirst.faults_eq, hraces]

/-- A copier that is being deleted or has no rules asks for nothing. -/
theorem reconcile_of_dormant (h : c.isBeingDeleted = true ∨ c.spec.rules = []) :
    c.reconcile = .done (.ok .awaitChange) := by
  rw [reconcile, if_pos]
  rcases h with h | h
  · rw [h, Bool.true_or]
  · rw [h, List.isEmpty_nil, Bool.or_true]

/-- What is to follow a pass. -/
def afterPass (c : Copier) : Reply PassSummary → Reply Action
  | .error e => .error e
  | .ok _ =>
    match c.nextPassDelay with
    | .error e => .error (.period e)
    | .ok none => .ok .awaitChange
    | .ok (some delay) => .ok (.requeueAfter delay)

/-- Any other copier lists the namespaces first, and goes through the copies that they call for. -/
theorem reconcile_of_awake (h : ¬ (c.isBeingDeleted = true ∨ c.spec.rules = [])) :
    c.reconcile = .list fun
      | .error e => .done (.error e)
      | .ok namespaces =>
        (c.syncTargets (c.targets namespaces) {}).bind fun reply => .done (c.afterPass reply) := by
  obtain ⟨-, hrules⟩ := not_or.1 h
  have hstarts : ¬ (c.isBeingDeleted || c.spec.rules.isEmpty) = true := by
    simpa [List.isEmpty_iff] using h
  have hempty : ¬ c.spec.rules.isEmpty = true := by simpa [List.isEmpty_iff] using hrules
  rw [reconcile, if_neg hstarts, pass, if_neg hempty, Program.bind]
  refine congrArg Program.list (funext fun listed => ?_)
  cases listed with
  | error e => rfl
  | ok namespaces =>
    refine congrArg (Program.bind _) (funext fun reply => ?_)
    cases reply with
    | error e => rfl
    | ok summary =>
      rw [afterPass]
      cases c.nextPassDelay with
      | error e => rfl
      | ok delay => cases delay <;> rfl

end Copier

/-! ## Selected namespaces -/

/-- A rule is to have a copy in a namespace. -/
structure Rule.Chooses (r : Rule) (n : Snapshot) : Prop where
  /-- The namespace is not being deleted. -/
  active : n.terminating = false
  /-- It is not the namespace of the source. -/
  elsewhere : n.name ≠ r.source.ns
  /-- Each selector that asks for something accepts it. -/
  accepted : ∀ s ∈ r.target.criteria, s.isEmpty = false → s.accepts n = true
  /-- Without a selector for names the default names accept it. -/
  byDefault : r.target.names.isEmpty = true → Target.defaultNames.accepts n.name = true

/-- These are the namespaces that a pass goes through for a rule. -/
theorem Rule.chooses_iff {r : Rule} {n : Snapshot} :
    r.Chooses n ↔ n.terminating = false ∧ r.selects n = true := by
  simp only [selects, Target.accepts, Target.acceptsBy, Bool.and_eq_true, bne_iff_ne, ne_eq,
    Bool.or_eq_true, Bool.not_eq_true', List.all_eq_true, List.mem_filter]
  constructor
  · rintro ⟨hactive, helsewhere, haccepted, hdefault⟩
    refine ⟨hactive, helsewhere, ?_, fun s hs => haccepted s hs.1 hs.2⟩
    cases hnames : r.target.names.isEmpty with
    | false => exact Or.inl rfl
    | true => exact Or.inr (hdefault hnames)
  · rintro ⟨hactive, helsewhere, hnames, haccepted⟩
    refine ⟨hactive, helsewhere, fun s hs hasks => haccepted s ⟨hs, hasks⟩, ?_⟩
    intro hempty
    rcases hnames with hasks | hdefault
    · rw [hempty] at hasks
      cases hasks
    · exact hdefault

/-! ## Attempts -/

/-- An attempt at a copier: what becomes of its calls. -/
abbrev Attempt := Copier × List Fate

namespace Cluster

/-- A cluster after an attempt at a copier. -/
def afterAttempt (cl : Cluster) (attempt : Attempt) : Cluster :=
  (attempt.1.reconcile.run direct.unreliable (cl, attempt.2)).2.1

/-- A cluster after attempts one after the other. -/
def afterAttempts (cl : Cluster) (attempts : List Attempt) : Cluster :=
  attempts.foldl afterAttempt cl

/-- The calls of an attempt on a cluster, with their replies. -/
def exchanges (cl : Cluster) (attempt : Attempt) : List Exchange :=
  (attempt.1.reconcile.run direct.unreliable.overheard ((cl, attempt.2), [])).2.2

variable {cl : Cluster} {c : Copier}

/-- An attempt leaves the cluster as it is, or it has listed namespaces and writes where its copier
is to have copies in them. -/
theorem afterAttempt_cases (hkeyed : cl.Keyed) (hraces : cl.faults.races = [])
    (c : Copier) (fates : List Fate) :
    cl.afterAttempt (c, fates) = cl ∨
      ∃ namespaces later, cl.exchanges (c, fates) = .list (.ok namespaces) :: later ∧
        WritesIn {key | ∃ r ns, (r, ns) ∈ c.targets namespaces ∧ key = r.copyKey ns} cl
          (cl.afterAttempt (c, fates)) := by
  by_cases hdormant : c.isBeingDeleted = true ∨ c.spec.rules = []
  · refine Or.inl ?_
    rw [afterAttempt, Copier.reconcile_of_dormant hdormant, Program.run]
  · obtain ⟨reply, fates', hlist⟩ := unreliable_list cl fates
    have hheard : direct.unreliable.overheard.list ((cl, fates), []) =
        (reply, (cl, fates'), [.list reply]) := by
      simp [Gateway.overheard, hlist]
    rw [afterAttempt, exchanges, Copier.reconcile_of_awake hdormant, Program.run, Program.run,
      hlist, hheard]
    cases reply with
    | error e => exact Or.inl rfl
    | ok namespaces =>
      have hsyncs : c.Syncs (fun r ns => (r, ns) ∈ c.targets namespaces)
          ((c.syncTargets (c.targets namespaces) {}).bind fun reply => .done (c.afterPass reply)) :=
        (Copier.syncs_syncTargets _ (fun _ hmem => hmem) {}).bind fun reply => .done _
      obtain ⟨-, -, later, hlater⟩ := Program.run_overheard direct.unreliable
        ((c.syncTargets (c.targets namespaces) {}).bind fun reply => .done (c.afterPass reply))
        (cl, fates') [.list (.ok namespaces)]
      exact Or.inr ⟨namespaces, later, hlater.symm, hsyncs.writesIn hkeyed hraces fates'⟩

/-- So attempts one after the other keep secrets under their own keys, and lose none. -/
theorem writesIn_afterAttempts (hkeyed : cl.Keyed) (hraces : cl.faults.races = [])
    (attempts : List Attempt) : WritesIn Set.univ cl (cl.afterAttempts attempts) := by
  induction attempts generalizing cl with
  | nil => exact .refl _ hkeyed
  | cons attempt rest ih =>
    have hfirst : WritesIn Set.univ cl (cl.afterAttempt attempt) := by
      rcases afterAttempt_cases hkeyed hraces attempt.1 attempt.2 with hsame | ⟨_, _, -, hwrites⟩
      · exact hsame.symm ▸ .refl _ hkeyed
      · exact hwrites.mono (Set.subset_univ _)
    exact hfirst.trans (ih hfirst.keyed (hfirst.faults_eq.symm ▸ hraces))

end Cluster

/-- **Attempts write in chosen places only.**  Let attempts be made at copiers one after the other,
and let their calls fail in any way, while nobody else writes. Then for the last attempt:

* A key whose secret it changes is named like the copies of one of the copier's rules, and lies in
  a namespace that this very attempt was told of when it listed them, and that the rule chooses.
* No secret that was there at the outset is gone.
* If the copier is being deleted or has no rules, no call was made at all. -/
theorem attempts_write_in_chosen_places (cl : Cluster) (hkeyed : cl.Keyed)
    (hraces : cl.faults.races = []) (earlier : List Attempt) (c : Copier) (fates : List Fate) :
    (∀ key, ((cl.afterAttempts earlier).afterAttempt (c, fates)).secrets.get? key ≠
        (cl.afterAttempts earlier).secrets.get? key →
      ∃ namespaces later,
        (cl.afterAttempts earlier).exchanges (c, fates) = .list (.ok namespaces) :: later ∧
        ∃ r ∈ c.spec.rules, ∃ n ∈ namespaces, r.Chooses n ∧ key = ⟨n.name, r.copyName⟩) ∧
    (∀ key, cl.secrets.get? key ≠ none →
      ((cl.afterAttempts earlier).afterAttempt (c, fates)).secrets.get? key ≠ none) ∧
    (c.isBeingDeleted = true ∨ c.spec.rules = [] →
      (cl.afterAttempts earlier).exchanges (c, fates) = []) := by
  have hearlier := Cluster.writesIn_afterAttempts hkeyed hraces earlier
  have hcases :=
    Cluster.afterAttempt_cases hearlier.keyed (hearlier.faults_eq.symm ▸ hraces) c fates
  refine ⟨?_, ?_, ?_⟩
  · intro key hchanged
    rcases hcases with hsame | ⟨namespaces, later, hheard, hwrites⟩
    · exact absurd (by rw [hsame]) hchanged
    · refine ⟨namespaces, later, hheard, ?_⟩
      obtain ⟨r, ns, hmem, rfl⟩ := not_imp_comm.1 (hwrites.elsewhere key) hchanged
      obtain ⟨hr, n, hn, hactive, hselects, rfl⟩ := Copier.mem_targets.1 hmem
      exact ⟨r, hr, n, hn, Rule.chooses_iff.2 ⟨hactive, hselects⟩, rfl⟩
  · intro key hthere
    have hstill := hearlier.kept key hthere
    rcases hcases with hsame | ⟨_, _, -, hwrites⟩
    · rwa [hsame]
    · exact hwrites.kept key hstill
  · intro hdormant
    rw [Cluster.exchanges, Copier.reconcile_of_dormant hdormant, Program.run]

namespace Sample

/-- An attempt that cannot read the token. -/
def unread : Attempt := (team [spread], [.answered, .refused (.store .timeout)])

/-- An attempt that brings the copy in `apps` up to date without being told so. -/
def unthanked : Attempt :=
  (team [spread], [.answered, .answered, .answered, .lost (.store .timeout)])

end Sample

/-- In the small cluster a copy is written although the attempt is told that this has failed; it is
in a namespace that the attempt has listed and that the rule chooses, and the token is still
there. -/
theorem unthanked_write_is_in_chosen_place :
    ((Sample.cluster.afterAttempts [Sample.unread]).afterAttempt Sample.unthanked).secrets.get?
        ⟨"apps", "token"⟩ ≠
      (Sample.cluster.afterAttempts [Sample.unread]).secrets.get? ⟨"apps", "token"⟩ ∧
    (∃ namespaces later, (Sample.cluster.afterAttempts [Sample.unread]).exchanges Sample.unthanked =
        .list (.ok namespaces) :: later ∧
      ∃ r ∈ [Sample.spread], ∃ n ∈ namespaces, r.Chooses n ∧
        (⟨"apps", "token"⟩ : SecretKey) = ⟨n.name, r.copyName⟩) ∧
    ((Sample.cluster.afterAttempts [Sample.unread]).afterAttempt Sample.unthanked).secrets.get?
      ⟨"vault", "token"⟩ ≠ none := by
  obtain ⟨hchosen, hkept, -⟩ := attempts_write_in_chosen_places Sample.cluster
    (Cluster.Keyed.start _ _) rfl [Sample.unread] Sample.unthanked.1 Sample.unthanked.2
  have hchanged : ((Sample.cluster.afterAttempts [Sample.unread]).afterAttempt
      Sample.unthanked).secrets.get? ⟨"apps", "token"⟩ ≠
        (Sample.cluster.afterAttempts [Sample.unread]).secrets.get? ⟨"apps", "token"⟩ := by
    decide +kernel
  exact ⟨hchanged, hchosen _ hchanged, hkept _ (by decide +kernel)⟩

end SecretFanout
