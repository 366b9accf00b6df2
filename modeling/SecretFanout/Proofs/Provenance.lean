import SecretFanout.Proofs.Chronicle
import SecretFanout.Proofs.Contents

/-!
# Where contents come from

Jobs that make passes, on a store where others change what they like, followed from moment to
moment. Each call is one moment; between any two calls of a job anything may happen.

* `Traffic.Runs` — a run, one step from each moment to the next.
* `Store.NotOlder` — a secret is not older than what stands under a key.
* `Copier.BusyWith`, `Working` — a job is at work on one copy, whose source it has read at an
  earlier moment.
* `Episode` — the work on one copy from its first to its last call, and `Episode.In` that it has
  taken place in a run.
* `Recounts` — episodes one after the other that make up a chronicle.
* `Knows.step` — what a chronicle and a stage say about the moments past, one step after the
  other.
* `copies_follow_their_sources` — contents never come from two readings of a source, nor from a
  source older than the one before.
-/

namespace SecretFanout

/-! ## Moments -/

namespace Traffic

variable {σ ι α : Type} [DecidableEq ι] {g : Gateway σ} {others : σ → σ → Prop}

/-- From each moment to the next there is one step. -/
def Runs (g : Gateway σ) (others : σ → σ → Prop) (run : Nat → Traffic σ ι α) : Prop :=
  ∀ k, Step g others (run k) (run (k + 1))

/-- In one step a program makes its next call or stays as it is. -/
theorem Step.program {now next : Traffic σ ι α} (h : Step g others now next) (i : ι) :
    next.programs i = now.programs i ∨
      next.programs i = ((now.programs i).step g now.state).1 := by
  cases h with
  | other h => exact Or.inl rfl
  | call j =>
    by_cases hi : i = j
    · subst hi
      exact Or.inr (Function.update_self ..)
    · exact Or.inl (Function.update_of_ne hi ..)

end Traffic

namespace Store

variable {σ ι α : Type} [DecidableEq ι] {st : Store σ} {run : Nat → Traffic σ ι α}

/-- No step of a run uses a version again. -/
theorem Conditional.evolves_of_step (hst : st.Conditional) {now next : Traffic σ ι α}
    (h : Traffic.Step st.gateway st.Evolves now next) (hs : st.Coherent now.state) :
    st.Evolves now.state next.state := by
  cases h with
  | call i => exact hst.step_evolves hs _
  | other h => exact h

/-- Nor do all steps together, from any moment to any later one. -/
theorem Conditional.evolves_of_runs (hst : st.Conditional)
    (hrun : Traffic.Runs st.gateway st.Evolves run) (hstart : st.Coherent (run 0).state)
    {m k : Nat} (h : m ≤ k) : st.Evolves (run m).state (run k).state := by
  have hcoherent : ∀ m, st.Coherent (run m).state := by
    intro m
    induction m with
    | zero => exact hstart
    | succ m ih => exact (hst.evolves_of_step (hrun m) ih).coherent
  induction h with
  | refl => exact .refl (hcoherent m)
  | @step k _ ih => exact ih.trans (hst.evolves_of_step (hrun k) (hcoherent k))

/-- A secret is not older than what stands under a key: it is what stands there, or its version
was not given out yet. -/
def NotOlder (st : Store σ) (s : σ) (key : SecretKey) (x : Secret) : Prop :=
  st.stored s key = some x ∨ ∀ v, x.metadata.resourceVersion = some v → ¬ st.issued s v

end Store

/-- Versions of a cluster are numbers, and what is not older than a stored secret has no smaller
number. -/
theorem Cluster.le_of_notOlder {cl : Cluster} {key : SecretKey} {x y : Secret} {n m : Nat}
    (h : store.NotOlder cl key x) (hs : store.Coherent cl) (hy : store.stored cl key = some y)
    (hn : x.metadata.resourceVersion = some (Text.natText n))
    (hm : y.metadata.resourceVersion = some (Text.natText m)) : m ≤ n := by
  rcases h with hx | hnew
  · obtain rfl := Option.some.inj (hx.symm.trans hy)
    have hsame : Text.natText n = Text.natText m := Option.some.inj (hn.symm.trans hm)
    exact Nat.le_of_eq (Text.natText_inj hsame).symm
  · obtain ⟨v, hv, k, hk, hvk⟩ := hs.version_issued hy
    have hmk : m = k := Text.natText_inj (by rw [← hvk]; exact Option.some.inj (hm.symm.trans hv))
    by_contra hless
    exact hnew _ hn ⟨n, by omega, rfl⟩

/-! ## Work on one copy -/

/-- With the source of a copy read, the next call of a program looks for the copy, or writes it. -/
def Copier.BusyWith (c : Copier) (copy : Rule × String) (source : Secret)
    (next : Reply Outcome → Program Chronicle) (p : Program Chronicle) : Prop :=
  p = (c.afterSource copy.1 copy.2 source).bind next ∨
    ∃ found, (∀ outcome, c.decide copy.1 copy.2 source found ≠ .leave outcome) ∧
      p = (c.decide copy.1 copy.2 source found).carryOut.bind next

section Moments

variable {σ ι : Type} (st : Store σ) (run : Nat → Traffic σ ι Chronicle) (i : ι) (c : Copier)

/-- Job `i` is at work on a copy from moment `m` to moment `k`. At `m` its next call is the
reading of the source, and `source` is what stands there at that moment; up to `k` it then looks
for the copy, and comes to write it. -/
structure Working (copy : Rule × String) (source : Secret)
    (next : Reply Outcome → Program Chronicle) (m k : Nat) : Prop where
  /-- The copy is one of a rule. -/
  rule : copy.1 ∈ c.spec.rules
  /-- The source is read before. -/
  before : m < k
  /-- At `m` the work on the copy is next. -/
  asked : (run m).programs i = (c.syncTarget copy.1 copy.2).bind next
  /-- What stands for the source at `m`. -/
  stored : st.stored (run m).state copy.1.source = some source
  /-- Since then the work is done with that source. -/
  since : ∀ j, m < j → j ≤ k → c.BusyWith copy source next ((run j).programs i)

/-- What was done about one copy, and when. -/
structure Episode where
  /-- The copy. -/
  copy : Rule × String
  /-- The source that was read, if there was one. -/
  source : Option Secret
  /-- What came of the copy. -/
  reply : Reply Outcome
  /-- What the job did next. -/
  next : Reply Outcome → Program Chronicle
  /-- The moment of the first call, which reads the source. -/
  begun : Nat
  /-- The moment of the last call. -/
  last : Nat

/-- What is written down about an episode. -/
def Episode.line (e : Episode) : (Rule × String) × Reply Outcome := (e.copy, e.reply)

/-- Whether the copy has the contents of its source afterwards. -/
def Outcome.reflects : Outcome → Bool
  | .created | .updated | .unchanged => true
  | .sameNamespace | .sourceMissing | .notManaged => false

/-- At moment `k` job `i` makes the copy `x`, or writes it again, and is not turned down; or it
finds `x` in the copy's place. -/
def Shows (place : SecretKey) (x : Secret) (k : Nat) : Outcome → Prop
  | .created => ((run k).programs i).write? = some (.create x) ∧
      (st.gateway.create x (run k).state).1 = .ok ()
  | .updated => ((run k).programs i).write? = some (.replace x) ∧
      (st.gateway.replace x (run k).state).1 = .ok ()
  | .unchanged => st.stored (run k).state place = some x
  | .sameNamespace | .sourceMissing | .notManaged => False

/-- An episode has taken place in a run. -/
structure Episode.In (e : Episode) : Prop where
  /-- The copy is one of a rule. -/
  rule : e.copy.1 ∈ c.spec.rules
  /-- It was begun before it was ended. -/
  begun_le : e.begun ≤ e.last
  /-- When it was begun, the work on the copy was next. -/
  asked : (run e.begun).programs i = (c.syncTarget e.copy.1 e.copy.2).bind e.next
  /-- After its last call the job went on with what came of it. -/
  answered : (run (e.last + 1)).programs i = e.next e.reply
  /-- The source was what stood there when it was begun. -/
  source_stored : ∀ source, e.source = some source →
    st.stored (run e.begun).state e.copy.1.source = some source
  /-- A copy that was made, written again or found up to date has type, data and labels from the
  source, and the mark of the copier and the rule. -/
  reflected : ∀ outcome, e.reply = .ok outcome → outcome.reflects = true →
    ∃ source x, e.source = some source ∧
      Working st run i c e.copy source e.next e.begun e.last ∧ e.copy.1.IsCurrent source x ∧
      (c.ownership e.copy.1).owns x = true ∧ Shows st run i (placeOf e.copy) x e.last outcome

/-- Episodes one after the other, all before moment `k`, that make up a chronicle. -/
structure Recounts (tale : List Episode) (told : Chronicle) (k : Nat) : Prop where
  /-- They are what the chronicle says. -/
  lines : tale.map Episode.line = told
  /-- They have taken place. -/
  episodes : ∀ e ∈ tale, e.In st run i c
  /-- Each is over before the next one. -/
  ordered : tale.Pairwise fun e e' => e.last < e'.begun
  /-- All are over. -/
  past : ∀ e ∈ tale, e.last < k

/-- What is known at moment `k` about a job that has written down `told` and stands at a stage:
there are episodes for the chronicle, and after them the job has come to work on the copy. -/
def Knows (told : Chronicle) (k : Nat) : Stage → Prop
  | .between => ∃ tale, Recounts st run i c tale told k
  | .place copy source next | .write copy source _ next =>
    ∃ tale m, Recounts st run i c tale told m ∧ Working st run i c copy source next m k

end Moments

variable {σ ι : Type} {st : Store σ} {run : Nat → Traffic σ ι Chronicle} {i : ι} {c : Copier}
  {copy : Rule × String} {source : Secret} {next : Reply Outcome → Program Chronicle}
  {told : Chronicle} {tale : List Episode} {stage : Stage} {m k : Nat}

/-- Work goes on to the next moment if the job is still at it. -/
theorem Working.succ (h : Working st run i c copy source next m k)
    (hnext : c.BusyWith copy source next ((run (k + 1)).programs i)) :
    Working st run i c copy source next m (k + 1) := by
  refine ⟨h.rule, Nat.lt_succ_of_lt h.before, h.asked, h.stored, ?_⟩
  intro j hj hjk
  rcases Nat.lt_or_ge k j with hlate | hearly
  · obtain rfl : j = k + 1 := by omega
    exact hnext
  · exact h.since j hj hearly

/-- Where the job makes no call, it is still at it. -/
theorem Working.wait (h : Working st run i c copy source next m k)
    (hsame : (run (k + 1)).programs i = (run k).programs i) :
    Working st run i c copy source next m (k + 1) := by
  refine h.succ ?_
  rw [hsame]
  exact h.since k h.before (Nat.le_refl k)

theorem Recounts.mono (h : Recounts st run i c tale told m) (hmk : m ≤ k) :
    Recounts st run i c tale told k :=
  ⟨h.lines, h.episodes, h.ordered, fun e he => Nat.lt_of_lt_of_le (h.past e he) hmk⟩

/-- One more episode is one more line. -/
theorem Recounts.snoc {e : Episode} (h : Recounts st run i c tale told m) (he : e.In st run i c)
    (hm : m ≤ e.begun) (hk : e.last < k) :
    Recounts st run i c (tale ++ [e]) (told ++ [e.line]) k := by
  refine ⟨by simp [h.lines], ?_, ?_, ?_⟩
  · intro d hd
    rcases List.mem_append.1 hd with hd | hd
    · exact h.episodes d hd
    · rwa [List.mem_singleton.1 hd]
  · refine List.pairwise_append.2 ⟨h.ordered, List.pairwise_singleton _ _, ?_⟩
    intro d hd d' hd'
    rw [List.mem_singleton.1 hd']
    exact Nat.lt_of_lt_of_le (h.past d hd) hm
  · intro d hd
    rcases List.mem_append.1 hd with hd | hd
    · have hpast := h.past d hd
      have hbegun := he.begun_le
      omega
    · rwa [List.mem_singleton.1 hd]

/-- When the work on a copy comes to its end, it is one more episode. -/
theorem Working.recounts (h : Working st run i c copy source next m k)
    (htale : Recounts st run i c tale told m) {reply : Reply Outcome}
    (hanswered : (run (k + 1)).programs i = next reply)
    (hreflected : ∀ outcome, reply = .ok outcome → outcome.reflects = true →
      ∃ x, copy.1.IsCurrent source x ∧ (c.ownership copy.1).owns x = true ∧
        Shows st run i (placeOf copy) x k outcome) :
    ∃ tale, Recounts st run i c tale (told ++ [(copy, reply)]) (k + 1) := by
  refine ⟨_, htale.snoc (e := ⟨copy, some source, reply, next, m, k⟩) ?_ (Nat.le_refl m)
    (Nat.lt_succ_self k)⟩
  refine ⟨h.rule, Nat.le_of_lt h.before, h.asked, hanswered, ?_, ?_⟩
  · rintro _ ⟨⟩
    exact h.stored
  · intro outcome hreply houtcome
    obtain ⟨x, hx⟩ := hreflected outcome hreply houtcome
    exact ⟨source, x, rfl, h, hx⟩

/-- While a job makes no call, no more is known about it and no less. -/
theorem Knows.wait (h : Knows st run i c told k stage)
    (hsame : (run (k + 1)).programs i = (run k).programs i) :
    Knows st run i c told (k + 1) stage := by
  cases stage with
  | between =>
    obtain ⟨tale, htale⟩ := h
    exact ⟨tale, htale.mono (Nat.le_succ k)⟩
  | place copy source next =>
    obtain ⟨tale, m, htale, hworking⟩ := h
    exact ⟨tale, m, htale, hworking.wait hsame⟩
  | write copy source found next =>
    obtain ⟨tale, m, htale, hworking⟩ := h
    exact ⟨tale, m, htale, hworking.wait hsame⟩

/-- With each call of a job what it writes down is known to be an episode. -/
theorem Knows.step (hst : st.Conditional) (h : Knows st run i c told k stage)
    (hstands : c.Stands told stage ((run k).programs i))
    (hcall : (run (k + 1)).programs i = (((run k).programs i).step st.gateway (run k).state).1) :
    ∃ told' stage', c.Stands told' stage' ((run (k + 1)).programs i) ∧
      Knows st run i c told' (k + 1) stage' := by
  obtain ⟨news, stage', hleads, hstands'⟩ := hstands.step st.gateway (run k).state
  rw [← hcall] at hstands'
  refine ⟨told ++ news, stage', hstands', ?_⟩
  cases hleads with
  | idle =>
    obtain ⟨tale, htale⟩ := h
    rw [List.append_nil]
    exact ⟨tale, htale.mono (Nat.le_succ k)⟩
  | @unsourced copy next reply hrule hp hnext hread =>
    obtain ⟨tale, htale⟩ := h
    refine ⟨_, htale.snoc (e := ⟨copy, none, reply, next, k, k⟩) ?_ (Nat.le_refl k)
      (Nat.lt_succ_self k)⟩
    refine ⟨hrule, Nat.le_refl k, hp, hcall.trans hnext, ?_, ?_⟩
    · rintro source ⟨⟩
    · rintro outcome rfl houtcome
      rcases hread with ⟨-, hmissing⟩ | ⟨e, -, ⟨⟩⟩
      cases hmissing
      cases houtcome
  | @opened copy source next hrule hp hnext hread =>
    obtain ⟨tale, htale⟩ := h
    rw [List.append_nil]
    refine ⟨tale, k, htale, hrule, Nat.lt_succ_self k, hp, (hst.read_found hread).symm, ?_⟩
    intro j hj hjk
    obtain rfl : j = k + 1 := by omega
    exact Or.inl (hcall.trans hnext)
  | unplaced hnext hread =>
    obtain ⟨tale, m, htale, hworking⟩ := h
    refine hworking.recounts htale (hcall.trans hnext) ?_
    rintro outcome ⟨⟩
  | @left copy source next found outcome hrule hnext hread hdecide =>
    obtain ⟨tale, m, htale, hworking⟩ := h
    refine hworking.recounts htale (hcall.trans hnext) ?_
    rintro _ ⟨⟩ houtcome
    obtain ⟨old, rfl, ⟨rfl, -⟩ | ⟨rfl, howns, hcurrent⟩⟩ := decide_eq_leave hdecide
    · cases houtcome
    · exact ⟨old, hcurrent, howns, (hst.read_found hread).symm⟩
  | placed hread hdue hnext =>
    obtain ⟨tale, m, htale, hworking⟩ := h
    rw [List.append_nil]
    exact ⟨tale, m, htale, hworking.succ (Or.inr ⟨_, hdue, hcall.trans hnext⟩)⟩
  | @made copy source next found x hrule hdecide hp hnext =>
    obtain ⟨tale, m, htale, hworking⟩ := h
    refine hworking.recounts htale (hcall.trans hnext) ?_
    intro outcome hreply _
    obtain ⟨-, rfl⟩ := decide_eq_create_iff.1 hdecide
    obtain ⟨haccepted, rfl⟩ := map_eq_ok_iff.1 hreply
    exact ⟨_, isCurrent_newCopy c copy.1 copy.2 source, by simp, congrArg Program.write? hp,
      haccepted⟩
  | @renewed copy source next found x hrule hdecide hp hnext =>
    obtain ⟨tale, m, htale, hworking⟩ := h
    refine hworking.recounts htale (hcall.trans hnext) ?_
    intro outcome hreply _
    obtain ⟨old, -, howns, -, rfl⟩ := decide_eq_replace_iff.1 hdecide
    obtain ⟨haccepted, rfl⟩ := map_eq_ok_iff.1 hreply
    exact ⟨_, isCurrent_refreshed copy.1 source old, howns, congrArg Program.write? hp, haccepted⟩

/-! ## Runs -/

/-- At every moment of a run it is known where a job stands, and of what it has written down. -/
theorem knows_of_runs [DecidableEq ι] (hst : st.Conditional)
    (hrun : Traffic.Runs st.gateway st.Evolves run) {n : Nat}
    (hjob : (run 0).programs i = c.toldPasses n []) (k : Nat) :
    ∃ told stage, c.Stands told stage ((run k).programs i) ∧ Knows st run i c told k stage := by
  induction k with
  | zero =>
    refine ⟨[], .between, ?_, [], rfl, ?_, .nil, ?_⟩
    · rw [hjob]
      exact .between (Copier.tells_toldPasses n [])
    · simp
    · simp
  | succ k ih =>
    obtain ⟨told, stage, hstands, hknows⟩ := ih
    rcases (hrun k).program i with hsame | hcall
    · exact ⟨told, stage, hsame ▸ hstands, hknows.wait hsame⟩
    · exact hknows.step hst hstands hcall

/-- **Copies follow their sources.**  Let jobs make passes, each a number of them one after the
other, on a store that keeps to the conditions of writes, while others change anything in it
between any two calls. Follow one job from moment to moment:

* Whenever a copy is about to be written, the job has been at work on that copy since a moment at
  which it read the source, and the copy has type, data and labels from what stood there at that
  moment, the labels with the rule's put over them.
* When the job has come to its end, its chronicle is one of episodes, each over before the next
  has begun. A copy that was made, written again or found up to date reflects the source that
  stood there when its episode began, and this source is not older than what stood there when any
  earlier episode began. -/
theorem copies_follow_their_sources [DecidableEq ι] (hst : st.Conditional) (copier : ι → Copier)
    (passes : ι → Nat) (hrun : Traffic.Runs st.gateway st.Evolves run)
    (hjobs : ∀ i, (run 0).programs i = (copier i).toldPasses (passes i) [])
    (hstart : st.Coherent (run 0).state) (i : ι) (k : Nat) :
    (∀ x, ((run k).programs i).write? = some (.create x) ∨
        ((run k).programs i).write? = some (.replace x) →
      ∃ copy source next m, Working st run i (copier i) copy source next m k ∧
        x.type = source.type ∧ x.data = source.data ∧
        x.metadata.labels = some (source.labels.overlay copy.1.template.labels)) ∧
    ∀ told, (run k).programs i = .done told →
      ∃ tale : List Episode, tale.map Episode.line = told ∧
        (∀ e ∈ tale, e.In st run i (copier i)) ∧
        tale.Pairwise fun e e' => e.last < e'.begun ∧
          ∀ source, e'.source = some source →
            st.NotOlder (run e.begun).state e'.copy.1.source source := by
  obtain ⟨told, stage, hstands, hknows⟩ := knows_of_runs hst hrun (hjobs i) k
  constructor
  · intro x hx
    obtain ⟨copy, source, found, next, rfl, hcontents⟩ :
        ∃ copy source found next, stage = .write copy source found next ∧
          x.type = source.type ∧ x.data = source.data ∧
          x.metadata.labels = some (source.labels.overlay copy.1.template.labels) := by
      rcases hx with hx | hx
      · obtain ⟨copy, source, found, next, hstage, -, hdecide, -⟩ := hstands.decided hx
        obtain ⟨-, rfl⟩ := decide_eq_create_iff.1 hdecide
        exact ⟨copy, source, found, next, hstage, rfl, rfl, rfl⟩
      · obtain ⟨copy, source, found, next, hstage, -, hdecide, -⟩ := hstands.decided hx
        obtain ⟨old, -, -, -, rfl⟩ := decide_eq_replace_iff.1 hdecide
        exact ⟨copy, source, found, next, hstage, rfl, rfl, rfl⟩
    obtain ⟨tale, m, -, hworking⟩ := hknows
    exact ⟨copy, source, next, m, hworking, hcontents⟩
  · intro log hdone
    rw [hdone] at hstands
    obtain ⟨rfl, rfl⟩ := hstands.eq_of_done
    obtain ⟨tale, htale⟩ := hknows
    refine ⟨tale, htale.lines, htale.episodes, htale.ordered.imp_of_mem ?_⟩
    intro e e' he he' hordered
    refine ⟨hordered, ?_⟩
    intro source hsource
    -- nothing that stands later is older, since no version is used again
    have hlater : e.begun ≤ e'.begun := by
      have hbegun := (htale.episodes e he).begun_le
      omega
    exact (hst.evolves_of_runs hrun hstart hlater).fresh
      ((htale.episodes e' he').source_stored source hsource)

namespace Sample

/-- The token with other data. -/
def renewedToken : Secret := { token with data := some (SortedMap.empty.insert "k" [119]) }

/-- Two passes on the small cluster, with the token renewed in the middle of the first one, when
the copier has read it already. -/
def renewal : Nat → Traffic Cluster Unit Chronicle
  | 0 => ⟨cluster, fun _ => (team [spread]).toldPasses 2 []⟩
  | k + 1 =>
    if k = 2 then
      { renewal k with state := (Change.putSecret renewedToken).apply (renewal k).state }
    else (renewal k).call Cluster.direct ()

theorem renewal_coherent (k : Nat) : Cluster.store.Coherent (renewal k).state := by
  induction k with
  | zero => exact Cluster.start_coherent _ _
  | succ k ih =>
    rw [renewal]
    split
    · exact (Change.evolves (.putSecret renewedToken) ih).coherent
    · exact (Cluster.store_conditional.step_evolves ih _).coherent

theorem renewal_runs : Traffic.Runs Cluster.direct Cluster.store.Evolves renewal := by
  intro k
  rw [renewal]
  split
  · exact .other _ (Change.evolves _ (renewal_coherent k))
  · exact Traffic.step_call _ _

end Sample

/-- The copy is written in both passes, first from the token as the copier has read it and then
from the renewed one. -/
theorem renewed_token_is_followed :
    ∃ tale : List Episode,
      tale.map Episode.line =
        [((Sample.spread, "apps"), .ok .updated), ((Sample.spread, "apps"), .ok .updated)] ∧
      (∀ e ∈ tale, e.In Cluster.store Sample.renewal () (Sample.team [Sample.spread])) ∧
      tale.Pairwise fun e e' => e.last < e'.begun ∧
        ∀ source, e'.source = some source →
          Cluster.store.NotOlder (Sample.renewal e.begun).state e'.copy.1.source source := by
  obtain ⟨-, htold⟩ := copies_follow_their_sources Cluster.store_conditional
    (fun _ => Sample.team [Sample.spread]) (fun _ => 2) Sample.renewal_runs (fun _ => rfl)
    (Sample.renewal_coherent 0) () 9
  exact htold _ rfl

end SecretFanout
