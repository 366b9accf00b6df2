import SecretFanout.Proofs.Flow
import SecretFanout.Proofs.Rings

/-!
# Copiers that come to rest

Passes of one copier one after the other, with nobody else at work. If the copies of its rules
go round in rings, what is in them can go round as well.

* `view_afterPasses` — what stands in a cluster after a number of passes is what rounds through
  the copies make of it.
* `passes_come_to_rest` — where no ring has two late copies the passes come to rest, in whatever
  order the rules stand.
* `passes_never_rest_around` — three copies in a ring, two of them late: what is in them goes
  round for ever.
-/

namespace SecretFanout

variable {c : Copier} {cl : Cluster}

/-- Passes on a calm cluster are rounds through the copies. -/
theorem view_afterPasses (c : Copier) (hf : cl.faults = {}) (hkeyed : cl.Keyed) (n : Nat) :
    cl.GoesOn (cl.afterPasses (List.replicate n c)) ∧
      (cl.afterPasses (List.replicate n c)).view = c.rounds (c.copiesIn cl) cl.view n := by
  induction n generalizing cl with
  | zero => exact ⟨.refl hkeyed, rfl⟩
  | succ n ih =>
    obtain ⟨summary, after, hrun, -, hgoes, hview⟩ := Copier.view_of_calm c hf hkeyed
    have hsame : c.copiesIn after = c.copiesIn cl := c.copiesIn_of_goesOn hgoes
    obtain ⟨hrest, hviewRest⟩ := ih (hgoes.faults_eq.trans hf) hgoes.keyed
    rw [List.replicate_succ, Cluster.afterPasses_cons, hrun]
    exact ⟨hgoes.trans hrest, by rw [hviewRest, hsame, hview]; rfl⟩

/-- A walk that writes nothing leaves the cluster as it is. -/
theorem Copier.Walk.eq_of_nil {cl' : Cluster} {copies : List (Rule × String)}
    {written : List SecretKey} (h : c.Walk cl copies written cl') (hnone : written = []) :
    cl' = cl := by
  induction h with
  | nil cl => rfl
  | cons hfirst hrest ih =>
    obtain ⟨hw, hlater⟩ := List.append_eq_nil_iff.1 hnone
    cases hfirst with
    | leave _ => exact ih hlater
    | write _ _ _ _ _ _ => cases hw

/-- Copies of which a pass writes none stay what they are when they are brought up to date. -/
theorem syncedAll_of_writes (hf : cl.faults = {}) (hkeyed : cl.Keyed) {summary : PassSummary}
    {after : Cluster} (hrun : c.pass.run Cluster.direct cl = (.ok summary, after))
    (hnone : summary.created = 0 ∧ summary.updated = 0) :
    c.syncedAll (c.copiesIn cl) cl.view = cl.view := by
  obtain ⟨summary₁, after₁, hrun₁, -, -, hview⟩ := Copier.view_of_calm c hf hkeyed
  obtain ⟨summary₂, calls, after₂, written, hrun₂, hwalk, -, hwrites, -⟩ :=
    Copier.run_pass_of_calm c hf hkeyed
  obtain ⟨hreply, hstate⟩ := Program.run_recorded Cluster.direct c.pass cl []
  rw [hrun] at hrun₁ hreply hstate
  rw [hrun₂] at hreply hstate
  cases hrun₁
  have hsummary : summary₂ = summary := Except.ok.inj hreply
  have hafter : after₂ = after := hstate
  have hlength : written.length = 0 := by
    rw [← hwrites, hsummary, PassSummary.writes, hnone.1, hnone.2]
  rw [← hview, ← hafter, hwalk.eq_of_nil (List.length_eq_zero_iff.1 hlength)]

/-- **Passes come to rest.**  Let a cluster turn no call down and nobody else write, let no two
rules of a copier make copies in the same place, and let each ring of copies have at most one that
is late. Then all passes end without an error and without a failed write, and from some pass on
they have nothing to write. -/
theorem passes_come_to_rest (c : Copier) (cl : Cluster) (hf : cl.faults = {}) (hkeyed : cl.Keyed)
    (hseparate : Separate (c.copiesIn cl)) (hrings : OneLatePerRing (c.copiesIn cl)) :
    (∀ n, ∃ summary after,
      c.pass.run Cluster.direct (cl.afterPasses (List.replicate n c)) = (.ok summary, after) ∧
        summary.failed = 0) ∧
    ∃ n, ∀ m, n ≤ m → c.PassIsIdle (cl.afterPasses (List.replicate m c)) := by
  have houtward : Outward (c.copiesIn cl) := fun copy hmem =>
    Copier.copyKey_ne_source (Copier.ne_source_of_mem_targets hmem)
  constructor
  · intro n
    obtain ⟨hgoes, -⟩ := view_afterPasses c hf hkeyed n
    obtain ⟨summary, after, hrun, hfailed, -⟩ :=
      Copier.view_of_calm c (hgoes.faults_eq.trans hf) hgoes.keyed
    exact ⟨summary, after, hrun, hfailed⟩
  · obtain ⟨n, hn⟩ := Filter.eventually_atTop.1
      (Copier.eventually_all_rest (c := c) (v := cl.view) hseparate houtward hrings)
    refine ⟨n, fun m hm => ?_⟩
    obtain ⟨hgoes, hview⟩ := view_afterPasses c hf hkeyed m
    refine Copier.passIsIdle_of_converged (hgoes.faults_eq.trans hf) hgoes.keyed ?_
    rw [Copier.converged_iff, hgoes.namespaces_eq]
    intro r ns hmem
    have hrests := hn m hm (r, ns) hmem
    rw [← hview] at hrests
    exact Copier.rests_view_iff.1 hrests

/-! ## Three namespaces in a ring -/

namespace Sample

/-- A rule that copies the badge of one namespace to another one. -/
def handOver (source target : String) : Rule where
  source := ⟨source, "badge"⟩
  target := { names := { patterns := [target] } }

/-- A badge that is the copy of another namespace's. -/
def badge (source ns : String) (data : UInt8) : Secret where
  metadata := {
    name := some "badge"
    ns := some ns
    annotations := some (Ownership.mk "team" (source ++ "/badge")).toAnnotations }
  data := some (SortedMap.empty.insert "k" [data])

/-- Three namespaces, each with a different badge. -/
def circle : Cluster :=
  .start (["a", "b", "c"].map fun name => { metadata := { name := some name } })
    [badge "c" "a" 1, badge "a" "b" 2, badge "b" "c" 3]

/-- Badges are handed over from each namespace to the next one, in this order. -/
def onward : Copier := team [handOver "a" "b", handOver "b" "c", handOver "c" "a"]

/-- The same rules, but the first two the other way round. -/
def around : Copier := team [handOver "b" "c", handOver "a" "b", handOver "c" "a"]

end Sample

/-- Handed over in the order of the ring, one badge gets everywhere. -/
theorem passes_come_to_rest_onward :
    ∃ n, ∀ m, n ≤ m →
      Sample.onward.PassIsIdle (Sample.circle.afterPasses (List.replicate m Sample.onward)) :=
  (passes_come_to_rest Sample.onward Sample.circle rfl (Cluster.Keyed.start _ _)
    (by decide +kernel) (oneLatePerRing_of_forall (by decide +kernel))).2

namespace Sample

/-- The copies of the badges, one for each namespace. -/
abbrev toA : Rule × String := (handOver "c" "a", "a")

@[inherit_doc toA]
abbrev toB : Rule × String := (handOver "a" "b", "b")

@[inherit_doc toA]
abbrev toC : Rule × String := (handOver "b" "c", "c")

theorem copiesIn_around : around.copiesIn circle = [toC, toB, toA] := by decide +kernel

theorem separate_around : Separate [toC, toB, toA] := by decide +kernel

/-- All badges are copies, and those of the first two namespaces differ. -/
structure Circling (v : View) : Prop where
  /-- Each stands in its place under the mark of its rule. -/
  held : ∀ copy ∈ [toC, toB, toA], around.Held copy v
  /-- The first two differ. -/
  differ : contentsAt v (placeOf toA) ≠ contentsAt v (placeOf toB)

/-- A badge becomes what the one before it on the ring was. -/
theorem contentsAt_handedOver {v : View} (hheld : ∀ copy ∈ [toC, toB, toA], around.Held copy v)
    {copy before : Rule × String} (hcopy : copy ∈ [toC, toB, toA])
    (hbefore : before ∈ [toC, toB, toA]) (hfeeds : placeOf before = copy.1.source) :
    contentsAt (around.synced copy v) (placeOf copy) = contentsAt v (placeOf before) := by
  have houtward : ∀ copy ∈ [toC, toB, toA],
      placeOf copy ≠ copy.1.source ∧ copy.1.template.labels = .empty := by decide +kernel
  obtain ⟨hne, hlabels⟩ := houtward copy hcopy
  rw [Copier.contentsAt_synced hne (hheld copy hcopy) (hfeeds ▸ (hheld before hbefore).ne_none),
    hlabels, Contents.map_under_empty, hfeeds]

/-- A round exchanges the badges of the first two namespaces: the third one takes over the second
one's before that takes over the first one's, and hands it on. -/
theorem contents_around {v : View} (h : Circling v) :
    contentsAt (around.syncedAll [toC, toB, toA] v) (placeOf toA) = contentsAt v (placeOf toB) ∧
      contentsAt (around.syncedAll [toC, toB, toA] v) (placeOf toB) =
        contentsAt v (placeOf toA) := by
  have hheld : ∀ done, done <+: [toC, toB, toA] → ∀ copy ∈ [toC, toB, toA],
      around.Held copy (around.syncedAll done v) := by
    intro done hdone copy hcopy
    exact (h.held copy hcopy).syncedAll (Copier.eq_of_place_eq separate_around hdone hcopy)
  have hone := hheld [toC] (by decide +kernel)
  have htwo := hheld [toC, toB] (by decide +kernel)
  constructor
  · calc contentsAt (around.syncedAll [toC, toB, toA] v) (placeOf toA)
        = contentsAt (around.syncedAll [toC, toB] v) (placeOf toC) :=
          contentsAt_handedOver htwo (by simp) (by simp) rfl
      _ = contentsAt (around.syncedAll [toC] v) (placeOf toC) :=
          Copier.contentsAt_synced_of_ne (by decide)
      _ = contentsAt v (placeOf toB) := contentsAt_handedOver h.held (by simp) (by simp) rfl
  · calc contentsAt (around.syncedAll [toC, toB, toA] v) (placeOf toB)
        = contentsAt (around.syncedAll [toC, toB] v) (placeOf toB) :=
          Copier.contentsAt_synced_of_ne (by decide)
      _ = contentsAt (around.syncedAll [toC] v) (placeOf toA) :=
          contentsAt_handedOver hone (by simp) (by simp) rfl
      _ = contentsAt v (placeOf toA) := Copier.contentsAt_synced_of_ne (by decide)

/-- After a round it is the same with the badges. -/
theorem Circling.round {v : View} (h : Circling v) :
    Circling (around.syncedAll [toC, toB, toA] v) := by
  refine ⟨fun copy hcopy => (h.held copy hcopy).syncedAll
    (Copier.eq_of_place_eq separate_around (List.prefix_refl _) hcopy), ?_⟩
  rw [(contents_around h).1, (contents_around h).2]
  exact h.differ.symm

theorem circling_rounds (n : Nat) : Circling (around.rounds [toC, toB, toA] circle.view n) := by
  induction n with
  | zero =>
    refine ⟨?_, by decide +kernel⟩
    intro copy hcopy
    rcases List.mem_cons.1 hcopy with rfl | hcopy
    · exact ⟨_, rfl, by decide +kernel⟩
    · rcases List.mem_cons.1 hcopy with rfl | hcopy
      · exact ⟨_, rfl, by decide +kernel⟩
      · obtain rfl := List.mem_singleton.1 hcopy
        exact ⟨_, rfl, by decide +kernel⟩
  | succ n ih =>
    rw [Copier.rounds_succ]
    exact ih.round

end Sample

/-- Against the order of the ring, with two copies late, every pass writes. -/
theorem passes_never_rest_around :
    Sample.circle.faults = {} ∧ Sample.circle.Keyed ∧
      Separate (Sample.around.copiesIn Sample.circle) ∧
      ∀ n, ∃ summary after,
        Sample.around.pass.run Cluster.direct
            (Sample.circle.afterPasses (List.replicate n Sample.around)) = (.ok summary, after) ∧
          summary.failed = 0 ∧ ¬ (summary.created = 0 ∧ summary.updated = 0) := by
  have hkeyed : Sample.circle.Keyed := Cluster.Keyed.start _ _
  refine ⟨rfl, hkeyed, Sample.copiesIn_around ▸ Sample.separate_around, ?_⟩
  intro n
  obtain ⟨hgoes, hview⟩ := view_afterPasses Sample.around rfl hkeyed n
  obtain ⟨summary, after, hrun, hfailed, -⟩ :=
    Copier.view_of_calm Sample.around hgoes.faults_eq hgoes.keyed
  refine ⟨summary, after, hrun, hfailed, fun hnone => ?_⟩
  have hcopies : Sample.around.copiesIn
      (Sample.circle.afterPasses (List.replicate n Sample.around)) =
        [Sample.toC, Sample.toB, Sample.toA] :=
    (Sample.around.copiesIn_of_goesOn hgoes).trans Sample.copiesIn_around
  -- a pass without a write would leave the badges, and a round exchanges two that differ
  have hcircling := Sample.circling_rounds n
  have hstays := syncedAll_of_writes hgoes.faults_eq hgoes.keyed hrun hnone
  rw [hcopies, hview, Sample.copiesIn_around] at hstays
  have hexchange := (Sample.contents_around hcircling).1
  rw [hstays] at hexchange
  exact hcircling.differ hexchange

end SecretFanout
