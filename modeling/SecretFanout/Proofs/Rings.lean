import Mathlib.Order.Filter.AtTopBot.Basic
import Mathlib.Order.Filter.Finite
import Mathlib.Order.WellFoundedSet
import SecretFanout.Proofs.Contents

/-!
# Rings of copies

Copies can be sources of other copies, and a chain of them can run back into itself. Rounds
through all copies then carry contents along the chain. They come to stand still where no ring
has two copies that are looked at before their sources.

* `Contents` — what a copy takes over from its source; `contentsAt_synced` says that it does.
* `Held` — a secret with its mark stands in the place of a copy. A secret without it never
  changes, so that only held places can keep changing (`held_of_not_steady`).
* `Rests.kept`, `rests_of_mem` — a copy stays at rest, or comes to rest, while its source stays
  what it is.
* `Late` — a copy is looked at before one that makes its source; the others are at rest after
  every round (`rests_syncedAll_of_not_late`).
* `Steady` — what stands under a key changes no more from some round on. This goes from the source
  of a copy to its place (`Steady.place`), and so from copy to copy (`Steady.leads`).
* `OneLatePerRing`, `steady_of_ring` — on a ring with one late copy the contents are put under the
  same labels each time they go round, which changes nothing from the second time on.
* `eventually_all_rest` — where no ring has two late copies all copies come to rest.
-/

namespace SecretFanout

variable {c : Copier} {copy other : Rule × String} {copies all before after : List (Rule × String)}
  {v : View}

/-! ## Contents -/

/-- What copies take over from their sources. -/
structure Contents where
  /-- The type. -/
  type : Option String
  /-- The data. -/
  data : Option (SortedMap String (List UInt8))
  /-- The labels. -/
  labels : TextMap
  deriving DecidableEq

/-- The contents of a secret. -/
def Secret.contents (s : Secret) : Contents := ⟨s.type, s.data, s.labels⟩

/-- The contents with labels put over theirs. -/
def Contents.under (labels : TextMap) (x : Contents) : Contents :=
  { x with labels := x.labels.overlay labels }

namespace Contents

theorem map_under_empty (x : Option Contents) : x.map (under .empty) = x :=
  Option.map_id'

/-- Labels put over labels are labels put over. -/
theorem map_under_under (labels more : TextMap) (x : Option Contents) :
    (x.map (under labels)).map (under more) = x.map (under (labels.overlay more)) := by
  cases x with
  | none => rfl
  | some x => simp only [Option.map_some, under, SortedMap.overlay_assoc]

/-- The same labels a second time change nothing. -/
theorem map_under_under_self (labels : TextMap) (x : Option Contents) :
    (x.map (under labels)).map (under labels) = x.map (under labels) := by
  cases x with
  | none => rfl
  | some x => simp only [Option.map_some, under, SortedMap.overlay_overlay_self]

end Contents

/-- A copy is current when its contents are the source's under the labels of the rule. -/
theorem Rule.isCurrent_iff {r : Rule} {source copy : Secret} :
    r.IsCurrent source copy ↔ copy.contents = source.contents.under r.template.labels := by
  rw [Secret.contents, Secret.contents, Contents.under, Contents.mk.injEq]
  exact ⟨fun h => ⟨h.type_eq, h.data_eq, h.labels_eq⟩, fun ⟨ht, hd, hl⟩ => ⟨ht, hd, hl⟩⟩

/-- The contents that stand under a key. -/
def contentsAt (v : View) (key : SecretKey) : Option Contents := (v key).map Secret.contents

namespace Copier

/-! ## Places that are held -/

/-- A secret with its mark stands in the place of a copy. -/
def Held (c : Copier) (copy : Rule × String) (v : View) : Prop :=
  ∃ old, v (placeOf copy) = some old ∧ (c.ownership copy.1).owns old = true

theorem Held.ne_none (h : c.Held copy v) : v (placeOf copy) ≠ none := by
  obtain ⟨old, hold, -⟩ := h
  rw [hold]
  exact Option.some_ne_none old

/-- It stays held as long as no other copy goes there. -/
theorem Held.synced (h : c.Held copy v) (hsame : placeOf other = placeOf copy → other = copy) :
    c.Held copy (c.synced other v) := by
  obtain ⟨old, hold, howns⟩ := h
  by_cases hplace : placeOf other = placeOf copy
  · obtain rfl := hsame hplace
    rw [Held, synced_place]
    cases hnew : (c.verdict other v).copy? with
    | none => exact ⟨old, hold, howns⟩
    | some secret => exact ⟨secret, rfl, owns_of_copy?_verdict hnew⟩
  · exact ⟨old, by rw [synced_of_ne (Ne.symm hplace), hold], howns⟩

theorem Held.syncedAll (h : c.Held copy v)
    (hsame : ∀ other ∈ copies, placeOf other = placeOf copy → other = copy) :
    c.Held copy (c.syncedAll copies v) := by
  induction copies generalizing v with
  | nil => exact h
  | cons first rest ih =>
    exact ih (h.synced (hsame first (by simp))) fun other hc => hsame other (by simp [hc])

/-- A secret without the mark of the copy that goes in its place stays. -/
theorem syncedAll_of_foreign {x : Secret} (hx : v (placeOf copy) = some x)
    (hforeign : (c.ownership copy.1).owns x = false)
    (hsame : ∀ other ∈ copies, placeOf other = placeOf copy → other = copy) :
    c.syncedAll copies v (placeOf copy) = some x := by
  induction copies generalizing v with
  | nil => exact hx
  | cons first rest ih =>
    rw [syncedAll_cons]
    refine ih ?_ fun other hc => hsame other (by simp [hc])
    by_cases hplace : placeOf first = placeOf copy
    · obtain rfl := hsame first (by simp) hplace
      have hrests : c.Rests first v := by
        cases hs : v first.1.source with
        | none => exact rests_of_missing hs
        | some source =>
          refine (rests_iff_of_source hs).2 ⟨x, hx, fun howns => ?_⟩
          rw [hforeign] at howns
          cases howns
      rw [hrests.synced, hx]
    · rw [synced_of_ne (Ne.symm hplace), hx]

/-! ## What copies at rest contain -/

/-- A copy with the contents of its source under the labels of its rule is at rest. -/
theorem rests_of_contentsAt
    (h : contentsAt v (placeOf copy) =
      (contentsAt v copy.1.source).map (Contents.under copy.1.template.labels)) :
    c.Rests copy v := by
  cases hs : v copy.1.source with
  | none => exact rests_of_missing hs
  | some source =>
    rw [contentsAt, contentsAt, hs] at h
    obtain ⟨old, hold, hcontents⟩ := Option.map_eq_some_iff.1 h
    exact (rests_iff_of_source hs).2 ⟨old, hold, fun _ => Rule.isCurrent_iff.2 hcontents⟩

/-- A copy at rest has these contents if its place is held and its source is there. -/
theorem Rests.contentsAt (h : c.Rests copy v) (hheld : c.Held copy v)
    (hsource : v copy.1.source ≠ none) :
    contentsAt v (placeOf copy) =
      (SecretFanout.contentsAt v copy.1.source).map (Contents.under copy.1.template.labels) := by
  obtain ⟨source, hs⟩ := Option.ne_none_iff_exists'.1 hsource
  obtain ⟨old, hold, howns⟩ := hheld
  obtain ⟨old', hold', hcurrent⟩ := (rests_iff_of_source hs).1 h
  obtain rfl : old = old' := Option.some.inj (hold.symm.trans hold')
  rw [SecretFanout.contentsAt, SecretFanout.contentsAt, hs, hold, Option.map_some, Option.map_some,
    Option.map_some, Rule.isCurrent_iff.1 (hcurrent howns)]

/-- A copy that is brought up to date has them too. -/
theorem contentsAt_synced (hne : placeOf copy ≠ copy.1.source) (hheld : c.Held copy v)
    (hsource : v copy.1.source ≠ none) :
    contentsAt (c.synced copy v) (placeOf copy) =
      (contentsAt v copy.1.source).map (Contents.under copy.1.template.labels) := by
  have hstays : c.synced copy v copy.1.source = v copy.1.source := synced_of_ne hne.symm
  rw [(rests_synced hne).contentsAt (hheld.synced fun _ => rfl) (hstays ▸ hsource), contentsAt,
    contentsAt, hstays]

theorem contentsAt_synced_of_ne {key : SecretKey} (h : key ≠ placeOf copy) :
    contentsAt (c.synced copy v) key = contentsAt v key := by
  rw [contentsAt, contentsAt, synced_of_ne h]

/-! ## Copies that stay at rest -/

/-- A copy at rest stays so while its source stays what it is. -/
theorem Rests.kept (h : c.Rests copy v)
    (hsame : ∀ other ∈ copies, placeOf other = placeOf copy → other = copy)
    (hsource : ∀ done, done <+: copies → c.syncedAll done v copy.1.source = v copy.1.source) :
    c.Rests copy (c.syncedAll copies v) ∧
      c.syncedAll copies v (placeOf copy) = v (placeOf copy) := by
  induction copies using List.reverseRecOn with
  | nil => exact ⟨h, rfl⟩
  | append_singleton done last ih =>
    obtain ⟨hrests, hplace⟩ := ih (fun other hc => hsame other (by simp [hc]))
      fun first hfirst => hsource first (hfirst.trans (List.prefix_append done [last]))
    have hdone := hsource done (List.prefix_append done [last])
    have hall := hsource (done ++ [last]) (List.prefix_refl _)
    rw [syncedAll_append, syncedAll_cons, syncedAll_nil] at hall ⊢
    by_cases hlast : placeOf last = placeOf copy
    · obtain rfl := hsame last (by simp) hlast
      rw [hrests.synced]
      exact ⟨hrests, hplace⟩
    · have hstays : c.synced last (c.syncedAll done v) (placeOf copy) =
          c.syncedAll done v (placeOf copy) := synced_of_ne (Ne.symm hlast)
      exact ⟨hrests.congr (hall.trans hdone.symm) hstays, hstays.trans hplace⟩

/-- A copy that is looked at while its source stays what it is comes to rest. -/
theorem rests_of_mem (hmem : copy ∈ copies) (hne : placeOf copy ≠ copy.1.source)
    (hsame : ∀ other ∈ copies, placeOf other = placeOf copy → other = copy)
    (hsource : ∀ done, done <+: copies → c.syncedAll done v copy.1.source = v copy.1.source) :
    c.Rests copy (c.syncedAll copies v) := by
  obtain ⟨before, after, rfl⟩ := List.append_of_mem hmem
  have hbefore := hsource before (List.prefix_append ..)
  have hrests : c.Rests copy (c.synced copy (c.syncedAll before v)) := rests_synced hne
  rw [syncedAll_append, syncedAll_cons]
  refine (hrests.kept (fun other hc => hsame other (by simp [hc])) ?_).1
  intro done hdone
  have hall := hsource (before ++ copy :: done)
    (List.prefix_append_right_inj before |>.2 (List.prefix_cons_inj copy |>.2 hdone))
  rw [syncedAll_append, syncedAll_cons] at hall
  rw [hall, synced_of_ne hne.symm, hbefore]

end Copier

/-! ## Late copies -/

/-- A copy goes before one that makes its source. -/
def Late (copies : List (Rule × String)) (copy : Rule × String) : Prop :=
  ¬ copies.Pairwise fun first second => first = copy → placeOf second ≠ copy.1.source

instance (copies : List (Rule × String)) (copy : Rule × String) : Decidable (Late copies copy) :=
  inferInstanceAs (Decidable (¬ _))

/-- Each copy goes elsewhere than where its source is. -/
def Outward (copies : List (Rule × String)) : Prop :=
  ∀ copy ∈ copies, placeOf copy ≠ copy.1.source

namespace Copier

section Late

variable (hseparate : Separate all) (houtward : Outward all) (hmem : copy ∈ all)
  (hlate : ¬ Late all copy)
include hseparate houtward hmem hlate

/-- A copy that is not late is at rest from where it was looked at on. -/
theorem rests_of_not_late (hall : all = before ++ after) (hbefore : copy ∈ before) :
    c.Rests copy (c.syncedAll before v) ∧
      c.syncedAll all v (placeOf copy) = c.syncedAll before v (placeOf copy) := by
  obtain ⟨first, second, rfl⟩ := List.append_of_mem hbefore
  rw [List.append_assoc, List.cons_append] at hall
  have hsources : ∀ other ∈ second ++ after, copy.1.source ≠ placeOf other := by
    rw [Late, not_not, hall, List.pairwise_append, List.pairwise_cons] at hlate
    exact fun other hother => (hlate.2.1.1 other hother rfl).symm
  have hsame : ∀ other ∈ second ++ after, placeOf other = placeOf copy → other = copy := by
    intro other hother hplace
    rcases List.mem_append.1 hother with hc | hc
    · exact hseparate.eq (by simp [hall, hc]) hmem hplace
    · exact hseparate.eq (by simp [hall, hc]) hmem hplace
  have hkept : ∀ {copies w}, copies <+: second ++ after → c.Rests copy w →
      c.Rests copy (c.syncedAll copies w) ∧
        c.syncedAll copies w (placeOf copy) = w (placeOf copy) := by
    intro copies w hcopies hrests
    refine hrests.kept (fun other hc => hsame other (hcopies.subset hc)) ?_
    intro done hdone
    exact syncedAll_of_ne fun other hc => hsources other (hcopies.subset (hdone.subset hc))
  have hlooked : c.Rests copy (c.synced copy (c.syncedAll first v)) :=
    rests_synced (houtward copy hmem)
  have hsecond := hkept (List.prefix_append second after) hlooked
  have hboth := hkept (List.prefix_refl _) hlooked
  rw [hall, syncedAll_append, syncedAll_append, syncedAll_cons, syncedAll_cons]
  exact ⟨hsecond.1, hboth.2.trans hsecond.2.symm⟩

/-- So it is at rest after all copies. -/
theorem rests_syncedAll_of_not_late : c.Rests copy (c.syncedAll all v) :=
  (rests_of_not_late hseparate houtward hmem hlate (List.append_nil all).symm hmem).1

/-- In the place of a copy that is not late there stands at any time what stood there before all
copies or what stands there after them. -/
theorem old_or_new_of_not_late (hall : all = before ++ after) :
    c.syncedAll before v (placeOf copy) = v (placeOf copy) ∨
      c.syncedAll before v (placeOf copy) = c.syncedAll all v (placeOf copy) := by
  by_cases hbefore : copy ∈ before
  · exact Or.inr (rests_of_not_late hseparate houtward hmem hlate hall hbefore).2.symm
  · refine Or.inl (syncedAll_of_ne ?_)
    intro other hother hplace
    exact hbefore (hseparate.eq hmem (by simp [hall, hother]) hplace ▸ hother)

end Late

/-! ## Rounds -/

/-- What stands under the keys after a number of rounds through all copies. -/
def rounds (c : Copier) (all : List (Rule × String)) (v : View) (n : Nat) : View :=
  (c.syncedAll all)^[n] v

theorem rounds_succ (c : Copier) (all : List (Rule × String)) (v : View) (n : Nat) :
    c.rounds all v (n + 1) = c.syncedAll all (c.rounds all v n) :=
  Function.iterate_succ_apply' ..

/-- From some round on no copy changes what stands under a key. -/
def Steady (c : Copier) (all : List (Rule × String)) (v : View) (key : SecretKey) : Prop :=
  ∀ᶠ n in Filter.atTop, ∀ done, done <+: all →
    c.syncedAll done (c.rounds all v n) key = c.rounds all v n key

theorem steady_of_ne {key : SecretKey} (h : ∀ copy ∈ all, key ≠ placeOf copy) :
    c.Steady all v key :=
  .of_forall fun _ _ hdone => syncedAll_of_ne fun copy hc => h copy (hdone.subset hc)

/-- What is the case after one round and stays so in the next is so in the end. -/
theorem eventually_of_step {P : View → Prop} {n : Nat} (hstart : P (c.rounds all v n))
    (hstep : ∀ w, P w → P (c.syncedAll all w)) : ∀ᶠ n in Filter.atTop, P (c.rounds all v n) := by
  refine Filter.eventually_atTop.2 ⟨n, fun m hm => ?_⟩
  induction m, hm using Nat.le_induction with
  | base => exact hstart
  | succ m _ ih =>
    rw [rounds_succ]
    exact hstep _ ih

section Rounds

variable (hseparate : Separate all) (houtward : Outward all)
include hseparate

theorem eq_of_place_eq {done : List (Rule × String)} (hdone : done <+: all) (hmem : copy ∈ all) :
    ∀ other ∈ done, placeOf other = placeOf copy → other = copy :=
  fun _ hother hplace => hseparate.eq (hdone.subset hother) hmem hplace

/-- A place of a copy that is not steady is held in the end: a secret of somebody else would stay,
and so would a gap that is never filled. -/
theorem held_of_not_steady (hmem : copy ∈ all) (h : ¬ c.Steady all v (placeOf copy)) :
    ∀ᶠ n in Filter.atTop, c.Held copy (c.rounds all v n) := by
  have hsame := eq_of_place_eq hseparate (List.prefix_refl all) hmem
  by_cases hfound : ∃ n, c.rounds all v n (placeOf copy) ≠ none
  · obtain ⟨n, hn⟩ := hfound
    obtain ⟨x, hx⟩ := Option.ne_none_iff_exists'.1 hn
    cases howns : (c.ownership copy.1).owns x with
    | true => exact eventually_of_step ⟨x, hx, howns⟩ fun w hw => hw.syncedAll hsame
    | false =>
      -- not written by any round, nor by the copies of one up to some copy
      refine absurd ?_ h
      have hstays : ∀ᶠ n in Filter.atTop, c.rounds all v n (placeOf copy) = some x :=
        eventually_of_step (P := fun w => w (placeOf copy) = some x) hx
          fun w hw => syncedAll_of_foreign hw howns hsame
      refine hstays.mono fun m hm done hdone => ?_
      rw [syncedAll_of_foreign hm howns (eq_of_place_eq hseparate hdone hmem), hm]
  · have hnone : ∀ n, c.rounds all v n (placeOf copy) = none := by
      intro n
      exact Decidable.of_not_not fun hn => hfound ⟨n, hn⟩
    -- nothing is removed, so that what is not there after a round was not there on the way
    refine absurd (.of_forall fun n done hdone => ?_) h
    rw [hnone n]
    obtain ⟨rest, rfl⟩ := hdone
    refine Decidable.of_not_not fun hdone => ?_
    have hnext := hnone (n + 1)
    rw [rounds_succ, syncedAll_append] at hnext
    exact syncedAll_ne_none hdone hnext

include houtward

/-- A copy of a steady source comes to rest. -/
theorem eventually_rests_of_source (hmem : copy ∈ all) (h : c.Steady all v copy.1.source) :
    ∀ᶠ n in Filter.atTop, c.Rests copy (c.rounds all v n) := by
  obtain ⟨n, hn⟩ := Filter.eventually_atTop.1 h
  refine Filter.eventually_atTop.2 ⟨n + 1, fun m hm => ?_⟩
  obtain ⟨k, rfl⟩ : ∃ k, m = k + 1 := ⟨m - 1, by omega⟩
  rw [rounds_succ]
  exact rests_of_mem hmem (houtward copy hmem)
    (eq_of_place_eq hseparate (List.prefix_refl all) hmem) (hn k (by omega))

/-- So its place is steady too. -/
theorem Steady.place (h : c.Steady all v copy.1.source) (hmem : copy ∈ all) :
    c.Steady all v (placeOf copy) := by
  refine (h.and (eventually_rests_of_source hseparate houtward hmem h)).mono ?_
  rintro n ⟨hsource, hrests⟩ done hdone
  exact (hrests.kept (eq_of_place_eq hseparate hdone hmem)
    fun first hfirst => hsource first (hfirst.trans hdone)).2

end Rounds

end Copier

/-! ## Rings -/

/-- One copy makes the source of another one. -/
def Feeds (all : List (Rule × String)) (first second : Rule × String) : Prop :=
  first ∈ all ∧ second ∈ all ∧ placeOf first = second.1.source

/-- One copy makes the source of another one, or of one that leads there. -/
abbrev Leads (all : List (Rule × String)) : Rule × String → Rule × String → Prop :=
  Relation.ReflTransGen (Feeds all)

/-- Of copies that lead to each other at most one is late. -/
def OneLatePerRing (all : List (Rule × String)) : Prop :=
  ∀ first second, Leads all first second → Leads all second first →
    Late all first → Late all second → first = second

/-- Only copies can be late. -/
theorem Late.mem (h : Late all copy) : copy ∈ all := by
  by_contra hnot
  refine h (List.pairwise_of_forall_mem_list ?_)
  rintro first hfirst second - rfl
  exact absurd hfirst hnot

/-- Where only one copy is late at all there is no more than one on a ring. -/
theorem oneLatePerRing_of_forall
    (h : ∀ first ∈ all, ∀ second ∈ all, Late all first → Late all second → first = second) :
    OneLatePerRing all :=
  fun first second _ _ hl hl' => h first hl.mem second hl'.mem hl hl'

/-- Without rings any order is good. -/
theorem oneLatePerRing_of_not_transGen (h : ∀ copy, ¬ Relation.TransGen (Feeds all) copy copy) :
    OneLatePerRing all := by
  intro first second hto hback _ _
  rcases Relation.reflTransGen_iff_eq_or_transGen.1 hto with rfl | hto
  · rfl
  · exact absurd (hto.trans_left hback) (h first)

/-- A copy leads to another one that feeds it, and of all copies on the way round no other is
late. -/
structure Ring (all : List (Rule × String)) (first last : Rule × String) : Prop where
  /-- The way round. -/
  leads : Leads all first last
  /-- Its end. -/
  closes : Feeds all last first
  /-- No other copy is late. -/
  only_late : ∀ copy, Leads all first copy → Leads all copy first → Late all copy → copy = first

namespace Ring

variable {first last : Rule × String}

/-- The copies that the first one leads to and that lead to it. -/
def members (all : List (Rule × String)) (first : Rule × String) : Set (Rule × String) :=
  {copy | Leads all first copy ∧ Leads all copy first}

theorem mem_members (h : Ring all first last) :
    first ∈ members all first ∧ last ∈ members all first :=
  ⟨⟨.refl, .refl⟩, h.leads, .single h.closes⟩

theorem mem_of_members (h : Ring all first last) (hcopy : copy ∈ members all first) :
    copy ∈ all := by
  rcases hcopy.2.cases_head with rfl | ⟨next, hnext, -⟩
  · exact h.closes.2.1
  · exact hnext.1

/-- The source of each member is the place of another one. -/
theorem fed (h : Ring all first last) (hcopy : copy ∈ members all first) :
    ∃ other ∈ members all first, placeOf other = copy.1.source := by
  rcases hcopy.1.cases_tail with rfl | ⟨other, hother, hfeeds⟩
  · exact ⟨last, h.mem_members.2, h.closes.2.2⟩
  · exact ⟨other, ⟨hother, .head hfeeds hcopy.2⟩, hfeeds.2.2⟩

/-- A copy that leads to itself is on a ring with at most one late copy, which leads to it. -/
theorem exists_ring (hrings : OneLatePerRing all)
    (hround : Relation.TransGen (Feeds all) copy copy) :
    ∃ first last, Ring all first last ∧ Leads all first copy := by
  -- the ring starts at its late copy if it has one, and else here
  obtain ⟨first, hto, hfrom, honly⟩ : ∃ first, Leads all first copy ∧ Leads all copy first ∧
      ∀ other, Leads all first other → Leads all other first → Late all other → other = first := by
    by_cases hlate : ∃ first, Leads all first copy ∧ Leads all copy first ∧ Late all first
    · obtain ⟨first, hto, hfrom, hl⟩ := hlate
      exact ⟨first, hto, hfrom, fun other h h' hl' => hrings other first h' h hl' hl⟩
    · exact ⟨copy, .refl, .refl, fun other h h' hl => absurd ⟨other, h', h, hl⟩ hlate⟩
  have hself : Relation.TransGen (Feeds all) first first :=
    .trans_right hto (.trans_left hround hfrom)
  obtain ⟨last, hleads, hcloses⟩ := Relation.TransGen.tail'_iff.1 hself
  exact ⟨first, last, ⟨hleads, hcloses, honly⟩, hto⟩

end Ring

/-- Contents that are put under the same labels each time they go round come to stand still. -/
theorem exists_eq_of_round {first last : Nat → Option Contents} {labels more : TextMap}
    (hlast : ∀ n, last n = (first n).map (Contents.under labels))
    (hfirst : ∀ n, first (n + 1) = (last n).map (Contents.under more) ∨
      first (n + 1) = (last (n + 1)).map (Contents.under more)) :
    ∃ n, first n = (last n).map (Contents.under more) := by
  rcases hfirst 0 with hone | hone
  · rcases hfirst 1 with htwo | htwo
    · have hround : ∀ n, (last n).map (Contents.under more) =
          (first n).map (Contents.under (labels.overlay more)) := by
        intro n
        rw [hlast, Contents.map_under_under]
      -- the second time round changes nothing, so that the third finds the first copy current
      have hsame : first 2 = first 1 := by
        rw [htwo, hround 1, hone, hround 0, Contents.map_under_under_self]
      exact ⟨2, by rw [hlast 2, hsame, ← hlast 1, ← htwo, hsame]⟩
    · exact ⟨2, htwo⟩
  · exact ⟨1, hone⟩

namespace Copier

section Ring

variable {first last : Rule × String} (hseparate : Separate all) (houtward : Outward all)
include hseparate

/-- Copies that are all at rest and get all of their sources from each other stay as they are. -/
theorem syncedAll_of_closed {S : Set (Rule × String)} (hS : ∀ copy ∈ S, copy ∈ all)
    (hfed : ∀ copy ∈ S, ∃ other ∈ S, placeOf other = copy.1.source)
    (hrests : ∀ copy ∈ S, c.Rests copy v) (hcopies : ∀ copy ∈ copies, copy ∈ all) :
    ∀ copy ∈ S, c.Rests copy (c.syncedAll copies v) ∧
      c.syncedAll copies v (placeOf copy) = v (placeOf copy) := by
  induction copies generalizing v with
  | nil => exact fun copy hc => ⟨hrests copy hc, rfl⟩
  | cons first rest ih =>
    have hplaces : ∀ copy ∈ S, c.synced first v (placeOf copy) = v (placeOf copy) := by
      intro copy hc
      by_cases hplace : placeOf copy = placeOf first
      · obtain rfl := hseparate.eq (hS copy hc) (hcopies first (by simp)) hplace
        rw [(hrests copy hc).synced]
      · exact synced_of_ne hplace
    have hrests' : ∀ copy ∈ S, c.Rests copy (c.synced first v) := by
      intro copy hc
      obtain ⟨other, hother, hsource⟩ := hfed copy hc
      exact (hrests copy hc).congr (hsource ▸ hplaces other hother) (hplaces copy hc)
    intro copy hc
    obtain ⟨hrest, hplace⟩ := ih hrests' (fun copy hc => hcopies copy (by simp [hc])) copy hc
    exact ⟨hrest, hplace.trans (hplaces copy hc)⟩

/-- A ring that is at rest once stays as it is. -/
theorem steady_of_rests (hring : Ring all first last) {n : Nat}
    (hrests : ∀ copy ∈ Ring.members all first, c.Rests copy (c.rounds all v n)) :
    c.Steady all v (placeOf first) := by
  have hclosed : ∀ done, done <+: all → ∀ w, (∀ copy ∈ Ring.members all first, c.Rests copy w) →
      ∀ copy ∈ Ring.members all first, c.Rests copy (c.syncedAll done w) ∧
        c.syncedAll done w (placeOf copy) = w (placeOf copy) :=
    fun done hdone w hw => syncedAll_of_closed hseparate (fun copy hc => hring.mem_of_members hc)
      (fun copy hc => hring.fed hc) hw fun copy hc => hdone.subset hc
  have hstays : ∀ᶠ m in Filter.atTop, ∀ copy ∈ Ring.members all first,
      c.Rests copy (c.rounds all v m) :=
    eventually_of_step (P := fun w => ∀ copy ∈ Ring.members all first, c.Rests copy w) hrests
      fun w hw copy hc => (hclosed all (List.prefix_refl all) w hw copy hc).1
  refine hstays.mono fun m hm done hdone => ?_
  exact (hclosed done hdone _ hm first hring.mem_members.1).2

include houtward

/-- Steadiness goes from copy to copy. -/
theorem Steady.leads (h : c.Steady all v (placeOf first)) (hleads : Leads all first last) :
    c.Steady all v (placeOf last) := by
  induction hleads with
  | refl => exact h
  | tail _ hfeeds ih => exact Steady.place hseparate houtward (hfeeds.2.2 ▸ ih) hfeeds.2.1

section Held

variable (hring : Ring all first last) {N : Nat}
  (hheld : ∀ n, N ≤ n → ∀ copy ∈ Ring.members all first, c.Held copy (c.rounds all v n))
include hring hheld

/-- All the way round the contents after a round are those of the first copy, under labels that
the rules on the way put over them. -/
theorem contents_along (hcopy : copy ∈ Ring.members all first) :
    ∃ labels, ∀ n, N ≤ n → contentsAt (c.rounds all v (n + 1)) (placeOf copy) =
      (contentsAt (c.rounds all v (n + 1)) (placeOf first)).map (Contents.under labels) := by
  obtain ⟨hleads, hback⟩ := hcopy
  induction hleads with
  | refl =>
    exact ⟨.empty, fun n _ => (Contents.map_under_empty _).symm⟩
  | @tail before copy hbefore hfeeds ih =>
    have hmem : before ∈ Ring.members all first := ⟨hbefore, .head hfeeds hback⟩
    have hcopy : copy ∈ Ring.members all first := ⟨hbefore.tail hfeeds, hback⟩
    obtain ⟨labels, hlabels⟩ := ih hmem.2
    by_cases hfirst : copy = first
    · subst hfirst
      exact ⟨.empty, fun n _ => (Contents.map_under_empty _).symm⟩
    · have hlate : ¬ Late all copy := fun hl => hfirst (hring.only_late copy hcopy.1 hcopy.2 hl)
      refine ⟨labels.overlay copy.1.template.labels, fun n hn => ?_⟩
      have hrests : c.Rests copy (c.rounds all v (n + 1)) := by
        rw [rounds_succ]
        exact rests_syncedAll_of_not_late hseparate houtward hfeeds.2.1 hlate
      have hsource : c.rounds all v (n + 1) copy.1.source ≠ none := by
        rw [← hfeeds.2.2]
        exact (hheld (n + 1) (by omega) before hmem).ne_none
      rw [hrests.contentsAt (hheld (n + 1) (by omega) copy hcopy) hsource, ← hfeeds.2.2,
        hlabels n hn, Contents.map_under_under]

/-- After a round the first copy has the contents that the last one had before the round or has
after it, under the labels of its rule. -/
theorem contents_first (n : Nat) (hn : N ≤ n) :
    contentsAt (c.rounds all v (n + 1)) (placeOf first) =
        (contentsAt (c.rounds all v n) (placeOf last)).map
          (Contents.under first.1.template.labels) ∨
      contentsAt (c.rounds all v (n + 1)) (placeOf first) =
        (contentsAt (c.rounds all v (n + 1)) (placeOf last)).map
          (Contents.under first.1.template.labels) := by
  have hfirst : first ∈ all := hring.closes.2.1
  have hlast : last ∈ all := hring.closes.1
  have hsource : placeOf last = first.1.source := hring.closes.2.2
  have hne : last ≠ first := by
    rintro rfl
    exact houtward last hfirst hsource
  have hlate : ¬ Late all last := fun hl =>
    hne (hring.only_late last hring.leads (.single hring.closes) hl)
  -- the round up to where the first copy is looked at for the last time, and what is left of it
  obtain ⟨later, earlier, hreverse, hlater⟩ :=
    List.eq_append_cons_of_mem (List.mem_reverse.2 hfirst)
  have hall : all = earlier.reverse ++ first :: later.reverse := by
    rw [← List.reverse_reverse all, hreverse]
    simp
  have hprefix : earlier.reverse <+: all := ⟨first :: later.reverse, hall.symm⟩
  have hholds : ∀ copy ∈ Ring.members all first,
      c.Held copy (c.syncedAll earlier.reverse (c.rounds all v n)) := by
    intro copy hcopy
    exact (hheld n hn copy hcopy).syncedAll
      (eq_of_place_eq hseparate hprefix (hring.mem_of_members hcopy))
  have hnext : c.rounds all v (n + 1) (placeOf first) =
      c.synced first (c.syncedAll earlier.reverse (c.rounds all v n)) (placeOf first) := by
    rw [rounds_succ, hall, syncedAll_append, syncedAll_cons]
    refine syncedAll_of_ne ?_
    intro other hother hplace
    have hsame : other = first := hseparate.eq (by simp [hall, hother]) hfirst hplace.symm
    exact hlater (List.mem_reverse.1 (hsame ▸ hother))
  have hcontents := contentsAt_synced (houtward first hfirst) (hholds first hring.mem_members.1)
    (hsource ▸ (hholds last hring.mem_members.2).ne_none)
  rw [contentsAt, hnext, ← contentsAt, hcontents, ← hsource, contentsAt, contentsAt, contentsAt]
  rcases old_or_new_of_not_late hseparate houtward hlast hlate hall with hold | hnew
  · exact Or.inl (by rw [hold])
  · exact Or.inr (by rw [hnew, ← rounds_succ])

/-- Once all places are held the first copy comes to rest. -/
theorem exists_rests_first : ∃ n, N ≤ n ∧ c.Rests first (c.rounds all v (n + 1)) := by
  obtain ⟨labels, hlabels⟩ :=
    contents_along hseparate houtward hring hheld hring.mem_members.2
  obtain ⟨n, hn⟩ := exists_eq_of_round (fun n => hlabels (N + n) (by omega)) fun n =>
    contents_first hseparate houtward hring hheld (N + n + 1) (by omega)
  refine ⟨N + n, by omega, rests_of_contentsAt ?_⟩
  rw [← hring.closes.2.2]
  exact hn

end Held

/-- A ring with one late copy is steady. -/
theorem steady_of_ring (hring : Ring all first last) : c.Steady all v (placeOf first) := by
  by_contra hnot
  have hunsteady : ∀ copy ∈ Ring.members all first, ¬ c.Steady all v (placeOf copy) :=
    fun copy hcopy hsteady => hnot (Steady.leads hseparate houtward hsteady hcopy.2)
  have hfinite : (Ring.members all first).Finite :=
    (List.finite_toSet all).subset fun copy hcopy => hring.mem_of_members hcopy
  have hheld : ∀ᶠ n in Filter.atTop, ∀ copy ∈ Ring.members all first,
      c.Held copy (c.rounds all v n) :=
    (Filter.eventually_all_finite hfinite).2 fun copy hcopy =>
      held_of_not_steady hseparate (hring.mem_of_members hcopy) (hunsteady copy hcopy)
  obtain ⟨N, hN⟩ := Filter.eventually_atTop.1 hheld
  obtain ⟨n, -, hrests⟩ := exists_rests_first hseparate houtward hring hN
  have hall : ∀ copy ∈ Ring.members all first, c.Rests copy (c.rounds all v (n + 1)) := by
    intro copy hcopy
    by_cases hfirst : copy = first
    · exact hfirst ▸ hrests
    · rw [rounds_succ]
      exact rests_syncedAll_of_not_late hseparate houtward (hring.mem_of_members hcopy) fun hl =>
        hfirst (hring.only_late copy hcopy.1 hcopy.2 hl)
  exact hnot (steady_of_rests hseparate hring hall)

/-- One copy makes the source of another one whose place is not steady. -/
def FeedsUnsteady (c : Copier) (all : List (Rule × String)) (v : View)
    (first second : Rule × String) : Prop :=
  Feeds all first second ∧ ¬ c.Steady all v (placeOf second)

/-- No ring goes through a place that is not steady. -/
theorem not_transGen_unsteady (hrings : OneLatePerRing all) (copy : Rule × String) :
    ¬ Relation.TransGen (c.FeedsUnsteady all v) copy copy := by
  intro hround
  obtain ⟨-, -, -, hunsteady⟩ := Relation.TransGen.tail'_iff.1 hround
  obtain ⟨first, last, hring, hleads⟩ :=
    Ring.exists_ring hrings (Relation.TransGen.mono (fun _ _ h => h.1) _ _ hround)
  exact hunsteady (Steady.leads hseparate houtward (steady_of_ring hseparate houtward hring) hleads)

/-- In the end all places are steady: where one is not the source is none either, and going back
from source to source comes to an end where no ring is. -/
theorem steady_of_oneLatePerRing (hrings : OneLatePerRing all) (hmem : copy ∈ all) :
    c.Steady all v (placeOf copy) := by
  have horder : IsStrictOrder (Rule × String) (Relation.TransGen (c.FeedsUnsteady all v)) :=
    { irrefl := not_transGen_unsteady hseparate houtward hrings
      trans := fun _ _ _ => Relation.TransGen.trans }
  -- feeding places that are not steady goes round nowhere, and there are finitely many copies
  have hwf := (List.finite_toSet all).wellFoundedOn
    (r := Relation.TransGen (c.FeedsUnsteady all v))
  refine hwf.induction (P := fun copy => c.Steady all v (placeOf copy)) hmem ?_
  intro copy hcopy ih
  by_contra hunsteady
  have hsource : ¬ c.Steady all v copy.1.source := fun hsteady =>
    hunsteady (Steady.place hseparate houtward hsteady hcopy)
  obtain ⟨other, hother, hplace⟩ : ∃ other ∈ all, copy.1.source = placeOf other := by
    by_contra hnone
    exact hsource (steady_of_ne fun other hother hplace => hnone ⟨other, hother, hplace⟩)
  have hfeeds : Feeds all other copy := ⟨hother, hcopy, hplace.symm⟩
  exact hsource (hplace ▸ ih other hother (.single ⟨hfeeds, hunsteady⟩))

/-- In the end all copies are at rest. -/
theorem eventually_all_rest (hrings : OneLatePerRing all) :
    ∀ᶠ n in Filter.atTop, ∀ copy ∈ all, c.Rests copy (c.rounds all v n) := by
  refine (Filter.eventually_all_finite (List.finite_toSet all)).2 fun copy hcopy => ?_
  refine eventually_rests_of_source hseparate houtward hcopy ?_
  by_cases hplace : ∃ other ∈ all, copy.1.source = placeOf other
  · obtain ⟨other, hother, hsource⟩ := hplace
    exact hsource ▸ steady_of_oneLatePerRing hseparate houtward hrings hother
  · exact steady_of_ne fun other hother hsource => hplace ⟨other, hother, hsource⟩

end Ring

end Copier

end SecretFanout
