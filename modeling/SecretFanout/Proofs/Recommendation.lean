import Mathlib.Data.List.Nodup
import SecretFanout.Discovery.Group

/-!
# Recommended versions

Of what a cluster serves, only the recommended version of the copiers' group is looked at: the
preferred one or, if none is preferred, the one that ranks highest by its name. Copiers that are
served in another version of the group are passed over.

* `highest?_eq_some_iff` — of several names the first one is taken that none ranks above.
* `servesCopiers_iff` — what the copiers' group has to recommend.
* `Orderly.recommendsCopiers_iff` — where each version lists its own kinds, copiers have to be
  served in their version, and this version has to be the recommended one.
-/

namespace SecretFanout

/-! ## The order of versions -/

/-- Names of no known form rank in reverse. -/
theorem VersionRank.transCmp_name :
    Std.TransCmp fun a b : VersionRank => Ord.compare b.name a.name :=
  @Std.TransCmp.opposite _ (compareOn VersionRank.name) inferInstance

instance : Std.TransCmp VersionRank.compare :=
  haveI := VersionRank.transCmp_name
  inferInstanceAs (Std.TransCmp (compareLex (compareOn fun r : VersionRank => r.stability.level)
    (compareLex (compareOn VersionRank.major)
      (compareLex (compareOn fun r : VersionRank => r.minor.elim 0 (· + 1))
        fun a b : VersionRank => Ord.compare b.name a.name))))

/-- Whether a version ranks below another one, by their names. -/
def RanksBelow (a b : String) : Prop :=
  (VersionRank.ofName a).compare (VersionRank.ofName b) = .lt

instance (a b : String) : Decidable (RanksBelow a b) := inferInstanceAs (Decidable (_ = _))

theorem RanksBelow.asymm {a b : String} (h : RanksBelow a b) : ¬ RanksBelow b a :=
  Std.OrientedCmp.not_lt_of_lt h

theorem not_ranksBelow_trans {a b c : String} (hab : ¬ RanksBelow a b) (hbc : ¬ RanksBelow b c) :
    ¬ RanksBelow a c :=
  Ordering.isGE_iff_ne_lt.1 (Std.TransCmp.isGE_trans (Ordering.isGE_iff_ne_lt.2 hab)
    (Ordering.isGE_iff_ne_lt.2 hbc))

/-- Whether a name is the first of those in a list that rank highest. -/
def IsHighest (names : List String) (best : String) : Prop :=
  ∃ before after, names = before ++ best :: after ∧ (∀ name ∈ before, RanksBelow name best) ∧
    ∀ name ∈ after, ¬ RanksBelow best name

/-- Nothing ranks above the highest. -/
theorem IsHighest.not_ranksBelow {names : List String} {best name : String}
    (h : IsHighest names best) (hname : name ∈ names) : ¬ RanksBelow best name := by
  obtain ⟨before, after, rfl, hbefore, hafter⟩ := h
  rcases List.mem_append.1 hname with hname | hname
  · exact (hbefore name hname).asymm
  · rcases List.mem_cons.1 hname with rfl | hname
    · exact fun hself => hself.asymm hself
    · exact hafter name hname

theorem highest?_cons (name : String) (rest : List String) :
    highest? (name :: rest) = match highest? rest with
      | none => some name
      | some best => if RanksBelow name best then some best else some name := by
  rw [highest?]
  rfl

theorem highest?_eq_none_iff {names : List String} : highest? names = none ↔ names = [] := by
  cases names with
  | nil => simp [highest?]
  | cons name rest =>
    rw [highest?_cons]
    cases highest? rest with
    | none => simp
    | some best => by_cases h : RanksBelow name best <;> simp [h]

theorem isHighest_of_highest? {names : List String} {best : String}
    (h : highest? names = some best) : IsHighest names best := by
  induction names generalizing best with
  | nil => cases h
  | cons name rest ih =>
    rw [highest?_cons] at h
    cases hrest : highest? rest with
    | none =>
      simp only [hrest, Option.some.injEq] at h
      subst h
      rw [highest?_eq_none_iff.1 hrest]
      exact ⟨[], [], rfl, by simp, by simp⟩
    | some other =>
      simp only [hrest] at h
      have hother := ih hrest
      split at h
      · next hbelow =>
        obtain rfl := Option.some.inj h
        obtain ⟨before, after, rfl, hbefore, hafter⟩ := hother
        refine ⟨name :: before, after, rfl, ?_, hafter⟩
        exact List.forall_mem_cons.2 ⟨hbelow, hbefore⟩
      · next hbelow =>
        obtain rfl := Option.some.inj h
        exact ⟨[], rest, rfl, by simp,
          fun later hlater => not_ranksBelow_trans hbelow (hother.not_ranksBelow hlater)⟩

/-- The highest of several names is the first one that none ranks above. -/
theorem highest?_eq_some_iff {names : List String} {best : String} :
    highest? names = some best ↔ IsHighest names best := by
  refine ⟨isHighest_of_highest?, ?_⟩
  rintro ⟨before, after, rfl, hbefore, hafter⟩
  induction before with
  | nil =>
    rw [List.nil_append, highest?_cons]
    cases hafter' : highest? after with
    | none => rfl
    | some other =>
      obtain ⟨_, _, hother, -, -⟩ := isHighest_of_highest? hafter'
      exact if_neg (hafter other (by rw [hother]; simp))
  | cons name before ih =>
    obtain ⟨hbelow, hbefore⟩ := List.forall_mem_cons.1 hbefore
    rw [List.cons_append, highest?_cons, ih hbefore]
    exact if_pos hbelow

/-- A stable version ranks above its successor's tries, and names of no known form are last. -/
example : highest? ["stable", "v2beta3", "v1", "v2alpha1"] = some "v1" := by decide +kernel

/-! ## What a group recommends -/

namespace ServedGroup

variable {g : ServedGroup}

/-- Whether the version of a group that is named so is the one that counts: the preferred one or,
if none is preferred, the first of the highest. -/
def RecommendsVersion (g : ServedGroup) (name : String) : Prop :=
  g.preferred = some name ∨
    g.preferred = none ∧ IsHighest (g.versions.map ServedVersion.name) name

theorem recommendedVersion?_eq_some_iff {name : String} :
    g.recommendedVersion? = some name ↔ g.RecommendsVersion name := by
  rw [recommendedVersion?, RecommendsVersion, ← highest?_eq_some_iff, Option.or_eq_some_iff]

/-- Whether a kind is recommended: it is in the first version with the name that counts. -/
def RecommendsKind (g : ServedGroup) (k : ServedKind) : Prop :=
  ∃ before v after, g.versions = before ++ v :: after ∧ (∀ w ∈ before, w.name ≠ v.name) ∧
    g.RecommendsVersion v.name ∧ k ∈ v.kinds

theorem mem_recommended_iff {k : ServedKind} : k ∈ g.recommended ↔ g.RecommendsKind k := by
  rw [recommended]
  constructor
  · intro hk
    cases hversion : g.recommendedVersion? with
    | none => simp [hversion] at hk
    | some name =>
      simp only [hversion] at hk
      cases hfound : g.versions.find? fun v => v.name = name with
      | none => simp [hfound] at hk
      | some v =>
        simp only [hfound] at hk
        obtain ⟨hname, before, after, hversions, hbefore⟩ :=
          List.find?_eq_some_iff_append.1 hfound
        obtain rfl := of_decide_eq_true hname
        exact ⟨before, v, after, hversions, by simpa using hbefore,
          recommendedVersion?_eq_some_iff.1 hversion, hk⟩
  · rintro ⟨before, v, after, hversions, hbefore, hrecommends, hk⟩
    have hfound : (g.versions.find? fun w => w.name = v.name) = some v :=
      List.find?_eq_some_iff_append.2 ⟨by simp, before, after, hversions, by simpa using hbefore⟩
    rw [recommendedVersion?_eq_some_iff.2 hrecommends]
    simpa only [hfound] using hk

/-- Whether copiers are served in their version of a group. -/
def OffersCopiers (g : ServedGroup) : Prop :=
  ∃ v ∈ g.versions, v.name = Copier.version ∧ ∃ k ∈ v.kinds, k.kind = Copier.kind

end ServedGroup

/-! ## What an answer recommends -/

/-- Whether copiers are served in their version of their group. -/
def OffersCopiers (groups : List ServedGroup) : Prop :=
  ∃ g ∈ groups, g.name = Copier.group ∧ g.OffersCopiers

/-- Whether the copiers' group, of several the last one, recommends copiers in their version. -/
def RecommendsCopiers (groups : List ServedGroup) : Prop :=
  ∃ before g after, groups = before ++ g :: after ∧ g.name = Copier.group ∧
    (∀ h ∈ after, h.name ≠ Copier.group) ∧
    ∃ k, g.RecommendsKind k ∧ k.kind = Copier.kind ∧ k.version = Copier.version

theorem getLast?_filter_eq_some_iff {groups : List ServedGroup} {g : ServedGroup} :
    (groups.filter fun g => g.name = Copier.group).getLast? = some g ↔
      ∃ before after, groups = before ++ g :: after ∧ g.name = Copier.group ∧
        ∀ h ∈ after, h.name ≠ Copier.group := by
  rw [List.getLast?_filter, List.find?_eq_some_iff_append]
  constructor
  · rintro ⟨hname, before, after, hgroups, hbefore⟩
    refine ⟨after.reverse, before.reverse, ?_, of_decide_eq_true hname, by simpa using hbefore⟩
    rw [← List.reverse_reverse groups, hgroups]
    simp
  · rintro ⟨before, after, rfl, hname, hafter⟩
    exact ⟨decide_eq_true hname, after.reverse, before.reverse, by simp, by simpa using hafter⟩

/-- Copiers count as served if their group recommends them in their version. -/
theorem servesCopiers_iff {groups : List ServedGroup} :
    servesCopiers groups = true ↔ RecommendsCopiers groups := by
  rw [servesCopiers]
  constructor
  · intro h
    cases hlast : (groups.filter fun g => g.name = Copier.group).getLast? with
    | none => simp [hlast] at h
    | some g =>
      simp only [hlast, List.any_eq_true] at h
      obtain ⟨k, hk, hcopier⟩ := h
      obtain ⟨before, after, hgroups, hname, hafter⟩ := getLast?_filter_eq_some_iff.1 hlast
      obtain ⟨hkind, hversion⟩ := of_decide_eq_true hcopier
      exact ⟨before, g, after, hgroups, hname, hafter, k,
        ServedGroup.mem_recommended_iff.1 hk, hkind, hversion⟩
  · rintro ⟨before, g, after, hgroups, hname, hafter, k, hk, hkind, hversion⟩
    rw [getLast?_filter_eq_some_iff.2 ⟨before, after, hgroups, hname, hafter⟩]
    exact List.any_eq_true.2
      ⟨k, ServedGroup.mem_recommended_iff.2 hk, decide_eq_true ⟨hkind, hversion⟩⟩

/-! ## Orderly answers -/

/-- What is served, in good order: groups have different names, versions of a group too, and
kinds are listed under their own version. -/
structure Orderly (groups : List ServedGroup) : Prop where
  /-- No two groups have one name. -/
  groups_nodup : (groups.map ServedGroup.name).Nodup
  /-- No two versions of a group have one name. -/
  versions_nodup : ∀ g ∈ groups, (g.versions.map ServedVersion.name).Nodup
  /-- Each kind has the version that it is listed under. -/
  version_eq : ∀ g ∈ groups, ∀ v ∈ g.versions, ∀ k ∈ v.kinds, k.version = v.name

/-- In a list without repeated values nothing in front or behind has the value of a member. -/
theorem ne_of_nodup_map {α β : Type} {f : α → β} {before after : List α} {a : α}
    (h : ((before ++ a :: after).map f).Nodup) :
    (∀ b ∈ before, f b ≠ f a) ∧ ∀ b ∈ after, f b ≠ f a := by
  rw [List.map_append, List.map_cons, List.nodup_append] at h
  obtain ⟨-, hafter, hapart⟩ := h
  refine ⟨fun b hb => ?_, fun b hb heq => ?_⟩
  · exact hapart _ (List.mem_map_of_mem hb) _ List.mem_cons_self
  · exact (List.nodup_cons.1 hafter).1 (heq ▸ List.mem_map_of_mem hb)

/-- In good order copiers are recommended if they are served in their version, and this is the
version that their group recommends. -/
theorem Orderly.recommendsCopiers_iff {groups : List ServedGroup} (h : Orderly groups) :
    RecommendsCopiers groups ↔
      ∃ g ∈ groups, g.name = Copier.group ∧ g.OffersCopiers ∧
        g.RecommendsVersion Copier.version := by
  constructor
  · rintro ⟨before, g, after, hgroups, hname, -, k, ⟨front, v, back, hversions, -, hrec, hk⟩,
      hkind, hversion⟩
    have hg : g ∈ groups := by simp [hgroups]
    have hv : v ∈ g.versions := by simp [hversions]
    have hnamed : v.name = Copier.version := by rw [← h.version_eq g hg v hv k hk, hversion]
    exact ⟨g, hg, hname, ⟨v, hv, hnamed, k, hk, hkind⟩, hnamed ▸ hrec⟩
  · rintro ⟨g, hg, hname, ⟨v, hv, hnamed, k, hk, hkind⟩, hrec⟩
    obtain ⟨before, after, rfl⟩ := List.append_of_mem hg
    obtain ⟨front, back, hversions⟩ := List.append_of_mem hv
    have hothers := (ne_of_nodup_map h.groups_nodup).2
    have hfirst := (ne_of_nodup_map (hversions ▸ h.versions_nodup g hg)).1
    refine ⟨before, g, after, rfl, hname, fun other hother => hname ▸ hothers other hother, k,
      ⟨front, v, back, hversions, hfirst, hnamed ▸ hrec, hk⟩, hkind, ?_⟩
    rw [h.version_eq g hg v hv k hk, hnamed]

end SecretFanout
