import SecretFanout.Proofs.Footprint
import SecretFanout.Proofs.Interruption

/-!
# What outcomes tell

The work on one copy, with calls that fail at will, and what its reply tells about it.

* `Cluster.raced` — the cluster as the readings of a work leave it: nothing has changed, unless
  others write behind the back of the reader.
* `Copier.Course` — the ways that the work can go; `run_syncTarget_course` says that these are all.
* `Copier.TellsTruth` — what a reply tells, and one lemma for each part of it that goes through
  these ways.
* `outcomes_tell_the_truth` — it is the truth.
-/

namespace SecretFanout

/-! ## Calls and their replies -/

namespace Exchange

/-- The call without its reply. -/
def call : Exchange → Call
  | .list _ => .list
  | .read key _ => .read key
  | .create secret _ => .create secret.key
  | .replace secret _ => .replace secret.key

/-- The error that a call was replied with. -/
def error? : Exchange → Option SyncError
  | .list (.error e) | .read _ (.error e) | .create _ (.error e) | .replace _ (.error e) => some e
  | _ => none

/-- What was read, if the reading was answered. -/
def seen? : Exchange → Option SecretKey
  | .read key (.ok _) => some key
  | _ => none

end Exchange

/-- A call is turned down, or it is answered. -/
theorem answerOr_cases {α σ : Type} (error : Cause → SyncError) (answer : σ → Reply α × σ) (s : σ)
    (script : List (Option Cause)) :
    (∃ e, answerOr error answer (s, script) = (.error e, s, script.tail)) ∨
    answerOr error answer (s, script) = ((answer s).1, (answer s).2, script.tail) := by
  cases hnext : nextRefusal script with
  | some cause => exact Or.inl ⟨error cause, answerOr_of_some hnext error answer s⟩
  | none => exact Or.inr (answerOr_of_none hnext error answer s)

/-! ## Readings -/

namespace Cluster

variable {cl : Cluster} {key k : SecretKey}

/-- The cluster after readings: the races for what was read have taken place. -/
def raced (cl : Cluster) (calls : List Exchange) : Cluster :=
  (calls.filterMap Exchange.seen?).foldl race cl

/-- If nobody else writes, readings change nothing. -/
theorem raced_of_no_races (h : cl.faults.races = []) (calls : List Exchange) :
    cl.raced calls = cl := by
  rw [raced]
  induction calls.filterMap Exchange.seen? with
  | nil => rfl
  | cons key rest ih =>
    have hrace : cl.race key = cl := by simp [race, h]
    rw [List.foldl_cons, hrace, ih]

/-- A race stores a secret again under another version, if it is there. -/
theorem get?_race (cl : Cluster) (key k : SecretKey) :
    (cl.race key).secrets.get? k = cl.secrets.get? k ∨
    k = key ∧ ∃ s v, cl.secrets.get? k = some s ∧
      (cl.race key).secrets.get? k = some (s.withVersion v) := by
  rw [race]
  split
  · dsimp only
    split
    · next s hs =>
      rw [get?_put]
      split
      · next hk => exact Or.inr ⟨hk, s, _, hk ▸ hs, rfl⟩
      · exact Or.inl rfl
    · exact Or.inl rfl
  · exact Or.inl rfl

theorem get?_race_of_ne (cl : Cluster) (h : k ≠ key) :
    (cl.race key).secrets.get? k = cl.secrets.get? k :=
  (get?_race cl key k).resolve_right fun hk => h hk.1

/-- What has not got another version in between has not been stored again. -/
theorem get?_race_of_version {old stored : Secret} (hold : cl.secrets.get? key = some old)
    (hstored : (cl.race key).secrets.get? key = some stored)
    (hversion : stored.metadata.resourceVersion = old.metadata.resourceVersion) : stored = old := by
  rcases get?_race cl key key with hsame | ⟨-, s, v, hs, hrace⟩
  · rw [hsame, hold] at hstored
    exact (Option.some.inj hstored).symm
  · obtain rfl : old = s := Option.some.inj (hold.symm.trans hs)
    obtain rfl : stored = old.withVersion v := Option.some.inj (hstored.symm.trans hrace)
    have hv : some v = old.metadata.resourceVersion := hversion
    rw [Secret.withVersion, hv]

/-! ## Calls that are answered or fail -/

/-- A reading fails and changes nothing, or it finds what is stored. -/
theorem flaky_read (cl : Cluster) (script : List (Option Cause)) (key : SecretKey) :
    (∃ e, direct.flaky.read key (cl, script) = (.error e, cl, script.tail)) ∨
    direct.flaky.read key (cl, script) = (.ok (cl.secrets.get? key), cl.race key, script.tail) := by
  rcases answerOr_cases (.reading key) (direct.read key) cl script with hfailed | hanswer
  · exact Or.inl hfailed
  · by_cases hfault : key ∈ cl.faults.reads
    · exact Or.inl ⟨.reading key (.store .timeout),
        hanswer.trans (by simp [direct, read, hfault, reply])⟩
    · exact Or.inr (hanswer.trans (by simp [direct, read, hfault, reply]))

/-- An addition fails and changes nothing, or there was nothing in its place. -/
theorem flaky_create (cl : Cluster) (script : List (Option Cause)) (x : Secret) :
    (∃ e, direct.flaky.create x (cl, script) = (.error e, cl, script.tail)) ∨
    cl.secrets.get? x.key = none ∧ direct.flaky.create x (cl, script) =
      (.ok (), cl.put x.key (withAssignedUid x.key x), script.tail) := by
  rcases answerOr_cases (.writing .create x.key) (direct.create x) cl script with
    hfailed | hanswer
  · exact Or.inl hfailed
  · rcases create_cases cl x.key x with ⟨hfree, hcreate⟩ | ⟨fault, hcreate⟩
    · exact Or.inr ⟨hfree, hanswer.trans (by simp [direct, hcreate, reply])⟩
    · exact Or.inl ⟨.writing .create x.key (.store fault),
        hanswer.trans (by simp [direct, hcreate, reply])⟩

/-- A replacement fails and changes nothing, or what it was made from was in its place. -/
theorem flaky_replace (cl : Cluster) (script : List (Option Cause)) (x : Secret) :
    (∃ e, direct.flaky.replace x (cl, script) = (.error e, cl, script.tail)) ∨
    ∃ stored, cl.secrets.get? x.key = some stored ∧
      stored.metadata.resourceVersion = x.metadata.resourceVersion ∧
      direct.flaky.replace x (cl, script) = (.ok (), cl.put x.key x, script.tail) := by
  rcases answerOr_cases (.writing .replace x.key) (direct.replace x) cl script with
    hfailed | hanswer
  · exact Or.inl hfailed
  · rcases replace_cases cl x.key x with ⟨stored, hstored, hversion, hreplace⟩ | ⟨fault, hreplace⟩
    · exact Or.inr ⟨stored, hstored, hversion, hanswer.trans (by simp [direct, hreplace, reply])⟩
    · exact Or.inl ⟨.writing .replace x.key (.store fault),
        hanswer.trans (by simp [direct, hreplace, reply])⟩

end Cluster

/-! ## The work on one copy -/

namespace Copier

/-- The ways that the work on one copy can go: the calls that are made with their replies, the
reply of the work, and the cluster afterwards. -/
inductive Course (c : Copier) (r : Rule) (ns : String) (cl : Cluster) :
    List Exchange → Reply Outcome → Cluster → Prop
  /-- The source itself stands in this namespace. -/
  | ownNamespace (hns : ns = r.source.ns) : Course c r ns cl [] (.ok .sameNamespace) cl
  /-- The source cannot be read. -/
  | sourceUnread (e : SyncError) : Course c r ns cl [.read r.source (.error e)] (.error e) cl
  /-- There is no source. -/
  | noSource (hsource : cl.secrets.get? r.source = none) :
      Course c r ns cl [.read r.source (.ok none)] (.ok .sourceMissing) (cl.race r.source)
  /-- The place of the copy cannot be read. -/
  | placeUnread (source : Secret) (e : SyncError) :
      Course c r ns cl
        [.read r.source (.ok (some source)), .read (r.copyKey ns) (.error e)]
        (.error e) (cl.race r.source)
  /-- What stands there is left alone. -/
  | left {source : Secret} {found : Option Secret} {outcome : Outcome}
      (hsource : cl.secrets.get? r.source = some source)
      (hfound : cl.secrets.get? (r.copyKey ns) = found)
      (hdecision : c.decide r ns source found = .leave outcome) :
      Course c r ns cl
        [.read r.source (.ok (some source)), .read (r.copyKey ns) (.ok found)]
        (.ok outcome) ((cl.race r.source).race (r.copyKey ns))
  /-- A copy is sent to its place, but it is not accepted. -/
  | refused (source : Secret) (found : Option Secret) {x : Secret} (hkey : x.key = r.copyKey ns)
      {write : Exchange} {e : SyncError}
      (hwrite : write = .create x (.error e) ∨ write = .replace x (.error e)) :
      Course c r ns cl
        [.read r.source (.ok (some source)), .read (r.copyKey ns) (.ok found), write]
        (.error e) ((cl.race r.source).race (r.copyKey ns))
  /-- A new copy is added. -/
  | added {source : Secret} (hsource : cl.secrets.get? r.source = some source)
      (hfound : cl.secrets.get? (r.copyKey ns) = none)
      (hfree : ((cl.race r.source).race (r.copyKey ns)).secrets.get? (r.copyKey ns) = none) :
      Course c r ns cl
        [.read r.source (.ok (some source)), .read (r.copyKey ns) (.ok none),
          .create (c.newCopy r ns source) (.ok ())]
        (.ok .created)
        (((cl.race r.source).race (r.copyKey ns)).put (r.copyKey ns)
          (Cluster.withAssignedUid (r.copyKey ns) (c.newCopy r ns source)))
  /-- A copy that is out of date is brought up to date. -/
  | replaced {source old : Secret} (hsource : cl.secrets.get? r.source = some source)
      (hfound : cl.secrets.get? (r.copyKey ns) = some old)
      (hold : ((cl.race r.source).race (r.copyKey ns)).secrets.get? (r.copyKey ns) = some old)
      (howns : (c.ownership r).owns old = true) (hstale : ¬ r.IsCurrent source old)
      (hkey : old.key = r.copyKey ns) :
      Course c r ns cl
        [.read r.source (.ok (some source)), .read (r.copyKey ns) (.ok (some old)),
          .replace (source.refreshed old (r.copyLabels source)) (.ok ())]
        (.ok .updated)
        (((cl.race r.source).race (r.copyKey ns)).put (r.copyKey ns)
          (source.refreshed old (r.copyLabels source)))

variable {c : Copier} {r : Rule} {ns : String} {cl : Cluster}

/-- What is left alone is not managed or up to date. -/
theorem outcome_of_leave {source : Secret} {found : Option Secret} {outcome : Outcome}
    (h : c.decide r ns source found = .leave outcome) :
    outcome = .notManaged ∨ outcome = .unchanged := by
  obtain ⟨_, _, hcases⟩ := decide_eq_leave h
  exact hcases.imp And.left And.left

/-- Reading the source changes nothing in the place of the copy. -/
theorem get?_race_source (hns : ns ≠ r.source.ns) :
    (cl.race r.source).secrets.get? (r.copyKey ns) = cl.secrets.get? (r.copyKey ns) :=
  Cluster.get?_race_of_ne cl fun h => hns (congrArg SecretKey.ns h)

/-- A decision is carried out in one of these ways. -/
theorem run_carryOut_course (hkeyed : cl.Keyed) (hns : ns ≠ r.source.ns) {source : Secret}
    (hsource : cl.secrets.get? r.source = some source) {found : Option Secret}
    (hfound : cl.secrets.get? (r.copyKey ns) = found) (script : List (Option Cause)) :
    ∃ reply cl' rest calls, (c.decide r ns source found).carryOut.run
        Cluster.direct.flaky.overheard (((cl.race r.source).race (r.copyKey ns), script),
          [.read r.source (.ok (some source)), .read (r.copyKey ns) (.ok found)]) =
        (reply, (cl', rest), calls) ∧ c.Course r ns cl calls reply cl' := by
  cases hdecision : c.decide r ns source found with
  | leave outcome => exact ⟨_, _, _, _, rfl, .left hsource hfound hdecision⟩
  | create x =>
    obtain ⟨rfl, rfl⟩ := decide_eq_create_iff.1 hdecision
    rcases Cluster.flaky_create ((cl.race r.source).race (r.copyKey ns)) script
      (c.newCopy r ns source) with ⟨e, hcreate⟩ | ⟨hfree, hcreate⟩
    · simp only [Decision.carryOut, Program.run, Gateway.overheard, hcreate]
      exact ⟨_, _, _, _, rfl, .refused source none rfl (Or.inl rfl)⟩
    · simp only [Decision.carryOut, Program.run, Gateway.overheard, hcreate]
      exact ⟨_, _, _, _, rfl, .added hsource hfound hfree⟩
  | replace x =>
    obtain ⟨old, rfl, howns, hstale, rfl⟩ := decide_eq_replace_iff.1 hdecision
    have hkey : old.key = r.copyKey ns := hkeyed _ _ hfound
    have hkey' : (source.refreshed old (r.copyLabels source)).key = r.copyKey ns := hkey
    rcases Cluster.flaky_replace ((cl.race r.source).race (r.copyKey ns)) script
      (source.refreshed old (r.copyLabels source)) with
      ⟨e, hreplace⟩ | ⟨stored, hstored, hversion, hreplace⟩
    · simp only [Decision.carryOut, Program.run, Gateway.overheard, hreplace]
      exact ⟨_, _, _, _, rfl, .refused source (some old) hkey' (Or.inr rfl)⟩
    · rw [hkey'] at hstored hreplace
      have hfound' := (get?_race_source hns).trans hfound
      obtain rfl : stored = old := Cluster.get?_race_of_version hfound' hstored hversion
      simp only [Decision.carryOut, Program.run, Gateway.overheard, hreplace]
      exact ⟨_, _, _, _, rfl, .replaced hsource hfound hstored howns hstale hkey⟩

/-- Whichever calls fail, the work on one copy goes one of these ways. -/
theorem run_syncTarget_course (c : Copier) (r : Rule) (ns : String) (hkeyed : cl.Keyed)
    (script : List (Option Cause)) :
    ∃ reply cl' rest calls,
      (c.syncTarget r ns).run Cluster.direct.flaky.overheard ((cl, script), []) =
        (reply, (cl', rest), calls) ∧ c.Course r ns cl calls reply cl' := by
  by_cases hns : ns = r.source.ns
  · rw [syncTarget, if_pos hns]
    exact ⟨_, _, _, _, rfl, .ownNamespace hns⟩
  · rw [syncTarget, if_neg hns]
    rcases Cluster.flaky_read cl script r.source with ⟨e, hread⟩ | hread
    · simp only [Program.run, Gateway.overheard, hread]
      exact ⟨_, _, _, _, rfl, .sourceUnread e⟩
    · simp only [Program.run, Gateway.overheard, hread]
      cases hsource : cl.secrets.get? r.source with
      | none => exact ⟨_, _, _, _, rfl, .noSource hsource⟩
      | some source =>
        rcases Cluster.flaky_read (cl.race r.source) script.tail (r.copyKey ns) with
          ⟨e, hread'⟩ | hread'
        · simp only [Program.run, hread']
          exact ⟨_, _, _, _, rfl, .placeUnread source e⟩
        · simp only [Program.run, hread']
          exact run_carryOut_course hkeyed hns hsource (get?_race_source hns).symm script.tail.tail

/-! ## What a reply tells -/

/-- What a reply tells about the work on one copy: about the cluster `cl` before it, the cluster
`mid` as its readings leave it, its calls with their replies, and the cluster `cl'` after it. -/
structure TellsTruth (c : Copier) (r : Rule) (ns : String) (cl mid : Cluster)
    (calls : List Exchange) (reply : Reply Outcome) (cl' : Cluster) : Prop where
  /-- The source is read, then the place of the copy, and then this place is written once; the work
  may stop in between, and nothing comes after. -/
  calls_in_order : ∃ write, (write = .create (r.copyKey ns) ∨ write = .replace (r.copyKey ns)) ∧
    calls.map Exchange.call <+: [.read r.source, .read (r.copyKey ns), write]
  /-- An error is the reply to the last call, and no such reply is passed over. -/
  error_iff : ∀ e, reply = .error e ↔ ∃ last, calls.getLast? = some last ∧ last.error? = some e
  /-- The work writes no other place and nothing else. -/
  elsewhere : cl'.namespaces = mid.namespaces ∧ cl'.copiers = mid.copiers ∧
    cl'.faults = mid.faults ∧
      ∀ key, key ≠ r.copyKey ns → cl'.secrets.get? key = mid.secrets.get? key
  /-- Only a copy that was made or written again is a change. -/
  unchanged_iff : cl'.secrets = mid.secrets ↔ reply ≠ .ok .created ∧ reply ≠ .ok .updated
  /-- A copy was made: its place was empty, and now there is a secret with the contents and the mark
  of a copy, with the copier as its owner if it is to go with it, and with nothing else but what
  the cluster gives to a new secret. -/
  created : reply = .ok .created → cl.secrets.get? (r.copyKey ns) = none ∧
    mid.secrets.get? (r.copyKey ns) = none ∧ ∃ source owners,
      cl.secrets.get? r.source = some source ∧ cl'.secrets.get? (r.copyKey ns) = some {
        metadata := {
          name := some r.copyName
          ns := some ns
          uid := some (Cluster.assignedUid (r.copyKey ns))
          resourceVersion := some (Text.natText (mid.version + 1))
          labels := some (source.labels.overlay r.template.labels)
          annotations := some (Ownership.mk c.name r.source.text).toAnnotations
          ownerReferences := owners }
        type := source.type
        data := source.data } ∧
      (∀ name uid, r.reclaim = .delete → c.metadata.name = some name → c.metadata.uid = some uid →
        owners = some [{
          apiVersion := apiVersion
          kind := kind
          name := name
          uid := uid
          controller := some true }]) ∧
      (r.reclaim = .retain ∨ c.metadata.name = none ∨ c.metadata.uid = none → owners = none)
  /-- A copy was written again: it carried the mark, and its type, its data or its labels were not
  what they should be; now they are, and everything else is as it was. -/
  updated : reply = .ok .updated → ∃ source old, cl.secrets.get? r.source = some source ∧
    cl.secrets.get? (r.copyKey ns) = some old ∧ mid.secrets.get? (r.copyKey ns) = some old ∧
    (Ownership.mk c.name r.source.text).owns old = true ∧
    (old.type ≠ source.type ∨ old.data ≠ source.data ∨
      old.labels ≠ source.labels.overlay r.template.labels) ∧
    cl'.secrets.get? (r.copyKey ns) = some { old with
      type := source.type
      data := source.data
      metadata := { old.metadata with
        labels := some (source.labels.overlay r.template.labels)
        resourceVersion := some (Text.natText (mid.version + 1)) } }
  /-- A copy was found that carried the mark and was what it should be. -/
  unchanged : reply = .ok .unchanged → ∃ source old, cl.secrets.get? r.source = some source ∧
    cl.secrets.get? (r.copyKey ns) = some old ∧
    (Ownership.mk c.name r.source.text).owns old = true ∧ old.type = source.type ∧
    old.data = source.data ∧ old.labels = source.labels.overlay r.template.labels
  /-- A secret was found without the mark. -/
  notManaged : reply = .ok .notManaged → ∃ source old, cl.secrets.get? r.source = some source ∧
    cl.secrets.get? (r.copyKey ns) = some old ∧
    (Ownership.mk c.name r.source.text).owns old = false
  /-- No source was found. -/
  sourceMissing : reply = .ok .sourceMissing → cl.secrets.get? r.source = none
  /-- The namespace is the source's, and nothing was asked for. -/
  sameNamespace : reply = .ok .sameNamespace → ns = r.source.ns ∧ calls = []

namespace Course

variable {calls : List Exchange} {reply : Reply Outcome} {cl' : Cluster}

theorem calls_in_order (h : c.Course r ns cl calls reply cl') :
    ∃ write, (write = .create (r.copyKey ns) ∨ write = .replace (r.copyKey ns)) ∧
      calls.map Exchange.call <+: [.read r.source, .read (r.copyKey ns), write] := by
  cases h with
  | ownNamespace _ => exact ⟨_, Or.inl rfl, List.nil_prefix⟩
  | sourceUnread _ => exact ⟨_, Or.inl rfl, _, rfl⟩
  | noSource _ => exact ⟨_, Or.inl rfl, _, rfl⟩
  | placeUnread _ _ => exact ⟨_, Or.inl rfl, _, rfl⟩
  | left _ _ _ => exact ⟨_, Or.inl rfl, _, rfl⟩
  | refused _ _ hkey hwrite =>
    rcases hwrite with rfl | rfl
    · exact ⟨_, Or.inl rfl, by simp [Exchange.call, hkey]⟩
    · exact ⟨_, Or.inr rfl, by simp [Exchange.call, hkey]⟩
  | added _ _ _ => exact ⟨_, Or.inl rfl, [], rfl⟩
  | replaced _ _ _ _ _ hkey => exact ⟨_, Or.inr rfl, by simp [Exchange.call, hkey]⟩

theorem error_iff (h : c.Course r ns cl calls reply cl') (e : SyncError) :
    reply = .error e ↔ ∃ last, calls.getLast? = some last ∧ last.error? = some e := by
  cases h with
  | refused _ _ _ hwrite => rcases hwrite with rfl | rfl <;> simp [Exchange.error?]
  | _ => simp [Exchange.error?]

/-- The work leaves the cluster as its readings do, or it stores a secret that was not there. -/
theorem effect (h : c.Course r ns cl calls reply cl') :
    cl' = cl.raced calls ∧ reply ≠ .ok .created ∧ reply ≠ .ok .updated ∨
    ∃ x, cl' = (cl.raced calls).put (r.copyKey ns) x ∧
      (∀ v, (cl.raced calls).secrets.get? (r.copyKey ns) ≠ some (x.withVersion v)) ∧
      (reply = .ok .created ∨ reply = .ok .updated) := by
  cases h with
  | ownNamespace _ | sourceUnread _ | noSource _ | placeUnread _ _ =>
    exact Or.inl ⟨rfl, by simp, by simp⟩
  | left _ _ hdecision =>
    rcases outcome_of_leave hdecision with rfl | rfl <;> exact Or.inl ⟨rfl, by simp, by simp⟩
  | refused _ _ _ hwrite =>
    rcases hwrite with rfl | rfl <;> exact Or.inl ⟨rfl, by simp, by simp⟩
  | added _ _ hfree =>
    refine Or.inr ⟨_, rfl, fun v hv => ?_, Or.inl rfl⟩
    cases hfree.symm.trans hv
  | @replaced source old _ _ hold _ hstale _ =>
    refine Or.inr ⟨_, rfl, fun v hv => hstale ?_, Or.inr rfl⟩
    rw [Option.some.inj (hold.symm.trans hv)]
    exact (isCurrent_refreshed r source old).withVersion v

theorem elsewhere (h : c.Course r ns cl calls reply cl') :
    cl'.namespaces = (cl.raced calls).namespaces ∧ cl'.copiers = (cl.raced calls).copiers ∧
      cl'.faults = (cl.raced calls).faults ∧
        ∀ key, key ≠ r.copyKey ns →
          cl'.secrets.get? key = (cl.raced calls).secrets.get? key := by
  rcases h.effect with ⟨rfl, -⟩ | ⟨x, rfl, -⟩
  · exact ⟨rfl, rfl, rfl, fun _ _ => rfl⟩
  · refine ⟨rfl, rfl, rfl, fun key hkey => ?_⟩
    rw [Cluster.get?_put, if_neg hkey]

theorem unchanged_iff (h : c.Course r ns cl calls reply cl') :
    cl'.secrets = (cl.raced calls).secrets ↔ reply ≠ .ok .created ∧ reply ≠ .ok .updated := by
  rcases h.effect with ⟨rfl, hcreated, hupdated⟩ | ⟨x, rfl, hnew, hreply⟩
  · exact iff_of_true rfl ⟨hcreated, hupdated⟩
  · refine iff_of_false (fun hsame => ?_) fun hreply' => ?_
    · have hstored := Cluster.get?_put (cl.raced calls) (r.copyKey ns) (r.copyKey ns) x
      rw [if_pos rfl, hsame] at hstored
      exact hnew _ hstored
    · exact hreply.elim hreply'.1 hreply'.2

end Course

/-- The copier is the owner of new copies if they are to go with it and it has what this takes. -/
theorem copyOwners_of_delete {name uid : String} (hreclaim : r.reclaim = .delete)
    (hname : c.metadata.name = some name) (huid : c.metadata.uid = some uid) :
    c.copyOwners r = some [{
      apiVersion := apiVersion
      kind := kind
      name := name
      uid := uid
      controller := some true }] := by
  simp [copyOwners, hreclaim, ownerReference?, hname, huid]

/-- Otherwise they have no owner. -/
theorem copyOwners_eq_none
    (h : r.reclaim = .retain ∨ c.metadata.name = none ∨ c.metadata.uid = none) :
    c.copyOwners r = none := by
  cases hreclaim : r.reclaim with
  | retain => simp [copyOwners, hreclaim]
  | delete =>
    have howner : c.ownerReference? = none := by
      rw [hreclaim] at h
      rcases h with h | h | h
      · cases h
      · simp [ownerReference?, h]
      · cases hname : c.metadata.name <;> simp [ownerReference?, hname, h]
    simp [copyOwners, hreclaim, howner]

/-- Each of the ways that the work can go tells the truth. -/
theorem Course.tellsTruth {calls : List Exchange} {reply : Reply Outcome} {cl' : Cluster}
    (h : c.Course r ns cl calls reply cl') :
    c.TellsTruth r ns cl (cl.raced calls) calls reply cl' where
  calls_in_order := h.calls_in_order
  error_iff := h.error_iff
  elsewhere := h.elsewhere
  unchanged_iff := h.unchanged_iff
  created := by
    rintro rfl
    cases h with
    | left _ _ hdecision => rcases outcome_of_leave hdecision with h | h <;> cases h
    | added hsource hfound hfree =>
      refine ⟨hfound, hfree, _, _, hsource, ?_, fun _ _ => copyOwners_of_delete, copyOwners_eq_none⟩
      rw [Cluster.get?_put, if_pos rfl]
      rfl
  updated := by
    rintro rfl
    cases h with
    | left _ _ hdecision => rcases outcome_of_leave hdecision with h | h <;> cases h
    | replaced hsource hfound hold howns hstale _ =>
      refine ⟨_, _, hsource, hfound, hold, howns, ?_, ?_⟩
      · by_contra hsame
        simp only [not_or, not_not] at hsame
        exact hstale ⟨hsame.1, hsame.2.1, hsame.2.2⟩
      · rw [Cluster.get?_put, if_pos rfl]
        rfl
  unchanged := by
    rintro rfl
    cases h with
    | left hsource hfound hdecision =>
      obtain ⟨old, rfl, ⟨h, -⟩ | ⟨-, howns, hcurrent⟩⟩ := decide_eq_leave hdecision
      · cases h
      · obtain ⟨htype, hdata, hlabels⟩ := hcurrent
        exact ⟨_, old, hsource, hfound, howns, htype, hdata, hlabels⟩
  notManaged := by
    rintro rfl
    cases h with
    | left hsource hfound hdecision =>
      obtain ⟨old, rfl, ⟨-, howns⟩ | ⟨h, -⟩⟩ := decide_eq_leave hdecision
      · exact ⟨_, old, hsource, hfound, howns⟩
      · cases h
  sourceMissing := by
    rintro rfl
    cases h with
    | noSource hsource => exact hsource
    | left _ _ hdecision => rcases outcome_of_leave hdecision with h | h <;> cases h
  sameNamespace := by
    rintro rfl
    cases h with
    | ownNamespace hns => exact ⟨hns, rfl⟩
    | left _ _ hdecision => rcases outcome_of_leave hdecision with h | h <;> cases h

end Copier

/-- **Outcomes tell the truth.**  Let the work on one copy be done in any cluster whose secrets
stand under their own keys, with any of its calls turned down for any cause. It comes to an end
with a reply, and about its calls and the cluster afterwards this reply tells the truth.

* The source is read first, then the place of the copy. At most one write is made; it is the last
  call, and it is in the place of the copy.
* An error is the reply to the last call, and no such reply is passed over.
* No other place changes, and the secrets are as the readings leave them if and only if the reply is
  an error or another outcome than that the copy was made or written again.
* If the copy was made, its place was empty, and now it has the contents, the mark and the owner
  that are called for, and nothing else but what the cluster gives to it.
* If it was written again, it was marked and out of date, and now it has the type, the data and the
  labels that are called for, and is as it was in everything else but its version.
* Likewise each other outcome is about what was found.

The readings leave the cluster as it was, unless others write behind the back of the reader. -/
theorem outcomes_tell_the_truth (c : Copier) (r : Rule) (ns : String) (cl : Cluster)
    (hkeyed : cl.Keyed) (script : List (Option Cause)) :
    ∃ reply cl' rest calls,
      (c.syncTarget r ns).run Cluster.direct.flaky.overheard ((cl, script), []) =
        (reply, (cl', rest), calls) ∧
      c.TellsTruth r ns cl (cl.raced calls) calls reply cl' ∧
      (cl.faults.races = [] → cl.raced calls = cl) := by
  obtain ⟨reply, cl', rest, calls, hrun, hcourse⟩ :=
    Copier.run_syncTarget_course c r ns hkeyed script
  exact ⟨reply, cl', rest, calls, hrun, hcourse.tellsTruth,
    fun hraces => Cluster.raced_of_no_races hraces calls⟩

/-- In the small cluster the stale copy is written again, and keeps its mark; if the write is turned
down, the error says so, and the secrets are as they were. -/
theorem stale_token_is_updated_or_left :
    (∃ cl' rest calls, ((Sample.team [Sample.spread]).syncTarget Sample.spread "apps").run
        Cluster.direct.flaky.overheard ((Sample.cluster, []), []) =
          (.ok .updated, (cl', rest), calls) ∧
      ∃ source old, Sample.cluster.secrets.get? ⟨"vault", "token"⟩ = some source ∧
        Sample.cluster.secrets.get? ⟨"apps", "token"⟩ = some old ∧
        ∃ new, cl'.secrets.get? ⟨"apps", "token"⟩ = some new ∧ new.data = source.data ∧
          new.metadata.annotations = old.metadata.annotations) ∧
    ∃ cl' rest calls, ((Sample.team [Sample.spread]).syncTarget Sample.spread "apps").run
        Cluster.direct.flaky.overheard
          ((Sample.cluster, [none, none, some (.store .forbidden)]), []) =
            (.error (.writing .replace ⟨"apps", "token"⟩ (.store .forbidden)), (cl', rest), calls) ∧
      cl'.secrets = Sample.cluster.secrets := by
  have hkeyed : Sample.cluster.Keyed := Cluster.Keyed.start _ _
  constructor
  · obtain ⟨reply, cl', rest, calls, hrun, htruth, hquiet⟩ := outcomes_tell_the_truth
      (Sample.team [Sample.spread]) Sample.spread "apps" Sample.cluster hkeyed []
    obtain rfl : reply = .ok .updated := (congrArg Prod.fst hrun).symm
    rw [hquiet rfl] at htruth
    obtain ⟨source, old, hsource, hold, -, -, -, hnew⟩ := htruth.updated rfl
    exact ⟨cl', rest, calls, hrun, source, old, hsource, hold, _, hnew, rfl, rfl⟩
  · obtain ⟨reply, cl', rest, calls, hrun, htruth, hquiet⟩ := outcomes_tell_the_truth
      (Sample.team [Sample.spread]) Sample.spread "apps" Sample.cluster hkeyed
        [none, none, some (.store .forbidden)]
    obtain rfl : reply = .error (.writing .replace ⟨"apps", "token"⟩ (.store .forbidden)) :=
      (congrArg Prod.fst hrun).symm
    rw [hquiet rfl] at htruth
    exact ⟨cl', rest, calls, hrun, htruth.unchanged_iff.2 (by simp)⟩

end SecretFanout
