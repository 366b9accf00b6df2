import Mathlib.Algebra.BigOperators.Group.Finset.Basic
import Mathlib.Data.Nat.Find
import Mathlib.Order.WellFounded
import SecretFanout.Discovery.Client
import SecretFanout.Discovery.Wait
import SecretFanout.Proofs.Recommendation

/-!
# How long the start waits

A controller that waits at its start asks what the cluster serves, sleeps, and asks again, until an
answer recommends copiers in their version. Nothing else ends the wait, whatever is answered. It is
seen here through a window of so many seconds, which may be as long as one likes.

* `sleptBefore` — the time that is slept before a question.
* `awaitCopiers_eq_awaitFrom` — as long as no answer ends the wait, it goes on from one question to
  the next one.
* `wait_ends_at_first_recommendation` — when the wait ends, and after how long.
* `preferred_successor_prolongs_wait` — copiers that are served in their version are not seen if
  another version of their group is preferred.
-/

namespace SecretFanout

open Finset (sum_range_succ)

/-! ## Questions and answers -/

section

variable {σ ε : Type} (ask : σ → Except ε (List ServedGroup) × σ) (s : σ)

/-- What there is to be asked after so many questions. -/
def stateAfter : Nat → σ
  | 0 => s
  | k + 1 => (ask (stateAfter k)).2

/-- The answer to a question, counted from 0. -/
def answerTo (k : Nat) : Except ε (List ServedGroup) := (ask (stateAfter ask s k)).1

end

/-- The seconds that are slept before a question, counted from 0. -/
def sleptBefore (k : Nat) : Nat := ∑ i ∈ Finset.range k, min (10 * Nat.pow 2 i) 60

/-- Whether an answer brings the wait to its end: copiers are recommended in their version. -/
def EndsWait {ε : Type} (answer : Except ε (List ServedGroup)) : Prop :=
  ∃ groups, answer = .ok groups ∧ RecommendsCopiers groups

theorem sleptBefore_succ (k : Nat) : sleptBefore (k + 1) = sleptBefore k + pause k := by
  rw [sleptBefore, sum_range_succ, pause_eq]
  rfl

theorem sleptBefore_strictMono : StrictMono sleptBefore := by
  refine strictMono_nat_of_lt_succ fun k => ?_
  rw [sleptBefore_succ]
  exact Nat.lt_add_of_pos_right (pause_pos k)

theorem saysAvailable_iff {ε : Type} {answer : Except ε (List ServedGroup)} :
    saysAvailable answer = true ↔ EndsWait answer := by
  cases answer with
  | error e => simp [saysAvailable, EndsWait]
  | ok groups => simp [saysAvailable, EndsWait, servesCopiers_iff]

/-! ## The wait, question by question -/

section

variable {σ ε : Type} {ask : σ → Except ε (List ServedGroup) × σ} {s : σ} {limit k : Nat}

/-- An answer that brings the wait to its end does so at once. -/
theorem awaitFrom_of_endsWait (htime : sleptBefore k < limit) (hends : EndsWait (answerTo ask s k)) :
    awaitFrom ask limit k (sleptBefore k) (stateAfter ask s k) =
      ({ available := true, elapsed := sleptBefore k, polls := k + 1 },
        stateAfter ask s (k + 1)) := by
  have hyes : saysAvailable (ask (stateAfter ask s k)).1 = true := saysAvailable_iff.2 hends
  rw [awaitFrom, if_pos htime]
  simp only [hyes, if_true]
  rfl

/-- After any other answer there is a pause and another question. -/
theorem awaitFrom_of_not_endsWait (htime : sleptBefore k < limit)
    (hgoes : ¬ EndsWait (answerTo ask s k)) :
    awaitFrom ask limit k (sleptBefore k) (stateAfter ask s k) =
      awaitFrom ask limit (k + 1) (sleptBefore (k + 1)) (stateAfter ask s (k + 1)) := by
  have hno : ¬ saysAvailable (ask (stateAfter ask s k)).1 = true :=
    fun hyes => hgoes (saysAvailable_iff.1 hyes)
  rw [awaitFrom, if_pos htime, sleptBefore_succ]
  simp only [hno]
  rfl

/-- At the end of the window the wait is still going on. -/
theorem awaitFrom_of_le (htime : limit ≤ sleptBefore k) :
    awaitFrom ask limit k (sleptBefore k) (stateAfter ask s k) =
      ({ available := false, elapsed := limit, polls := k }, stateAfter ask s k) := by
  rw [awaitFrom, if_neg (Nat.not_lt.2 htime)]

/-- As long as no answer ends the wait, it comes to every question within the window. -/
theorem awaitCopiers_eq_awaitFrom {n : Nat} (htime : ∀ m < n, sleptBefore m < limit)
    (hgoes : ∀ m < n, ¬ EndsWait (answerTo ask s m)) :
    awaitCopiers ask limit s = awaitFrom ask limit n (sleptBefore n) (stateAfter ask s n) := by
  induction n with
  | zero => rfl
  | succ n ih =>
    rw [ih (fun m hm => htime m (Nat.lt_succ_of_lt hm)) fun m hm => hgoes m (Nat.lt_succ_of_lt hm)]
    exact awaitFrom_of_not_endsWait (htime n n.lt_succ_self) (hgoes n n.lt_succ_self)

/-- Within any window there is a number of questions. -/
theorem exists_questions (limit : Nat) : ∃ polls, ∀ k, k < polls ↔ sleptBefore k < limit := by
  have hlate : ∃ k, limit ≤ sleptBefore k := ⟨limit, sleptBefore_strictMono.le_apply⟩
  refine ⟨Nat.find hlate, fun k => ?_⟩
  rw [Nat.lt_find_iff]
  constructor
  · exact fun h => Nat.lt_of_not_le (h k k.le_refl)
  · intro htime m hm
    exact Nat.not_le.2 (Nat.lt_of_le_of_lt (sleptBefore_strictMono.monotone hm) htime)

/-! ## The whole wait -/

/-- The first answer that brings the wait to its end is the last one that is asked for. -/
theorem awaitCopiers_of_endsWait {n : Nat} (htime : sleptBefore n < limit)
    (hends : EndsWait (answerTo ask s n)) (hgoes : ∀ m < n, ¬ EndsWait (answerTo ask s m)) :
    awaitCopiers ask limit s =
      ({ available := true, elapsed := sleptBefore n, polls := n + 1 },
        stateAfter ask s (n + 1)) := by
  have hbefore : ∀ m < n, sleptBefore m < limit :=
    fun m hm => Nat.lt_trans (sleptBefore_strictMono hm) htime
  rw [awaitCopiers_eq_awaitFrom hbefore hgoes, awaitFrom_of_endsWait htime hends]

/-- Without such an answer every question within the window is asked. -/
theorem awaitCopiers_of_not_endsWait
    (hgoes : ∀ n, sleptBefore n < limit → ¬ EndsWait (answerTo ask s n)) :
    ∃ polls, (∀ k, k < polls ↔ sleptBefore k < limit) ∧
      awaitCopiers ask limit s =
        ({ available := false, elapsed := limit, polls }, stateAfter ask s polls) := by
  obtain ⟨polls, hpolls⟩ := exists_questions limit
  have htime : ∀ m < polls, sleptBefore m < limit := fun m hm => (hpolls m).1 hm
  have hlate : limit ≤ sleptBefore polls :=
    Nat.le_of_not_lt fun h => Nat.lt_irrefl polls ((hpolls polls).2 h)
  refine ⟨polls, hpolls, ?_⟩
  rw [awaitCopiers_eq_awaitFrom htime fun m hm => hgoes m (htime m hm), awaitFrom_of_le hlate]

end

/-- **The wait ends with the first answer that recommends copiers in their version.**  Let a cluster
be asked again and again, with any answers, and let the wait be seen for so many seconds. Before a
question as much is slept as `sleptBefore` says, `min (10 * 2 ^ i) 60` seconds after each earlier
question `i`, counted from 0.

* If an answer within the time is the first one that recommends copiers in their version, then it
  ends the wait, and no question comes after it.
* If there is no such answer within the time, then the wait is still going on, whatever errors
  there were, and there have been as many questions as fit between the pauses.
* An answer in good order recommends copiers in their version if and only if they are served in
  their version, and this is the one that their group prefers or, if it prefers none, the first of
  those that rank highest. -/
theorem wait_ends_at_first_recommendation {σ ε : Type}
    (ask : σ → Except ε (List ServedGroup) × σ) (s : σ) (limit : Nat) :
    (∀ n, sleptBefore n < limit → EndsWait (answerTo ask s n) →
      (∀ m < n, ¬ EndsWait (answerTo ask s m)) →
        awaitCopiers ask limit s =
          ({ available := true, elapsed := sleptBefore n, polls := n + 1 },
            stateAfter ask s (n + 1))) ∧
    ((∀ n, sleptBefore n < limit → ¬ EndsWait (answerTo ask s n)) →
      ∃ polls, (∀ k, k < polls ↔ sleptBefore k < limit) ∧
        awaitCopiers ask limit s =
          ({ available := false, elapsed := limit, polls }, stateAfter ask s polls)) ∧
    ∀ n groups, answerTo ask s n = .ok groups → Orderly groups →
      (EndsWait (answerTo ask s n) ↔
        ∃ g ∈ groups, g.name = Copier.group ∧ g.OffersCopiers ∧
          g.RecommendsVersion Copier.version) := by
  refine ⟨?_, ?_, ?_⟩
  · exact fun n htime hends hgoes => awaitCopiers_of_endsWait htime hends hgoes
  · exact fun hgoes => awaitCopiers_of_not_endsWait hgoes
  · intro n groups hanswer horderly
    rw [← horderly.recommendsCopiers_iff, EndsWait, hanswer]
    simp

namespace Sample

/-- A version in which copiers are served. -/
def copierVersion (name : String) : ServedVersion :=
  { name, kinds := [{ kind := Copier.kind, version := name }] }

/-- The copiers' group before it has another version. -/
def plain : ServedGroup := { name := Copier.group, versions := [copierVersion Copier.version] }

/-- The copiers' group with a successor of their version, which is preferred. -/
def succeeded : ServedGroup where
  name := Copier.group
  preferred := some "v1"
  versions := [copierVersion "v1", copierVersion Copier.version]

/-- A cluster that cannot be asked at first, then has the successor, and then takes it back. -/
def wavering (k : Nat) : Except DiscoveryError (List ServedGroup) × Nat :=
  (match k with
    | 0 => .error .emptyGroup
    | 1 => .ok [succeeded]
    | _ => .ok [plain], k + 1)

/-- A cluster that has the successor all the time. -/
def upgraded (_ : Unit) : Except DiscoveryError (List ServedGroup) × Unit := (.ok [succeeded], ())

theorem succeeded_orderly : Orderly [succeeded] where
  groups_nodup := by decide
  versions_nodup := by decide
  version_eq := by decide

theorem succeeded_offersCopiers : OffersCopiers [succeeded] :=
  ⟨succeeded, List.mem_cons_self, rfl, copierVersion Copier.version, by simp [succeeded], rfl, _,
    List.mem_cons_self, rfl⟩

end Sample

/-- Where the first question fails and the second one is answered with a preferred successor, the
third one ends the wait, after ten seconds and twenty more. -/
theorem third_answer_ends_wait :
    awaitCopiers Sample.wavering 600 0 = ({ available := true, elapsed := 30, polls := 3 }, 3) := by
  obtain ⟨hfirst, -, hwhen⟩ := wait_ends_at_first_recommendation Sample.wavering 0 600
  have hends : EndsWait (answerTo Sample.wavering 0 2) :=
    saysAvailable_iff.1 (by decide +kernel)
  have hgoes : ∀ m < 2, ¬ EndsWait (answerTo Sample.wavering 0 m) := by
    intro m hm
    obtain rfl | rfl : m = 0 ∨ m = 1 := by omega
    · rintro ⟨groups, hanswer, -⟩
      cases hanswer
    · rw [hwhen 1 [Sample.succeeded] rfl Sample.succeeded_orderly]
      rintro ⟨g, hg, -, -, hrecommends⟩
      obtain rfl := List.mem_singleton.1 hg
      rcases hrecommends with hpreferred | ⟨hnone, -⟩
      · exact absurd hpreferred (by decide)
      · cases hnone
  exact hfirst 2 (by decide) hends hgoes

/-- Copiers are served in their version by each answer, but their group prefers a successor of it:
however long one waits, the wait does not come to its end. -/
theorem preferred_successor_prolongs_wait :
    (∀ k, answerTo Sample.upgraded () k = .ok [Sample.succeeded]) ∧
      OffersCopiers [Sample.succeeded] ∧
      ∀ limit, (awaitCopiers Sample.upgraded limit ()).1.available = false := by
  refine ⟨fun _ => rfl, Sample.succeeded_offersCopiers, fun limit => ?_⟩
  have hpassed : ¬ RecommendsCopiers [Sample.succeeded] := by
    rw [← servesCopiers_iff]
    decide +kernel
  have hgoes : ∀ n, sleptBefore n < limit → ¬ EndsWait (answerTo Sample.upgraded () n) := by
    rintro n - ⟨groups, hanswer, hrecommends⟩
    exact hpassed (Except.ok.inj hanswer ▸ hrecommends)
  obtain ⟨polls, -, hwait⟩ := awaitCopiers_of_not_endsWait hgoes
  rw [hwait]

end SecretFanout
