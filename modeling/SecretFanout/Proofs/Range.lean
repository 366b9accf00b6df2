import SecretFanout.Proofs.Grammar

/-!
# The range of durations

A duration is meant to fit into nanoseconds of 63 bits. What a sum of seconds is compared with is
the limit of that range in double precision, though, and the double next to it lies beyond.

* `dvd_of_total` — large sums of groups are far apart: near the limit, by 1.9 microseconds.
* `durations_fit_but_for_the_longest` — all durations fit, except the one of this very double.
* `longest_duration_does_not_fit` — and this one is read, also of what is written beyond the range.
-/

namespace SecretFanout.Duration

/-- The most nanoseconds that fit. -/
def mostNanos : Nat := 2 ^ 63 - 1

/-- A sum of groups is the coarser the larger it is: from a power of two on it is a multiple of a
smaller power, which has 52 bits less. -/
theorem dvd_of_total {groups : List Group} {ticks k : Nat} (h : total groups = .finite ticks)
    (hticks : 2 ^ (52 + k) ≤ ticks) : 2 ^ k ∣ ticks := by
  -- this is so for each sum on the way, as it was rounded
  have hsum : ∀ (groups : List Group) (sum : Binary64),
      (∀ ticks, sum = .finite ticks → 2 ^ (52 + k) ≤ ticks → 2 ^ k ∣ ticks) →
      ∀ ticks, groups.foldl (fun sum g => sum + g.seconds) sum = .finite ticks →
        2 ^ (52 + k) ≤ ticks → 2 ^ k ∣ ticks := by
    intro groups
    induction groups with
    | nil => exact fun sum hsum => hsum
    | cons g groups ih =>
      refine fun sum _ => ih (sum + g.seconds) fun ticks hadd => ?_
      cases sum with
      | infinite => cases hadd
      | finite a =>
        cases hg : g.seconds with
        | infinite =>
          rw [hg] at hadd
          cases hadd
        | finite b =>
          rw [hg, Binary64.finite_add_finite] at hadd
          exact Binary64.dvd_of_ofTicks Nat.one_pos hadd
  refine hsum groups 0 (fun ticks hzero hle => ?_) ticks h hticks
  obtain rfl : 0 = ticks := Binary64.finite.inj hzero
  exact absurd (Nat.two_pow_pos (52 + k)) (Nat.not_lt.2 hle)

/-- Between two neighbours on that scale there is no sum of groups. -/
theorem le_of_total_lt {groups : List Group} {ticks m next k : Nat}
    (h : total groups = .finite ticks) (hm : 2 ^ 52 ≤ m) (hnext : next = m + 1)
    (hlt : ticks < next * 2 ^ k) : ticks ≤ m * 2 ^ k := by
  by_contra hgt
  have hlarge : 2 ^ (52 + k) ≤ ticks :=
    calc 2 ^ (52 + k) = 2 ^ 52 * 2 ^ k := Nat.pow_add ..
      _ ≤ m * 2 ^ k := Nat.mul_le_mul_right _ hm
      _ ≤ ticks := Nat.le_of_not_le hgt
  obtain ⟨n, rfl⟩ := dvd_of_total h hlarge
  rw [Nat.mul_comm] at hlt hgt
  have hn : n < next := Nat.lt_of_mul_lt_mul_right hlt
  rw [hnext] at hn
  exact hgt (Nat.mul_le_mul_right _ (Nat.le_of_lt_succ hn))

/-- The sum that comes next below the longest duration is rounded to these nanoseconds. -/
theorem nearest_below_longest :
    (nearest (4835703278458516 * 2 ^ 1055)).nanos = 9223372036854774475 := by
  decide +kernel

/-- A sum below the longest duration fits. -/
theorem nanos_le_of_total_lt {groups : List Group} {ticks : Nat} (h : total groups = .finite ticks)
    (hlt : ticks < 4835703278458517 * 2 ^ 1055) : (nearest ticks).nanos ≤ mostNanos := by
  have hticks : ticks ≤ 4835703278458516 * 2 ^ 1055 := le_of_total_lt h (by decide) (by decide) hlt
  have hnanos := nanos_nearest_mono hticks
  rw [nearest_below_longest] at hnanos
  exact Nat.le_trans hnanos (by decide)

/-- The longest duration is held as nanoseconds that do not fit. -/
theorem settle_longest (text : List Char) :
    ∃ d, settle text longest = .ok d ∧ d.nanos = mostNanos + 575 := by
  have hle : Binary64.le longest longest = true := by decide +kernel
  obtain ⟨ticks, -, hticks, hsettle⟩ := settle_of_le hle text
  rw [longest_eq] at hticks
  refine ⟨nearest ticks, hsettle, ?_⟩
  rw [← Binary64.finite.inj hticks]
  exact nearest_longest

/-- A duration whose groups have the longest one as their sum does not fit. -/
theorem nanos_of_total_longest {v : List Char} {d : Duration} {sign : Sign} {groups : List Group}
    (h : read v = .ok d) (hsign : sign ≠ .minus) (hne : groups ≠ [])
    (htrim : Text.trim v = sign.text ++ written groups) (htotal : total groups = longest) :
    d.nanos = mostNanos + 575 := by
  obtain ⟨d', hsettle, hnanos⟩ := settle_longest (Text.trim v)
  rw [read_written sign htrim hne, if_neg hsign, htotal, hsettle] at h
  rw [← Except.ok.inj h, hnanos]

/-- **Durations fit, but for the longest one.**  A duration that is read has nanoseconds of 63
bits, or else it is one certain duration that lies 575 nanoseconds beyond. This one is read
exactly if the text is made of groups, without a minus sign in front, whose sum in double precision
is the very double that sums are compared with. -/
theorem durations_fit_but_for_the_longest (v : List Char) {d : Duration} (h : read v = .ok d) :
    (d.nanos ≤ mostNanos ∨ d.nanos = mostNanos + 575) ∧
    (mostNanos < d.nanos ↔ ∃ (sign : Sign) (groups : List Group), sign ≠ .minus ∧ groups ≠ [] ∧
      Text.trim v = sign.text ++ written groups ∧ total groups = longest) := by
  have hback : (∃ (sign : Sign) (groups : List Group), sign ≠ .minus ∧ groups ≠ [] ∧
      Text.trim v = sign.text ++ written groups ∧ total groups = longest) →
        mostNanos < d.nanos := by
    rintro ⟨sign, groups, hsign, hne, htrim, htotal⟩
    rw [nanos_of_total_longest h hsign hne htrim htotal]
    exact Nat.lt_add_of_pos_right (by decide)
  have hsmall : d.nanos ≤ mostNanos → ¬ mostNanos < d.nanos := Nat.not_lt.2
  rcases eq_zero_or_exists_total h with rfl |
    ⟨sign, groups, ticks, hsign, hne, htrim, htotal, hticks, rfl⟩
  · have hfits : (0 : Duration).nanos ≤ mostNanos := by decide
    exact ⟨Or.inl hfits, fun hgt => absurd hgt (hsmall hfits), hback⟩
  · rcases Nat.lt_or_eq_of_le hticks with hlt | heq
    · have hfits := nanos_le_of_total_lt htotal hlt
      exact ⟨Or.inl hfits, fun hgt => absurd hgt (hsmall hfits), hback⟩
    · have htop : total groups = longest := by rw [htotal, heq, longest_eq]
      have hnanos := nanos_of_total_longest h hsign hne htrim htop
      exact ⟨Or.inr hnanos, fun _ => ⟨sign, groups, hsign, hne, htrim, htop⟩, hback⟩

/-- The most nanoseconds that fit are read as more than these: their sum in double precision is
the double that sums are compared with. -/
theorem longest_duration_is_read :
    read "9223372036854775807ns".toList = .ok ⟨mostNanos + 575⟩ ∧
    ∃ (sign : Sign) (groups : List Group), sign ≠ .minus ∧ groups ≠ [] ∧
      Text.trim "9223372036854775807ns".toList = sign.text ++ written groups ∧
        total groups = longest := by
  have hread : read "9223372036854775807ns".toList = .ok ⟨mostNanos + 575⟩ := by decide +kernel
  have hlongest := (durations_fit_but_for_the_longest _ hread).2.1
  exact ⟨hread, hlongest (Nat.lt_add_of_pos_right (by decide))⟩

/-- **The longest duration does not fit.**  Nanoseconds beyond those that fit are read as a
duration instead of being refused, and as even more nanoseconds than are written. -/
theorem longest_duration_does_not_fit :
    ¬ ∀ (v : List Char) (d : Duration), read v = .ok d → d.nanos ≤ mostNanos := by
  intro hfits
  have hread : read "9223372036854776000ns".toList = .ok ⟨9223372036854776382⟩ := by decide +kernel
  exact absurd (hfits _ _ hread) (by decide)

end SecretFanout.Duration
