import Mathlib.Tactic.Ring
import Mathlib.Tactic.SplitIfs
import SecretFanout.Number.Binary64

/-!
# Rounding

What rounding to double precision keeps: the order of numbers, and every number that has no more
than 53 significant bits.

* `divNearestEven_mono`, `divNearestEven_mul` — quotients that are rounded stay in order, and a
  whole quotient is not changed.
* `ofTicks_exact` — a number of 53 significant bits is not changed.
* `le_ofTicks` — a number from a power of two on is not brought below that power.
* `dvd_of_ofTicks` — numbers in double precision are the coarser the larger they are.
-/

namespace SecretFanout

/-! ## Quotients -/

theorem div_le_divNearestEven (num den : Nat) : num / den ≤ divNearestEven num den := by
  unfold divNearestEven
  dsimp only
  split
  · exact Nat.le_refl _
  · split
    · omega
    · split <;> omega

theorem divNearestEven_le_div_add_one (num den : Nat) : divNearestEven num den ≤ num / den + 1 := by
  unfold divNearestEven
  dsimp only
  split
  · omega
  · split
    · exact Nat.le_refl _
    · split <;> omega

/-- Rounded quotients stay in order. -/
theorem divNearestEven_mono {a b : Nat} (den : Nat) (h : a ≤ b) :
    divNearestEven a den ≤ divNearestEven b den := by
  rcases Nat.lt_or_ge (a / den) (b / den) with hlt | hge
  · calc divNearestEven a den ≤ a / den + 1 := divNearestEven_le_div_add_one a den
      _ ≤ b / den := hlt
      _ ≤ divNearestEven b den := div_le_divNearestEven b den
  · -- the same quotient, so that the remainders decide
    have hquot : a / den = b / den := Nat.le_antisymm (Nat.div_le_div_right h) hge
    have hrem : a % den ≤ b % den := by
      have ha := Nat.div_add_mod a den
      have hb := Nat.div_add_mod b den
      rw [hquot] at ha
      omega
    unfold divNearestEven
    dsimp only
    rw [hquot]
    split_ifs <;> omega

/-- A whole quotient is not rounded. -/
theorem divNearestEven_mul (n : Nat) {den : Nat} (hden : 0 < den) :
    divNearestEven (n * den) den = n := by
  simp [divNearestEven, Nat.mul_div_cancel n hden, hden]

namespace Binary64

/-! ## Numbers of few bits -/

theorem spacing_pos (num den : Nat) : 0 < spacing num den := Nat.two_pow_pos _

/-- A multiple of the spacing at it is not rounded. -/
theorem ofTicks_of_dvd {t den : Nat} (hden : 0 < den) (hdvd : spacing (t * den) den ∣ t)
    (hlimit : t < tickLimit) : ofTicks (t * den) den = .finite t := by
  have hunit := spacing_pos (t * den) den
  obtain ⟨k, hk⟩ := hdvd
  have hround : divNearestEven (t * den) (den * spacing (t * den) den) = k := by
    generalize spacing (t * den) den = unit at hk hunit ⊢
    rw [hk, show unit * k * den = k * (den * unit) by ring]
    exact divNearestEven_mul k (Nat.mul_pos hden hunit)
  rw [Nat.mul_comm] at hk
  simp only [ofTicks, hround, ← hk, if_pos hlimit]

/-- A number of at most 53 significant bits is not rounded. -/
theorem ofTicks_exact {m e den : Nat} (hden : 0 < den) (hm : m < 2 ^ precision)
    (hlimit : m * 2 ^ e < tickLimit) : ofTicks (m * 2 ^ e * den) den = .finite (m * 2 ^ e) := by
  refine ofTicks_of_dvd hden ?_ hlimit
  have hshift : (m * 2 ^ e).log2 + 1 - precision ≤ e := by
    by_cases hzero : m * 2 ^ e = 0
    · rw [hzero]
      simp [precision]
    · have hlt : m * 2 ^ e < 2 ^ (precision + e) := by
        rw [Nat.pow_add]
        exact Nat.mul_lt_mul_of_pos_right hm (Nat.two_pow_pos e)
      have := (Nat.log2_lt hzero).2 hlt
      omega
  rw [spacing, Nat.mul_div_cancel _ hden]
  exact Nat.dvd_mul_left_of_dvd (Nat.pow_dvd_pow 2 hshift) m

theorem finite_add_finite (a b : Nat) : finite a + finite b = ofTicks (a + b) 1 := by
  change add (finite a) (finite b) = _
  rw [add]

theorem finite_mul_finite (a b : Nat) : finite a * finite b = ofTicks (a * b) ticksPerUnit := by
  change mul (finite a) (finite b) = _
  rw [mul]

/-! ## Powers of two -/

/-- A number from a power of two on is not brought below that power. -/
theorem le_ofTicks {num den k : Nat} (hden : 0 < den) (h : 2 ^ k * den ≤ num) :
    le (.finite (2 ^ k)) (ofTicks num den) = true := by
  have hquot : 2 ^ k ≤ num / den := (Nat.le_div_iff_mul_le hden).2 h
  have hne : num / den ≠ 0 := Nat.ne_of_gt (Nat.lt_of_lt_of_le (Nat.two_pow_pos k) hquot)
  have hk : k ≤ (num / den).log2 := (Nat.le_log2 hne).2 hquot
  have hshift : (num / den).log2 + 1 - precision ≤ (num / den).log2 := by
    simp only [precision]
    omega
  have hticks : 2 ^ k ≤ divNearestEven num (den * spacing num den) * spacing num den :=
    calc 2 ^ k ≤ 2 ^ (num / den).log2 := Nat.pow_le_pow_right (by decide) hk
      _ = 2 ^ (num / den).log2 / spacing num den * spacing num den :=
        (Nat.div_mul_cancel (Nat.pow_dvd_pow 2 hshift)).symm
      _ ≤ num / den / spacing num den * spacing num den :=
        Nat.mul_le_mul_right _ (Nat.div_le_div_right (Nat.log2_self_le hne))
      _ = num / (den * spacing num den) * spacing num den := by rw [Nat.div_div_eq_div_mul]
      _ ≤ divNearestEven num (den * spacing num den) * spacing num den :=
        Nat.mul_le_mul_right _ (div_le_divNearestEven _ _)
  rw [ofTicks]
  split
  · exact decide_eq_true hticks
  · rfl

/-- A number in double precision from a power of two on is a multiple of a smaller power, which
has 52 bits less. -/
theorem dvd_of_ofTicks {num den t k : Nat} (hden : 0 < den) (h : ofTicks num den = .finite t)
    (ht : 2 ^ (52 + k) ≤ t) : 2 ^ k ∣ t := by
  obtain ⟨q, hq, rfl⟩ : ∃ q, q = divNearestEven num (den * spacing num den) ∧
      q * spacing num den = t := by
    rw [ofTicks] at h
    split at h
    · exact ⟨_, rfl, finite.inj h⟩
    · cases h
  rcases Nat.lt_or_ge ((num / den).log2 + 1 - precision) k with hk | hk
  · -- only the rounding up to a power of two can have made the number so large
    have hnum : num ≤ 2 ^ 53 * (den * spacing num den) := by
      have hlt : num / den < 2 ^ ((num / den).log2 + 1) := Nat.lt_log2_self
      have hexp : (num / den).log2 + 1 ≤ 53 + ((num / den).log2 + 1 - precision) := by
        simp only [precision]
        omega
      have hle : num < 2 ^ (53 + ((num / den).log2 + 1 - precision)) * den :=
        (Nat.div_lt_iff_lt_mul hden).1
          (Nat.lt_of_lt_of_le hlt (Nat.pow_le_pow_right (by decide) hexp))
      rw [Nat.pow_add] at hle
      calc num ≤ 2 ^ 53 * 2 ^ ((num / den).log2 + 1 - precision) * den := Nat.le_of_lt hle
        _ = 2 ^ 53 * (den * spacing num den) := by rw [spacing, Nat.pow_eq]; ring
    have hqle : q ≤ 2 ^ 53 := by
      have hmono := divNearestEven_mono (den * spacing num den) hnum
      rwa [divNearestEven_mul _ (Nat.mul_pos hden (spacing_pos num den)), ← hq] at hmono
    have hpower : q * spacing num den = 2 ^ (52 + k) := by
      refine Nat.le_antisymm ?_ ht
      calc q * spacing num den ≤ 2 ^ 53 * 2 ^ ((num / den).log2 + 1 - precision) :=
            Nat.mul_le_mul_right _ hqle
        _ = 2 ^ (53 + ((num / den).log2 + 1 - precision)) := (Nat.pow_add ..).symm
        _ ≤ 2 ^ (52 + k) := Nat.pow_le_pow_right (by decide) (by omega)
    rw [hpower]
    exact Nat.pow_dvd_pow 2 (Nat.le_add_left k 52)
  · exact Nat.dvd_mul_left_of_dvd (Nat.pow_dvd_pow 2 hk) q

end Binary64

end SecretFanout
