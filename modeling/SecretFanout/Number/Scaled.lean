import SecretFanout.Number.Binary64

/-!
# Powers of ten in double precision

A whole number times a power of ten, in two or more roundings: the number is rounded, the
power is rounded, and so is their product or quotient. The result can differ in its last
bit from the exact value rounded once.

* `scaled` multiplies by a power with an exponent of either sign.
* `scaled_zero`: zero stays zero, whatever the power.
-/

namespace SecretFanout.Binary64

/-- The exponent of the largest power of ten that is in range. -/
def topPower : Nat := 308

/-- A power of ten, rounded. -/
def powerOfTen (k : Nat) : Binary64 := ofRatio (Nat.pow 10 k) 1

/-- A number times a power of ten; zero times a power out of range is zero. -/
def timesPower (x : Binary64) (k : Nat) : Binary64 :=
  if x = 0 then 0 else if k ≤ topPower then x * powerOfTen k else infinite

/-- A number divided by a power of ten; a power out of range is taken in steps, each of
which rounds. -/
def overPower (x : Binary64) (k : Nat) : Binary64 :=
  if x = 0 then 0
  else if k ≤ topPower then x / powerOfTen k
  else overPower (x / powerOfTen topPower) (k - topPower)
termination_by k
decreasing_by
  have : 0 < topPower := by decide
  omega

/-- A whole number times a power of ten. -/
def scaled (n : Nat) : Int → Binary64
  | .ofNat k => timesPower (ofRatio n 1) k
  | .negSucc k => overPower (ofRatio n 1) (k + 1)

/-- Nothing divided is nothing. -/
theorem divNearestEven_zero (den : Nat) : divNearestEven 0 den = 0 := by
  simp [divNearestEven]

theorem ofRatio_zero (den : Nat) : ofRatio 0 den = 0 := by
  have hlimit : 0 < tickLimit := by
    unfold tickLimit
    generalize rangeExponent + tickExponent = n
    exact Nat.two_pow_pos n
  simp only [ofRatio, ofTicks, Nat.zero_mul, divNearestEven_zero, if_pos hlimit]
  rfl

/-- Zero stays zero, whatever the power. -/
theorem scaled_zero (e : Int) : scaled 0 e = 0 := by
  cases e with
  | ofNat k => simp [scaled, timesPower, ofRatio_zero]
  | negSucc k => rw [scaled, overPower, ofRatio_zero, if_pos rfl]

end SecretFanout.Binary64
