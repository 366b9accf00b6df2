/-!
# Nonnegative double precision numbers, exactly

Every nonnegative finite number of the binary64 format is a whole multiple of
`2 ^ (-1074)`, here called a tick, so it is held as that multiple. Each operation
takes the exact rational result and rounds it once: to 53 significant bits or to a
whole tick, whichever is coarser, to the nearest candidate, and from a tie to the
one with an even last bit. A result that rounds to `2 ^ 1024` or more is infinite.

* `divNearestEven_le`, `le_divNearestEven`: rounding a quotient moves it by at most
  half a unit.
-/

namespace SecretFanout

/-! ## Rounding a quotient -/

/-- A quotient rounded to the nearest natural number, from a tie to the even one. -/
def divNearestEven (num den : Nat) : Nat :=
  let q := num / den
  let r := num % den
  if 2 * r < den then q
  else if den < 2 * r then q + 1
  else if q % 2 = 0 then q
  else q + 1

/-- A rounded quotient exceeds the exact one by at most a half. -/
theorem divNearestEven_le (num den : Nat) :
    2 * (divNearestEven num den * den) ≤ 2 * num + den := by
  have h := Nat.div_add_mod num den
  have hc : den * (num / den) = num / den * den := Nat.mul_comm ..
  unfold divNearestEven
  dsimp only
  split
  · omega
  split
  · rw [Nat.add_mul]; omega
  split
  · omega
  · rw [Nat.add_mul]; omega

/-- The exact quotient exceeds the rounded one by at most a half. -/
theorem le_divNearestEven (num den : Nat) (hden : 0 < den) :
    2 * num ≤ 2 * (divNearestEven num den * den) + den := by
  have h := Nat.div_add_mod num den
  have hc : den * (num / den) = num / den * den := Nat.mul_comm ..
  have hlt := Nat.mod_lt num hden
  unfold divNearestEven
  dsimp only
  split
  · omega
  split
  · rw [Nat.add_mul]; omega
  split
  · omega
  · rw [Nat.add_mul]; omega

/-! ## The numbers -/

/-- A nonnegative number in double precision. -/
inductive Binary64 where
  /-- A whole number of ticks. -/
  | finite (ticks : Nat)
  /-- Too large for the format. -/
  | infinite
  deriving DecidableEq

namespace Binary64

/-- A tick is one over two to this power. -/
def tickExponent : Nat := 1074

/-- Numbers from two to this power on are out of range. -/
def rangeExponent : Nat := 1024

/-- Bits in which a number is written. -/
def precision : Nat := 53

/-- Ticks in one unit. -/
def ticksPerUnit : Nat := Nat.pow 2 tickExponent

/-- The first number of ticks that is out of range. -/
def tickLimit : Nat := Nat.pow 2 (rangeExponent + tickExponent)

/-- The power of two to whose multiples a quotient of ticks is rounded. -/
def spacing (num den : Nat) : Nat := Nat.pow 2 ((num / den).log2 + 1 - precision)

/-- A quotient of ticks, rounded. -/
def ofTicks (num den : Nat) : Binary64 :=
  let unit := spacing num den
  let ticks := divNearestEven num (den * unit) * unit
  if ticks < tickLimit then .finite ticks else .infinite

/-- A quotient of natural numbers, rounded. -/
def ofRatio (num den : Nat) : Binary64 := ofTicks (num * ticksPerUnit) den

/-- The sum of two numbers, rounded. -/
def add : Binary64 → Binary64 → Binary64
  | finite a, finite b => ofTicks (a + b) 1
  | _, _ => infinite

/-- The product of two numbers, rounded; an infinite factor makes it infinite, since
no factor is zero where the other can be infinite. -/
def mul : Binary64 → Binary64 → Binary64
  | finite a, finite b => ofTicks (a * b) ticksPerUnit
  | _, _ => infinite

/-- The quotient of two numbers, rounded; a divisor of zero makes it zero, and nothing
is divided by an infinite one. -/
def div : Binary64 → Binary64 → Binary64
  | finite a, finite b => ofRatio a b
  | _, _ => infinite

instance : Add Binary64 := ⟨add⟩
instance : Mul Binary64 := ⟨mul⟩
instance : Div Binary64 := ⟨div⟩
instance : Zero Binary64 := ⟨finite 0⟩

/-- Whether the first number is at most the second. -/
def le : Binary64 → Binary64 → Bool
  | finite a, finite b => a ≤ b
  | _, infinite => true
  | infinite, finite _ => false

end Binary64

end SecretFanout
