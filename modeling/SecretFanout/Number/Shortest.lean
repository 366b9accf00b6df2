import SecretFanout.Number.Binary64

/-!
# The shortest digits of a number

The fewest decimal digits that stand for a number in double precision: of all decimal
fractions that round to the number those with the fewest digits, of these the one that is
nearest to it, and of two equally near ones the even one.

A number of so many ticks is compared with decimal fractions in exact arithmetic. The
grid of `n` digits has the fractions that are whole multiples of one power of ten, chosen
so that the number itself has `n` digits before the point of that grid; the candidates on
a grid are the number's two neighbours there.

* `standsFor_of_shortest?`: the digits that are found stand for the number.
-/

namespace SecretFanout.Binary64

/-- A decimal fraction: a whole number times a power of ten. -/
structure DecimalFraction where
  /-- The whole number. -/
  digits : Nat
  /-- The exponent of the power. -/
  exponent : Int
  deriving DecidableEq

/-- Quarter ticks in one unit. -/
def quartersPerUnit : Nat := 4 * ticksPerUnit

/-! ## What rounds to a number -/

/-- The distance in ticks from a number to the next larger one. -/
def gapAbove (ticks : Nat) : Nat := spacing ticks 1

/-- The distance in ticks from a number to the next smaller one: half of that to the next
larger one where the number is the first after a change of spacing. -/
def gapBelow (ticks : Nat) : Nat :=
  let gap := gapAbove ticks
  if 1 < gap ∧ ticks = Nat.pow 2 ticks.log2 then gap / 2 else gap

/-- Whether the fraction `num / den` of a unit rounds to a number: it lies halfway to the
neighbours at most, and exactly halfway only if the number's last bit is even. -/
def roundsTo (ticks num den : Nat) : Bool :=
  let least := (4 * ticks - 2 * gapBelow ticks) * den
  let most := (4 * ticks + 2 * gapAbove ticks) * den
  let x := num * quartersPerUnit
  if ticks / gapAbove ticks % 2 = 0 then least ≤ x && x ≤ most else least < x && x < most

/-- The numerator and the denominator of a power of ten. -/
def powerRatio : Int → Nat × Nat
  | .ofNat k => (Nat.pow 10 k, 1)
  | .negSucc k => (1, Nat.pow 10 (k + 1))

/-- Whether a decimal fraction rounds to a number. -/
def DecimalFraction.standsFor (f : DecimalFraction) (ticks : Nat) : Bool :=
  let (num, den) := powerRatio f.exponent
  roundsTo ticks (f.digits * num) den

/-! ## Grids -/

/-- More digits than this behind the point has no first digit of a number. -/
def deepest : Nat := 324

/-- The exponent of a number's first digit. -/
def leadingExponent (ticks : Nat) : Int :=
  ((Nat.toDigits 10 (ticks * Nat.pow 10 deepest / ticksPerUnit)).length : Int) - 1 - deepest

/-- A number's two neighbours among the multiples of a power of ten, the nearest first;
of two equally near ones the even one is first. -/
def neighbours (ticks : Nat) (exponent : Int) : List DecimalFraction :=
  let (num, den) := powerRatio exponent
  let below := ticks * den / (num * ticksPerUnit)
  let nearest := divNearestEven (ticks * den) (num * ticksPerUnit)
  let other := if nearest = below then below + 1 else below
  [⟨nearest, exponent⟩, ⟨other, exponent⟩]

/-- The nearest of a number's neighbours that stand for it on the grid of so many digits. -/
def onGrid? (ticks n : Nat) : Option DecimalFraction :=
  (neighbours ticks (leadingExponent ticks + 1 - n)).find? fun f => f.standsFor ticks

/-- The shortest digits of a number, if it has any of 17 digits at most, as all have that
are not zero. -/
def shortest? (ticks : Nat) : Option DecimalFraction :=
  (List.range 17).findSome? fun k => onGrid? ticks (k + 1)

/-- The digits that are found stand for the number. -/
theorem standsFor_of_shortest? {ticks : Nat} {f : DecimalFraction} (h : shortest? ticks = some f) :
    f.standsFor ticks = true := by
  obtain ⟨k, -, hk⟩ := List.exists_of_findSome?_eq_some h
  rw [onGrid?] at hk
  have hf := List.find?_some hk
  exact hf

/-- A decimal fraction without zeros at its end. -/
def DecimalFraction.trimmed (f : DecimalFraction) : DecimalFraction :=
  let zeros := ((Nat.toDigits 10 f.digits).reverse.takeWhile fun c => c = '0').length
  ⟨f.digits / Nat.pow 10 zeros, f.exponent + zeros⟩

/-- The shortest digits of a number, without zeros at their end. -/
def shortest (ticks : Nat) : DecimalFraction := ((shortest? ticks).getD ⟨0, 0⟩).trimmed

end SecretFanout.Binary64
