import SecretFanout.Json.Value
import SecretFanout.Number.Scaled
import SecretFanout.Number.Shortest
import SecretFanout.Text.Numeral

/-!
# Numbers in JSON text

A number without point and exponent that fits into 64 bits, with or without a sign, is
held exactly. Any other number is held in double precision: of its digits the leading ones
that make a number of 64 bits are kept, the others only count as powers of ten. A number
out of range is unreadable, and a zero with a minus sign is not the whole number zero.

Whole numbers are written in full. Of the others the shortest digits are written: with a
point among or next to the digits, if that takes neither more than 16 digits before the
point nor more than five zeros in front, else with one digit before the point and an
exponent.

* `scanNumber?` reads a number, `floatText` writes one that is no whole number.
* `keepDigits_fst_lt`: the digits that are kept make a number of 64 bits.
-/

namespace SecretFanout.Json

/-! ## Reading -/

/-- Reads the digits before the point of a number; a zero stands alone. -/
def scanWhole? (s : List Char) : Option (List Char × List Char) :=
  match Text.spanDigits s with
  | ([], _) => none
  | ('0' :: _ :: _, _) => none
  | (digits, r) => some (digits, r)

/-- Reads a point and the digits behind it, if there is a point. -/
def scanPoint? : List Char → Option (Option (List Char) × List Char)
  | '.' :: r =>
    match Text.spanDigits r with
    | ([], _) => none
    | (digits, r) => some (some digits, r)
  | r => some (none, r)

/-- Reads an exponent, if there is one. -/
def scanExponent? : List Char → Option (Option Int × List Char)
  | 'e' :: r | 'E' :: r =>
    let (negative, r) := match r with
      | '+' :: r => (false, r)
      | '-' :: r => (true, r)
      | r => (false, r)
    match Text.spanDigits r with
    | ([], _) => none
    | (digits, r) =>
      let n := Text.digitsValue digits
      some (some (if negative then -(n : Int) else n), r)
  | r => some (none, r)

/-- The digits of a number have 64 bits. -/
def digitsBound : Nat := Nat.pow 2 64

/-- Puts digits behind a number up to the first with which it does not fit; what comes out
is the number and how many digits were left over. -/
def keepDigits (n : Nat) : List Char → Nat × Nat
  | [] => (n, 0)
  | c :: r =>
    let m := 10 * n + Text.digitValue c
    if m < digitsBound then keepDigits m r else (n, r.length + 1)

/-- The digits that are kept make a number of 64 bits. -/
theorem keepDigits_fst_lt {n : Nat} (hn : n < digitsBound) (s : List Char) :
    (keepDigits n s).1 < digitsBound := by
  induction s generalizing n with
  | nil => exact hn
  | cons c r ih =>
    rw [keepDigits]
    split
    · exact ih ‹_›
    · exact hn

/-- A number in double precision by its digits before and behind the point and its exponent. -/
def ofDigits (negative : Bool) (whole behind : List Char) (exponent : Int) : Json :=
  let (n, left) := keepDigits 0 whole
  let (n, leftBehind) := keepDigits n behind
  let size := Binary64.scaled n (exponent + left - (behind.length - leftBehind : Nat))
  if size = .infinite then .unreadable else .float negative size

/-- Reads a number. -/
def scanNumber? (s : List Char) : Option (Json × List Char) := do
  let (negative, s) := match s with
    | '-' :: r => (true, r)
    | r => (false, r)
  let (whole, s) ← scanWhole? s
  let (behind, s) ← scanPoint? s
  let (exponent, s) ← scanExponent? s
  let n := Text.digitsValue whole
  if behind.isNone && exponent.isNone && !negative && n < digitsBound then some (.int n, s)
  else if behind.isNone && exponent.isNone && negative && 0 < n && n ≤ Nat.pow 2 63 then
    some (.int (-n), s)
  else some (ofDigits negative whole (behind.getD []) (exponent.getD 0), s)

/-! ## Writing -/

/-- The most digits that are written before a point. -/
def widestWhole : Int := 16

/-- Numbers with so many zeros behind the point have an exponent. -/
def deepestPoint : Int := 5

/-- Digits with a point or an exponent, the first `point` of them before the point. -/
def decimalText (digits : List Char) (point : Int) : List Char :=
  let count : Int := digits.length
  if count ≤ point ∧ point ≤ widestWhole then
    digits ++ List.replicate (point - count).toNat '0' ++ ['.', '0']
  else if 0 < point ∧ point ≤ widestWhole then
    digits.take point.toNat ++ '.' :: digits.drop point.toNat
  else if -deepestPoint < point ∧ point ≤ 0 then
    '0' :: '.' :: List.replicate (-point).toNat '0' ++ digits
  else
    let behind := match digits.drop 1 with
      | [] => []
      | r => '.' :: r
    digits.take 1 ++ behind ++ 'e' :: (toString (point - 1)).toList

/-- A number in double precision; an infinite one has no text of its own. -/
def floatText (negative : Bool) (size : Binary64) : List Char :=
  let text := match size with
    | .finite 0 => ['0', '.', '0']
    | .finite ticks =>
      let f := Binary64.shortest ticks
      let digits := Nat.toDigits 10 f.digits
      decimalText digits (digits.length + f.exponent)
    | .infinite => "null".toList
  if negative then '-' :: text else text

end SecretFanout.Json
