import SecretFanout.Text.Blank
import SecretFanout.Text.Numeral

/-!
# Instants

Points in time to the second, written as `2024-01-01T00:00:00Z`. The reader takes
the date and time forms of the internet with some freedom: blanks around numbers,
one-digit fields, a blank or a small `t` between date and time, fractions of a second
(dropped), and any offset of whole minutes. A second numbered 60 is a leap second and
is written as such. An instant is always written in the zone without offset, and it
lies within the years of the calendar there, too.
-/

namespace SecretFanout.Text

/-- A second of a minute counted from the start of 1970; 60 is a leap second. -/
structure Instant where
  /-- Whole minutes since the start of 1970. -/
  minute : Int
  /-- The second of the minute. -/
  second : Nat
  deriving DecidableEq

namespace Instant

/-! ## The calendar -/

/-- Whether a year has 366 days. -/
def isLeapYear (year : Int) : Bool := year % 4 = 0 && (year % 100 != 0 || year % 400 = 0)

/-- The days of a month. -/
def daysInMonth (year : Int) (month : Nat) : Nat :=
  if month = 2 then (if isLeapYear year then 29 else 28)
  else if month = 4 ∨ month = 6 ∨ month = 9 ∨ month = 11 then 30
  else 31

/-- The number of a date, counted in days from the start of 1970. Years are taken to
start in March, which puts the day that only leap years have at their end. -/
def dayNumber (year : Int) (month day : Nat) : Int :=
  let y := if month ≤ 2 then year - 1 else year
  let era := y / 400
  let yearOfEra := y % 400
  let monthFromMarch := (month + 9) % 12
  let dayOfYear := (153 * monthFromMarch + 2) / 5 + day - 1
  let dayOfEra := yearOfEra * 365 + yearOfEra / 4 - yearOfEra / 100 + (dayOfYear : Int)
  era * 146097 + dayOfEra - 719468

/-- The date of a day number: year, month and day. -/
def dateOfDay (n : Int) : Int × Nat × Nat :=
  let z := n + 719468
  let era := z / 146097
  let dayOfEra := (z % 146097).toNat
  let yearOfEra := (dayOfEra - dayOfEra / 1460 + dayOfEra / 36524 - dayOfEra / 146096) / 365
  let dayOfYear := dayOfEra - (365 * yearOfEra + yearOfEra / 4 - yearOfEra / 100)
  let monthFromMarch := (5 * dayOfYear + 2) / 153
  let day := dayOfYear - (153 * monthFromMarch + 2) / 5 + 1
  let month := if monthFromMarch < 10 then monthFromMarch + 3 else monthFromMarch - 9
  let year := (yearOfEra : Int) + era * 400
  (if month ≤ 2 then year + 1 else year, month, day)

/-! ## Reading -/

/-- The first and the last year of the calendar. -/
def yearRange : Int × Int := (-262143, 262142)

/-- Whether an instant lies within the years of the calendar. -/
def inCalendar (t : Instant) : Bool :=
  dayNumber yearRange.1 1 1 ≤ t.minute / 1440 && t.minute / 1440 ≤ dayNumber yearRange.2 12 31

/-- Reads between one and so many digits, behind blanks. -/
def readDigits? (most : Nat) (s : List Char) : Option (Nat × List Char) :=
  let s := trimStart s
  let digits := (s.take most).takeWhile Char.isDigit
  if digits.isEmpty then none else some (digitsValue digits, s.drop digits.length)

/-- Reads a number from a range, behind blanks. -/
def readField? (low high : Nat) (s : List Char) : Option (Nat × List Char) := do
  let (n, s) ← readDigits? 2 s
  if low ≤ n ∧ n ≤ high then some (n, s) else none

/-- Reads a year: four digits at most, or any number of them behind a sign. -/
def readYear? (s : List Char) : Option (Int × List Char) := do
  let (year, s) ← match trimStart s with
    | '-' :: r => do
      let (n, r) ← digitsHere? r
      pure (-(n : Int), r)
    | '+' :: r => do
      let (n, r) ← digitsHere? r
      pure ((n : Int), r)
    | r => do
      let (n, r) ← readDigits? 4 r
      pure ((n : Int), r)
  if yearRange.1 ≤ year ∧ year ≤ yearRange.2 then some (year, s) else none
where
  /-- Reads digits that start here. -/
  digitsHere? (s : List Char) : Option (Nat × List Char) :=
    match spanDigits s with
    | ([], _) => none
    | (digits, r) => some (digitsValue digits, r)

/-- Takes a character, behind blanks. -/
def readMark? (mark : Char) (s : List Char) : Option (List Char) :=
  match trimStart s with
  | c :: r => if c = mark then some r else none
  | [] => none

/-- Takes the fraction of a second, if there is one. -/
def dropFraction? : List Char → Option (List Char)
  | '.' :: r =>
    match spanDigits r with
    | ([], _) => none
    | (_, r) => some r
  | r => some r

/-- Reads two digits, the first of them at most `high`. -/
def readPair? (high : Char) : List Char → Option (Nat × List Char)
  | a :: b :: r =>
    if '0' ≤ a ∧ a ≤ high ∧ b.isDigit then some (10 * digitValue a + digitValue b, r) else none
  | _ => none

/-- Reads an offset from universal time, in minutes. -/
def readOffset? (s : List Char) : Option (Int × List Char) :=
  match s with
  | u :: t :: c :: r =>
    if u.toUpper = 'U' ∧ t.toUpper = 'T' ∧ c.toUpper = 'C' then some (0, r) else signed s
  | s => signed s
where
  /-- Reads `Z` or a sign, hours and minutes. -/
  signed (s : List Char) : Option (Int × List Char) :=
    match s with
    | 'Z' :: r | 'z' :: r => some (0, r)
    | '+' :: r => clock r
    | '-' :: r | '\u2212' :: r => (clock r).map fun (n, r) => (-n, r)
    | _ => none
  /-- Reads hours and minutes, with colons and blanks between them. -/
  clock (s : List Char) : Option (Int × List Char) := do
    let (hours, s) ← readPair? '9' s
    let (minutes, s) ← readPair? '5' (s.dropWhile fun c => c = ':' || isBlank c)
    if hours < 24 then some (((60 * hours + minutes : Nat) : Int), s) else none

/-- Reads an instant. -/
def read? (s : List Char) : Option Instant := do
  let (year, s) ← readYear? s
  let s ← readMark? '-' s
  let (month, s) ← readField? 1 12 s
  let s ← readMark? '-' s
  let (day, s) ← readField? 1 (daysInMonth year month) s
  let s ← match s with
    | 't' :: r | 'T' :: r | ' ' :: r => some r
    | _ => none
  let (hour, s) ← readField? 0 23 s
  let s ← readMark? ':' s
  let (minute, s) ← readField? 0 59 s
  let s ← readMark? ':' s
  let (second, s) ← readField? 0 60 s
  let s ← dropFraction? s
  let (offset, s) ← readOffset? (trimStart s)
  let t : Instant :=
    ⟨(dayNumber year month day * 24 + (hour : Int)) * 60 + (minute : Int) - offset, second⟩
  if (trimStart s).isEmpty && t.inCalendar then some t else none

/-! ## Writing -/

/-- A number with zeros in front up to a width. -/
def padded (width n : Nat) : List Char :=
  let digits := Nat.toDigits 10 n
  List.replicate (width - digits.length) '0' ++ digits

/-- A year: four digits, or a sign and at least four beyond those. -/
def yearText (year : Int) : List Char :=
  if 0 ≤ year ∧ year ≤ 9999 then padded 4 year.toNat
  else if year < 0 then '-' :: padded 4 year.natAbs
  else '+' :: padded 4 year.natAbs

/-- Writes an instant. -/
def render (t : Instant) : List Char :=
  let (year, month, day) := dateOfDay (t.minute / 1440)
  let minuteOfDay := (t.minute % 1440).toNat
  yearText year ++ ['-'] ++ padded 2 month ++ ['-'] ++ padded 2 day ++ ['T'] ++
    padded 2 (minuteOfDay / 60) ++ [':'] ++ padded 2 (minuteOfDay % 60) ++ [':'] ++
    padded 2 t.second ++ ['Z']

end Instant

end SecretFanout.Text
