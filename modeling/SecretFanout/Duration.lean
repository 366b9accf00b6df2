import SecretFanout.Number.Binary64
import SecretFanout.Text.Blank
import SecretFanout.Text.Decimal
import SecretFanout.Text.Numeral
import SecretFanout.Text.Pattern

/-!
# Durations

A duration is a whole number of nanoseconds. It is written as groups of a decimal
number and a unit (`1h30m`, `1.5s`, `250ms`), with an optional sign; a bare `0` is
zero and a negative duration is zero too. A text is searched for groups from left to
right, and is refused if these leave anything out. Groups are added up in seconds in
double precision, and the sum is rounded to whole nanoseconds.

* `numberPattern`, `unitPattern` say what is searched for: digits of any script make a
  number, but only ASCII digits can be read.
* `Duration.attempt?` is the whole reading with the cuts in the text that it makes, and
  `isSome_attempt?` says that each of them is possible; `Duration.read` is its result.
-/

namespace SecretFanout

/-- A span of time as whole nanoseconds. -/
structure Duration where
  /-- The nanoseconds. -/
  nanos : Nat
  deriving DecidableEq, Inhabited

namespace Duration

/-- Nanoseconds in a second. -/
def nanosPerSecond : Nat := 1000000000

/-- A duration of whole seconds. -/
def ofSeconds (n : Nat) : Duration := ⟨n * nanosPerSecond⟩

/-- The whole seconds of a duration. -/
def seconds (d : Duration) : Nat := d.nanos / nanosPerSecond

/-- The nanoseconds of a duration beyond its whole seconds. -/
def subsecondNanos (d : Duration) : Nat := d.nanos % nanosPerSecond

instance : Zero Duration := ⟨⟨0⟩⟩
instance : LE Duration := ⟨fun a b => a.nanos ≤ b.nanos⟩
instance (a b : Duration) : Decidable (a ≤ b) := inferInstanceAs (Decidable (a.nanos ≤ b.nanos))

/-! ## Units -/

/-- A unit of time. -/
inductive Unit where
  /-- Billionths of a second. -/
  | nanosecond
  /-- Millionths of a second. -/
  | microsecond
  /-- Thousandths of a second. -/
  | millisecond
  /-- Seconds. -/
  | second
  /-- Sixty seconds. -/
  | minute
  /-- Sixty minutes. -/
  | hour
  deriving DecidableEq

/-- A unit in seconds, in double precision. -/
def Unit.scale : Unit → Binary64
  | .nanosecond => .ofRatio 1 1000000000
  | .microsecond => .ofRatio 1 1000000
  | .millisecond => .ofRatio 1 1000
  | .second => .ofRatio 1 1
  | .minute => .ofRatio 60 1
  | .hour => .ofRatio 3600 1

/-- The words for units, in the order in which they are tried: a word stands in front of its
beginnings. -/
def unitWords : List (List Char × Unit) := [
  (['n', 's'], .nanosecond), (['u', 's'], .microsecond), (['\u00b5', 's'], .microsecond),
  (['m', 's'], .millisecond), (['s'], .second), (['m'], .minute), (['h'], .hour)]

/-- The unit that a word stands for. -/
def Unit.ofWord? (word : List Char) : Option Unit :=
  (unitWords.find? fun entry => entry.1 = word).map Prod.snd

/-! ## Groups -/

/-- Digits of any script, and behind a point more of them. -/
def numberPattern : Text.Pattern :=
  .row (.run Text.isDecimal) (.maybe (.row (.words [['.']]) (.run Text.isDecimal)))

/-- The word for a unit. -/
def unitPattern : Text.Pattern := .words (unitWords.map Prod.fst)

/-- The places in a text where a number stands in front of a unit. -/
def groupHits (body : List Char) : List Text.Pattern.Hit := numberPattern.hits unitPattern body

/-- Reads a decimal number in ASCII digits, in double precision. -/
def readNumber? (s : List Char) : Option Binary64 :=
  match Text.spanDigits s with
  | ([], _) => none
  | (whole, []) => some (.ofRatio (Text.digitsValue whole) 1)
  | (whole, '.' :: fraction) =>
    if fraction.all Char.isDigit then
      some (.ofRatio (Text.digitsValue (whole ++ fraction)) (Nat.pow 10 fraction.length))
    else none
  | _ => none

/-- Adds groups to a sum of seconds, in double precision, as long as each of them starts where
the one before it stops; where the last one stops, and the sum. -/
def addUp : List Text.Pattern.Hit → Nat → Binary64 → Option (Nat × Binary64)
  | [], stop, sum => some (stop, sum)
  | hit :: rest, stop, sum =>
    if hit.start ≠ stop then none
    else
      match readNumber? hit.first, Unit.ofWord? hit.second with
      | some number, some unit => addUp rest hit.stop (sum + number * unit.scale)
      | _, _ => none

/-! ## Reading -/

/-- Why a text is no duration, or none that a copier may have as its period. -/
inductive ReadError where
  /-- There is nothing but blanks. -/
  | empty
  /-- The text is not made of groups. -/
  | malformed (text : List Char)
  /-- The sum is beyond the range of durations. -/
  | outOfRange (text : List Char)
  /-- A period is longer than the longest period, which is so many seconds. -/
  | tooLong (text : String) (limit : Nat)
  deriving DecidableEq

/-- What is wrong with a duration, in words. -/
def ReadError.message : ReadError → String
  | .empty => "duration string cannot be empty"
  | .malformed text => s!"'{String.ofList text}' (expected e.g. '30s', '1m', '1h30m')"
  | .outOfRange text => s!"'{String.ofList text}' is out of range"
  | .tooLong text limit => s!"sync period '{text}' exceeds {Text.natText limit}s"

/-- The longest duration in seconds: `2 ^ 63` nanoseconds, in double precision. -/
def longest : Binary64 := .ofRatio (Nat.pow 2 63) nanosPerSecond

/-- Whole seconds from this number on are not held. -/
def secondsLimit : Nat := Nat.pow 2 64

/-- Seconds in ticks, rounded to whole nanoseconds. -/
def nearest (ticks : Nat) : Duration :=
  ⟨divNearestEven (ticks * nanosPerSecond) Binary64.ticksPerUnit⟩

/-- Seconds in double precision, rounded to whole nanoseconds, unless there are too many. -/
def ofBinary64? : Binary64 → Option Duration
  | .finite ticks =>
    if (nearest ticks).nanos < secondsLimit * nanosPerSecond then some (nearest ticks) else none
  | .infinite => none

/-- Splits off a sign, which is told by its byte; the first part tells whether it is a minus
sign. There must be a first byte, and the text is cut behind it. -/
def splitSign? (text : List Char) : Option (Bool × List Char) :=
  match (Text.bytes text).head? with
  | none => none
  | some first =>
    if first = UInt8.ofNat '-'.toNat then (Text.dropBytes? 1 text).map fun body => (true, body)
    else if first = UInt8.ofNat '+'.toNat then
      (Text.dropBytes? 1 text).map fun body => (false, body)
    else some (false, text)

/-- The duration of a sum of seconds, which must not be beyond the longest one. -/
def settle (text : List Char) (sum : Binary64) : Except ReadError Duration :=
  if Binary64.le sum longest then
    match ofBinary64? sum with
    | some d => .ok d
    | none => .error (.malformed text)
  else .error (.outOfRange text)

/-- Reads what stands behind the sign of a text. It is checked to the end before the sign is
looked at, so a negative duration is zero whatever its size. -/
def readBody (text : List Char) (negative : Bool) (body : List Char) :
    Except ReadError Duration :=
  if body = ['0'] then .ok 0
  else
    match addUp (groupHits body) 0 0 with
    | none => .error (.malformed text)
    | some (stop, sum) =>
      if stop = 0 ∨ stop ≠ Text.byteLength body then .error (.malformed text)
      else if negative then .ok 0
      else settle text sum

/-- Reads a duration with blanks around it; there is no result if the text cannot be cut where
it has to be. -/
def attempt? (s : List Char) : Option (Except ReadError Duration) :=
  let text := Text.trim s
  if text = [] then some (.error .empty)
  else (splitSign? text).map fun parts => readBody text parts.1 parts.2

/-! ## Cuts in a text -/

theorem splitSign?_minus (r : List Char) : splitSign? ('-' :: r) = some (true, r) := by
  have hcut : Text.dropBytes? 1 ('-' :: r) = some r := Text.dropBytes?_one rfl r
  rw [splitSign?, hcut]
  rfl

theorem splitSign?_plus (r : List Char) : splitSign? ('+' :: r) = some (false, r) := by
  have hcut : Text.dropBytes? 1 ('+' :: r) = some r := Text.dropBytes?_one rfl r
  rw [splitSign?, hcut]
  rfl

/-- A text with another character in front is not cut, whatever the bytes of that character. -/
theorem splitSign?_other {c : Char} (hminus : c ≠ '-') (hplus : c ≠ '+') (r : List Char) :
    splitSign? (c :: r) = some (false, c :: r) := by
  obtain ⟨first, rest, hbytes⟩ : ∃ first rest, String.utf8EncodeChar c = first :: rest := by
    cases h : String.utf8EncodeChar c with
    | nil => exact absurd (congrArg List.length h) (by simp [Nat.ne_of_gt c.utf8Size_pos])
    | cons first rest => exact ⟨first, rest, rfl⟩
  have hfirst : (Text.bytes (c :: r)).head? = some first := by
    rw [Text.bytes, List.flatMap_cons, hbytes]
    rfl
  have hno : ∀ {d : Char}, d.toNat < 128 → c ≠ d → first ≠ UInt8.ofNat d.toNat := by
    rintro d hd hne rfl
    exact hne ((Text.head?_utf8EncodeChar_eq_some_iff hd).1 (by rw [hbytes]; rfl))
  rw [splitSign?, hfirst]
  dsimp only
  rw [if_neg (hno (by decide) hminus), if_neg (hno (by decide) hplus)]

/-- A text is cut behind a sign, which is a whole character. -/
theorem exists_splitSign? {text : List Char} (h : text ≠ []) :
    ∃ parts, splitSign? text = some parts := by
  cases text with
  | nil => exact absurd rfl h
  | cons c r =>
    by_cases hminus : c = '-'
    · exact ⟨_, hminus ▸ splitSign?_minus r⟩
    · by_cases hplus : c = '+'
      · exact ⟨_, hplus ▸ splitSign?_plus r⟩
      · exact ⟨_, splitSign?_other hminus hplus r⟩

/-- No text is cut where that is not possible. -/
theorem isSome_attempt? (s : List Char) : (attempt? s).isSome = true := by
  rw [attempt?]
  split
  · rfl
  · next h =>
    obtain ⟨parts, hparts⟩ := exists_splitSign? h
    rw [hparts]
    rfl

/-- Reads a duration with blanks around it. -/
def read (s : List Char) : Except ReadError Duration := (attempt? s).get (isSome_attempt? s)

end Duration

end SecretFanout
