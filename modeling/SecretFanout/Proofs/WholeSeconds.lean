import SecretFanout.Copier.Basic
import SecretFanout.Proofs.Grammar

/-!
# Whole seconds

Hours, minutes and seconds without a fraction are added up in double precision, where numbers are
exact only up to 53 bits, and they may be written with any number of digits.

* `Counts` — a number in double precision stands for a whole number: exactly, if this has at most
  53 bits, and otherwise by being large, too. Sums and multiples keep to this.
* `counts_total` — the sum of groups stands for the whole seconds that are written in them.
* `whole_seconds_are_exact` — hence these are read exactly, up to the longest duration, and the
  period of a copier is told from them.
-/

namespace SecretFanout

namespace Binary64

/-! ## Whole numbers in double precision -/

/-- The ticks of the first whole number that has more than 53 bits. -/
def large : Nat := Nat.pow 2 (precision + tickExponent)

theorem two_pow_eq_large : 2 ^ (precision + tickExponent) = large := by
  unfold large
  simp only [Nat.pow_eq]

theorem ticksPerUnit_eq : ticksPerUnit = 2 ^ tickExponent := by
  unfold ticksPerUnit
  simp only [Nat.pow_eq]

theorem large_eq : large = 2 ^ precision * ticksPerUnit := by
  rw [← two_pow_eq_large, ticksPerUnit_eq, Nat.pow_add]

theorem ticksPerUnit_pos : 0 < ticksPerUnit := by
  rw [ticksPerUnit_eq]
  apply Nat.two_pow_pos

theorem large_le_tickLimit : large ≤ tickLimit := by
  unfold large tickLimit
  simp only [Nat.pow_eq]
  apply Nat.pow_le_pow_right <;> decide

theorem le_finite_iff {a b : Nat} : le (.finite a) (.finite b) = true ↔ a ≤ b := by
  rw [le, decide_eq_true_eq]

/-- A whole number of at most 53 bits is not rounded. -/
theorem ofTicks_whole {n den : Nat} (hden : 0 < den) (hn : n < 2 ^ precision) :
    ofTicks (n * ticksPerUnit * den) den = .finite (n * ticksPerUnit) := by
  have hlimit : n * ticksPerUnit < tickLimit := by
    refine Nat.lt_of_lt_of_le ?_ large_le_tickLimit
    rw [large_eq]
    exact Nat.mul_lt_mul_of_pos_right hn ticksPerUnit_pos
  rw [ticksPerUnit_eq] at hlimit ⊢
  exact ofTicks_exact hden hn hlimit

/-- A large number stays large when it is rounded. -/
theorem large_le_ofTicks {num den : Nat} (hden : 0 < den) (h : large * den ≤ num) :
    le (.finite large) (ofTicks num den) = true := by
  rw [← two_pow_eq_large] at h ⊢
  exact le_ofTicks hden h

/-- A number in double precision stands for a whole number. -/
inductive Counts : Binary64 → Nat → Prop
  /-- A number of at most 53 bits is exact. -/
  | exact {n : Nat} (h : n < 2 ^ precision) : Counts (.finite (n * ticksPerUnit)) n
  /-- For one of more bits the number may be rounded, but it is large. -/
  | beyond {x : Binary64} {n : Nat} (h : 2 ^ precision ≤ n)
      (hx : le (.finite large) x = true) : Counts x n

/-- A whole number that is rounded. -/
theorem counts_ofTicks (n : Nat) {den : Nat} (hden : 0 < den) :
    Counts (ofTicks (n * ticksPerUnit * den) den) n := by
  rcases Nat.lt_or_ge n (2 ^ precision) with hn | hn
  · rw [ofTicks_whole hden hn]
    exact .exact hn
  · refine .beyond hn (large_le_ofTicks hden ?_)
    rw [large_eq]
    exact Nat.mul_le_mul_right _ (Nat.mul_le_mul_right _ hn)

theorem counts_ofRatio (n : Nat) : Counts (ofRatio n 1) n := by
  have h := counts_ofTicks n Nat.one_pos
  rwa [Nat.mul_one] at h

/-- A sum with a large number is large. -/
theorem large_le_add {x : Binary64} (hx : le (.finite large) x = true) (y : Binary64) :
    le (.finite large) (x + y) = true := by
  cases x with
  | infinite => exact hx
  | finite a =>
    cases y with
    | infinite => rfl
    | finite b =>
      rw [finite_add_finite]
      refine large_le_ofTicks Nat.one_pos ?_
      rw [Nat.mul_one]
      exact Nat.le_add_right_of_le (le_finite_iff.1 hx)

theorem add_comm (x y : Binary64) : x + y = y + x := by
  cases x with
  | infinite => cases y <;> rfl
  | finite a =>
    cases y with
    | infinite => rfl
    | finite b => rw [finite_add_finite, finite_add_finite, Nat.add_comm]

/-- Whole numbers are added up. -/
theorem Counts.add {x y : Binary64} {m n : Nat} (hx : Counts x m) (hy : Counts y n) :
    Counts (x + y) (m + n) := by
  cases hx with
  | beyond hm hx => exact .beyond (Nat.le_add_right_of_le hm) (large_le_add hx y)
  | exact hm =>
    cases hy with
    | beyond hn hy =>
      rw [add_comm]
      exact .beyond (Nat.le_add_left_of_le hn) (large_le_add hy _)
    | exact hn =>
      have h := counts_ofTicks (m + n) Nat.one_pos
      rwa [Nat.mul_one, Nat.add_mul, ← finite_add_finite] at h

/-- A whole number is taken so many times. -/
theorem Counts.mul {x : Binary64} {m n : Nat} (hx : Counts x m) (hn : 0 < n) :
    Counts (x * .finite (n * ticksPerUnit)) (m * n) := by
  cases hx with
  | exact hm =>
    have h := counts_ofTicks (m * n) ticksPerUnit_pos
    rwa [show m * n * ticksPerUnit * ticksPerUnit = m * ticksPerUnit * (n * ticksPerUnit) by ring,
      ← finite_mul_finite] at h
  | beyond hm hx =>
    -- a large number times one unit at least is large, so that nothing comes back into range
    refine .beyond (Nat.le_trans hm (Nat.le_mul_of_pos_right m hn)) ?_
    cases x with
    | infinite => rfl
    | finite a =>
      rw [finite_mul_finite]
      refine large_le_ofTicks ticksPerUnit_pos ?_
      exact Nat.mul_le_mul (le_finite_iff.1 hx) (Nat.le_mul_of_pos_left _ hn)

end Binary64

namespace Duration

open Binary64 (Counts counts_ofRatio)

/-! ## Groups of whole seconds -/

/-- The whole seconds in a unit. -/
def Unit.wholeSeconds : Unit → Nat
  | .nanosecond | .microsecond | .millisecond => 0
  | .second => 1
  | .minute => 60
  | .hour => 3600

/-- Whether a group is a whole number of seconds, minutes or hours. -/
def Group.IsWhole (g : Group) : Prop := g.fraction = [] ∧ 0 < g.unit.wholeSeconds

/-- The seconds that are written in groups without fractions. -/
def wholeSeconds (groups : List Group) : Nat :=
  (groups.map fun g => Text.digitsValue g.whole * g.unit.wholeSeconds).sum

/-- A unit that has a whole second in it has no fraction. -/
theorem scale_eq {unit : Unit} (h : 0 < unit.wholeSeconds) :
    unit.scale = .finite (unit.wholeSeconds * Binary64.ticksPerUnit) := by
  cases unit with
  | nanosecond | microsecond | millisecond => cases h
  | second | minute | hour => decide +kernel

theorem counts_seconds {g : Group} (h : g.IsWhole) :
    Counts g.seconds (Text.digitsValue g.whole * g.unit.wholeSeconds) := by
  obtain ⟨hfraction, hunit⟩ := h
  have hnumber : g.number = .ofRatio (Text.digitsValue g.whole) 1 := by
    rw [Group.number, hfraction, List.append_nil]
    rfl
  rw [Group.seconds, hnumber, scale_eq hunit]
  exact (counts_ofRatio _).mul hunit

/-- Groups of whole seconds are added up to a number of whole seconds. -/
theorem counts_total {groups : List Group} (h : ∀ g ∈ groups, g.IsWhole) :
    Counts (total groups) (wholeSeconds groups) := by
  have hsum : ∀ (groups : List Group) (sum : Binary64) (n : Nat), (∀ g ∈ groups, g.IsWhole) →
      Counts sum n → Counts (groups.foldl (fun sum g => sum + g.seconds) sum)
        (n + wholeSeconds groups) := by
    intro groups
    induction groups with
    | nil => exact fun sum n _ hsum => hsum
    | cons g groups ih =>
      intro sum n hwhole hsum
      have hnext := hsum.add (counts_seconds (hwhole g List.mem_cons_self))
      have hlast := ih _ _ (fun g' hg' => hwhole g' (List.mem_cons_of_mem g hg')) hnext
      rwa [Nat.add_assoc] at hlast
  have hzero : Counts 0 0 := by
    have h := counts_ofRatio 0
    rwa [show Binary64.ofRatio 0 1 = 0 by decide +kernel] at h
  have htotal := hsum groups 0 0 h hzero
  rwa [Nat.zero_add] at htotal

/-! ## The range in whole seconds -/

/-- The whole seconds in the longest duration. -/
def mostSeconds : Nat := 9223372036

/-- Whole seconds are within the range of durations up to those of the longest duration. -/
theorem le_longest_iff {x : Binary64} {n : Nat} (h : Counts x n) :
    Binary64.le x longest = true ↔ n ≤ mostSeconds := by
  rw [longest_eq]
  cases h with
  | exact hn =>
    have hunits : Binary64.ticksPerUnit = 2 ^ 19 * 2 ^ 1055 := by decide +kernel
    rw [Binary64.le_finite_iff, hunits, ← Nat.mul_assoc,
      Nat.mul_le_mul_right_iff (Nat.two_pow_pos 1055), mostSeconds]
    omega
  | beyond hn hx =>
    have hlarge : ¬ n ≤ mostSeconds := Nat.not_le.2 (Nat.lt_of_lt_of_le (by decide) hn)
    refine iff_of_false ?_ hlarge
    cases x with
    | infinite => simp [Binary64.le]
    | finite a =>
      have hlarge : 4835703278458517 * 2 ^ 1055 < Binary64.large := by decide +kernel
      rw [Binary64.le_finite_iff, Nat.not_le]
      exact Nat.lt_of_lt_of_le hlarge (Binary64.le_finite_iff.1 hx)

/-- Whole seconds are rounded to their nanoseconds. -/
theorem nearest_whole (n : Nat) : nearest (n * Binary64.ticksPerUnit) = .ofSeconds n := by
  have hround := divNearestEven_mul (n * nanosPerSecond) Binary64.ticksPerUnit_pos
  rw [Nat.mul_right_comm] at hround
  rw [nearest, ofSeconds]
  exact congrArg Duration.mk hround

/-- Whole seconds within the range are the duration of so many seconds; others are refused. -/
theorem settle_of_counts {x : Binary64} {n : Nat} (h : Counts x n) (text : List Char) :
    settle text x = if n ≤ mostSeconds then .ok (.ofSeconds n) else .error (.outOfRange text) := by
  split
  · next hn =>
    obtain ⟨ticks, -, hx, hsettle⟩ := settle_of_le ((le_longest_iff h).2 hn) text
    cases h with
    | exact _ =>
      rw [hsettle, ← Binary64.finite.inj hx, nearest_whole]
    | beyond hlarge _ => exact absurd hn (Nat.not_le.2 (Nat.lt_of_lt_of_le (by decide) hlarge))
  · next hn =>
    refine settle_of_not_le ?_ text
    rw [← Bool.not_eq_true, le_longest_iff h]
    exact hn

/-! ## Texts and periods -/

/-- No blanks stand around groups. -/
theorem trim_written (groups : List Group) : Text.trim (written groups) = written groups := by
  refine Text.trim_eq_self ?_ ?_
  · exact fun c hc => not_isBlank_of_isDigit (isDigit_of_mem_head?_written c hc)
  · induction groups with
    | nil => exact fun c hc => by simp at hc
    | cons g groups ih =>
      obtain ⟨-, hne, hlast, -⟩ := word_shape g.word_unit
      intro c hc
      rw [written_cons, List.getLast?_append, Option.mem_def, Option.or_eq_some_iff] at hc
      rcases hc with hc | ⟨-, hc⟩
      · exact ih c hc
      · rw [Group.text, List.getLast?_append_of_ne_nil _ hne] at hc
        exact hlast c hc

/-- Groups of whole seconds are read as so many seconds, if these are within the range. -/
theorem read_whole {groups : List Group} (hne : groups ≠ []) (h : ∀ g ∈ groups, g.IsWhole) :
    read (written groups) = if wholeSeconds groups ≤ mostSeconds
      then .ok (.ofSeconds (wholeSeconds groups)) else .error (.outOfRange (written groups)) := by
  have htrim := trim_written groups
  rw [read_written .none htrim hne, if_neg (by decide), htrim, settle_of_counts (counts_total h)]

theorem seconds_ofSeconds (n : Nat) : (ofSeconds n).seconds = n :=
  Nat.mul_div_cancel n (by decide)

theorem subsecondNanos_ofSeconds (n : Nat) : (ofSeconds n).subsecondNanos = 0 :=
  Nat.mul_mod_left n nanosPerSecond

theorem ofSeconds_le_iff {m n : Nat} : ofSeconds m ≤ ofSeconds n ↔ m ≤ n :=
  Nat.mul_le_mul_right_iff (by decide)

theorem ofSeconds_eq_zero_iff {n : Nat} : ofSeconds n = 0 ↔ n = 0 := by
  constructor
  · intro h
    rw [← seconds_ofSeconds n, h]
    rfl
  · rintro rfl
    rfl

end Duration

namespace Copier

open Duration (Group written wholeSeconds mostSeconds ofSeconds)

/-- The period of a copier, told from the whole seconds in it. -/
theorem nextPassDelay_whole {c : Copier} {groups : List Group} (hne : groups ≠ [])
    (h : ∀ g ∈ groups, g.IsWhole) (hperiod : c.spec.syncPeriod.toList = written groups) :
    c.nextPassDelay =
      if wholeSeconds groups = 0 then .ok none
      else if wholeSeconds groups ≤ longestPeriod then .ok (some (ofSeconds (wholeSeconds groups)))
      else if wholeSeconds groups ≤ mostSeconds then
        .error (.tooLong c.spec.syncPeriod longestPeriod)
      else .error (.outOfRange (written groups)) := by
  have hlimit : longestPeriod ≤ mostSeconds := by decide
  rw [nextPassDelay, syncPeriod, hperiod, Duration.read_whole hne h]
  by_cases hmost : wholeSeconds groups ≤ mostSeconds
  · by_cases hlongest : wholeSeconds groups ≤ longestPeriod
    · by_cases hzero : wholeSeconds groups = 0
      · simp [hzero, Duration.ofSeconds_le_iff, Duration.ofSeconds_eq_zero_iff]
      · simp [hmost, hlongest, hzero, Duration.ofSeconds_le_iff, Duration.ofSeconds_eq_zero_iff]
    · have hzero : wholeSeconds groups ≠ 0 := by omega
      simp [hmost, hlongest, hzero, Duration.ofSeconds_le_iff]
  · have hlongest : ¬ wholeSeconds groups ≤ longestPeriod := by omega
    have hzero : wholeSeconds groups ≠ 0 := by omega
    simp [hmost, hlongest, hzero]

/-- **Whole seconds are exact.**  Let a text be made of one group at least, each of which is a whole
number of hours, minutes or seconds, with as many digits as there may be.

* If these are up to 9223372036 seconds, then the text is read as exactly so many seconds.
* If they are more, then it is refused as out of range.
* A copier that has the text as its period is not woken by the clock if and only if there are no
  seconds, it is woken after exactly so many seconds if and only if these are up to a year, and its
  period is refused if and only if there are more. -/
theorem whole_seconds_are_exact {groups : List Group} (hne : groups ≠ [])
    (h : ∀ g ∈ groups, g.IsWhole) :
    (wholeSeconds groups ≤ 9223372036 → ∃ d, Duration.read (written groups) = .ok d ∧
      d = ofSeconds (wholeSeconds groups) ∧ d.seconds = wholeSeconds groups ∧
        d.subsecondNanos = 0) ∧
    (9223372037 ≤ wholeSeconds groups →
      Duration.read (written groups) = .error (.outOfRange (written groups))) ∧
    ∀ c : Copier, c.spec.syncPeriod.toList = written groups →
      (c.nextPassDelay = .ok none ↔ wholeSeconds groups = 0) ∧
      (c.nextPassDelay = .ok (some (ofSeconds (wholeSeconds groups))) ↔
        0 < wholeSeconds groups ∧ wholeSeconds groups ≤ 31536000) ∧
      ((∃ e, c.nextPassDelay = .error e) ↔ 31536000 < wholeSeconds groups) := by
  have hyear : longestPeriod = 31536000 := by decide
  have hread := Duration.read_whole hne h
  rw [mostSeconds] at hread
  refine ⟨?_, ?_, ?_⟩
  · intro hmost
    rw [if_pos hmost] at hread
    exact ⟨_, hread, rfl, Duration.seconds_ofSeconds _, Duration.subsecondNanos_ofSeconds _⟩
  · intro hmore
    rwa [if_neg (Nat.not_le.2 hmore)] at hread
  · intro c hperiod
    rw [nextPassDelay_whole hne h hperiod, hyear]
    split
    · next hzero => simp [hzero]
    · next hzero =>
      split
      · next hlongest => simp [hzero, hlongest, Nat.pos_of_ne_zero hzero]
      · next hlongest => split <;> simp [hzero, hlongest, Nat.lt_of_not_le hlongest]

namespace Sample

open Duration.Sample (hour halfHour)

/-- Hours and minutes in some order. -/
def groups : List Group := [hour, halfHour, hour]

/-- A copier with these as its period. -/
def patient : Copier := { spec := { syncPeriod := "1h030m1h" } }

end Sample

/-- A copier with a period of two hours and thirty minutes is woken after as many seconds. -/
theorem patient_is_woken_exactly : Duration.read (written Sample.groups) = .ok (ofSeconds 9000) ∧
    Sample.patient.nextPassDelay = .ok (some (ofSeconds 9000)) := by
  have hwhole : ∀ g ∈ Sample.groups, g.IsWhole := by
    intro g hg
    simp only [Sample.groups, List.mem_cons, List.not_mem_nil, or_false] at hg
    rcases hg with rfl | rfl | rfl <;> exact ⟨rfl, by decide⟩
  have hseconds : wholeSeconds Sample.groups = 9000 := by decide
  have hne : Sample.groups ≠ [] := by decide
  have hexact := whole_seconds_are_exact hne hwhole
  rw [hseconds] at hexact
  obtain ⟨hread, -, hperiod⟩ := hexact
  obtain ⟨d, hd, rfl, -, -⟩ := hread (by decide)
  exact ⟨hd, (hperiod Sample.patient (by decide)).2.1.2 (by decide)⟩

end Copier

end SecretFanout
