import Mathlib.Data.List.TakeWhile
import SecretFanout.Duration
import SecretFanout.Proofs.Patterns

/-!
# Groups of durations

A duration is written in groups, each of which is a decimal number in ASCII digits in front of a
word for a unit, with no blanks between. The reading does not go by this grammar: it searches the
text for numbers in front of units and looks whether these leave anything out.

* `Group`, `written` — a group, and groups in writing.
* `groupHits_written` — the search finds the groups that were written, one behind the other, so
  that groups can be read off their writing: `written_injective`.
* `exists_groups_of_addUp` — where what is found leaves nothing out, the text is made of groups.
-/

namespace SecretFanout.Duration

open Text (Pattern)
open Text.Pattern (Hit)

/-! ## Groups -/

/-- A decimal number and a unit, as they are written. -/
@[ext] structure Group where
  /-- The digits in front of the point. -/
  whole : List Char
  /-- The digits behind the point; none if there is no point. -/
  fraction : List Char
  /-- The word for the unit. -/
  word : List Char
  /-- The unit. -/
  unit : Unit
  /-- There are digits. -/
  whole_ne_nil : whole ≠ []
  /-- They are ASCII digits. -/
  whole_digits : ∀ c ∈ whole, c.isDigit = true
  /-- Behind the point, too. -/
  fraction_digits : ∀ c ∈ fraction, c.isDigit = true
  /-- The word stands for the unit. -/
  word_unit : (word, unit) ∈ unitWords

namespace Group

/-- The point and the digits behind it, if there are any. -/
def decimals (g : Group) : List Char := if g.fraction = [] then [] else '.' :: g.fraction

/-- The number of a group in writing. -/
def numeral (g : Group) : List Char := g.whole ++ g.decimals

/-- A group in writing. -/
def text (g : Group) : List Char := g.numeral ++ g.word

/-- The number of a group, in double precision. -/
def number (g : Group) : Binary64 :=
  .ofRatio (Text.digitsValue (g.whole ++ g.fraction)) (Nat.pow 10 g.fraction.length)

/-- The seconds of a group, in double precision. -/
def seconds (g : Group) : Binary64 := g.number * g.unit.scale

end Group

/-- Groups in writing. -/
def written (groups : List Group) : List Char := groups.flatMap Group.text

/-- The sum of groups from left to right, in double precision. -/
def total (groups : List Group) : Binary64 := groups.foldl (fun sum g => sum + g.seconds) 0

/-- The places of groups, one behind the other, with so many bytes in front of them. -/
def placed (start : Nat) : List Group → List Hit
  | [] => []
  | g :: groups => ⟨start, g.numeral, g.word⟩ :: placed (start + Text.byteLength g.text) groups

@[simp] theorem written_nil : written [] = [] := rfl

@[simp] theorem written_cons (g : Group) (groups : List Group) :
    written (g :: groups) = g.text ++ written groups := rfl

/-! ## Numbers and words -/

theorem isDigit_bounds {c : Char} (h : c.isDigit = true) : 48 ≤ c.toNat ∧ c.toNat ≤ 57 := by
  simp only [Char.isDigit, Bool.and_eq_true, decide_eq_true_eq, UInt32.le_iff_toNat_le] at h
  exact h

theorem not_isBlank_of_isDigit {c : Char} (h : c.isDigit = true) : Text.isBlank c = false := by
  obtain ⟨hlow, hhigh⟩ := isDigit_bounds h
  rw [Text.isBlank, Text.blankRanges]
  simp only [List.any_cons, List.any_nil, Bool.or_false, Bool.or_eq_false_iff,
    Bool.and_eq_false_iff, decide_eq_false_iff_not]
  omega

variable {g : Group}

theorem Group.exists_head_text (g : Group) : ∃ c r, g.text = c :: r ∧ c.isDigit = true := by
  obtain ⟨c, r, hwhole⟩ := List.exists_cons_of_ne_nil g.whole_ne_nil
  have hc : c.isDigit = true := g.whole_digits c (by rw [hwhole]; exact List.mem_cons_self)
  rw [text, numeral, hwhole, List.cons_append, List.cons_append]
  exact ⟨c, _, rfl, hc⟩

/-- What is written in groups starts with a digit, if it does not end at once. -/
theorem isDigit_of_mem_head?_written {groups : List Group} :
    ∀ c ∈ (written groups).head?, c.isDigit = true := by
  cases groups with
  | nil => exact fun c hc => by simp at hc
  | cons g groups =>
    obtain ⟨d, r, htext, hd⟩ := g.exists_head_text
    intro c hc
    rw [written_cons, htext, List.cons_append, List.head?_cons, Option.mem_some_iff] at hc
    exact hc ▸ hd

/-- A word for a unit starts with no digit and no point, and it ends with no blank. -/
theorem word_shape {word : List Char} {unit : Unit} (h : (word, unit) ∈ unitWords) :
    (∀ c ∈ word.head?, Text.isDecimal c = false ∧ c ≠ '.') ∧ word ≠ [] ∧
      (∀ c ∈ word.getLast?, Text.isBlank c = false) ∧ Unit.ofWord? word = some unit := by
  have hall : ∀ entry ∈ unitWords,
      entry.1.head?.all (fun c => !Text.isDecimal c && c != '.') = true ∧ entry.1 ≠ [] ∧
        entry.1.getLast?.all (fun c => !Text.isBlank c) = true ∧
          Unit.ofWord? entry.1 = some entry.2 := by
    decide +kernel
  obtain ⟨hhead, hne, hlast, hunit⟩ := hall _ h
  exact ⟨by simpa [Option.all_eq_true] using hhead, hne, by simpa [Option.all_eq_true] using hlast,
    hunit⟩

/-- Of the words for units the one is preferred that was written, unless the text goes on so that
there is a longer one. -/
theorem ways_unitPattern {word rest : List Char} {unit : Unit} (h : (word, unit) ∈ unitWords)
    (hrest : ∀ c ∈ rest.head?, c.isDigit = true) :
    ∃ others, unitPattern.ways (word ++ rest) = (word, rest) :: others := by
  -- the one longer word: minutes would be milliseconds if the text went on with an `s`
  have hlonger : ∀ r, ['s'].isPrefixOf? rest ≠ some r := by
    intro r hr
    rw [List.isPrefixOf?_eq_some_iff_append_eq] at hr
    exact absurd (hrest 's' (by rw [← hr]; rfl)) (by decide)
  have hminute : ['s'].isPrefixOf? rest = none := Option.eq_none_iff_forall_ne_some.2 hlonger
  simp only [unitWords, List.mem_cons, Prod.mk.injEq, List.not_mem_nil, or_false] at h
  rcases h with ⟨rfl, -⟩ | ⟨rfl, -⟩ | ⟨rfl, -⟩ | ⟨rfl, -⟩ | ⟨rfl, -⟩ | ⟨rfl, -⟩ | ⟨rfl, -⟩ <;>
    simp [unitPattern, unitWords, Pattern.ways, List.isPrefixOf?, hminute]

/-- A fraction is taken rather than left out. -/
theorem ways_decimals (g : Group) {rest : List Char}
    (hrest : ∀ c ∈ rest.head?, Text.isDecimal c = false ∧ c ≠ '.') :
    ∃ others, (Pattern.maybe (.row (.words [['.']]) (.run Text.isDecimal))).ways
      (g.decimals ++ rest) = (g.decimals, rest) :: others := by
  rw [Group.decimals]
  split
  · have hpoint : ∀ r, ['.'].isPrefixOf? rest ≠ some r := by
      intro r hr
      rw [List.isPrefixOf?_eq_some_iff_append_eq] at hr
      exact (hrest '.' (by rw [← hr]; rfl)).2 rfl
    exact ⟨[], by simp [Pattern.ways, Option.eq_none_iff_forall_ne_some.2 hpoint]⟩
  · next hfraction =>
    have hdigits : ∀ c ∈ g.fraction, Text.isDecimal c = true :=
      fun c hc => Text.isDecimal_of_isDigit (g.fraction_digits c hc)
    obtain ⟨others, hrun⟩ := Pattern.runWays_append hfraction hdigits fun c hc => (hrest c hc).1
    have hpoint : (Pattern.words [['.']]).ways ('.' :: g.fraction ++ rest) =
        [(['.'], g.fraction ++ rest)] := by
      simp [Pattern.ways, List.isPrefixOf?]
    obtain ⟨others', hrow⟩ := Pattern.ways_row hpoint (show (Pattern.run _).ways _ = _ from hrun)
    exact ⟨_, by rw [Pattern.ways, hrow]; rfl⟩

theorem Group.eq_point_of_mem_head? (g : Group) : ∀ c ∈ g.decimals.head?, c = '.' := by
  rw [decimals]
  split
  · exact fun c hc => by simp at hc
  · exact fun c hc => by simpa using hc.symm

/-- Of the ways to take a number the one is preferred that takes all of it. -/
theorem ways_numberPattern (g : Group) {rest : List Char}
    (hrest : ∀ c ∈ rest.head?, Text.isDecimal c = false ∧ c ≠ '.') :
    ∃ others, numberPattern.ways (g.numeral ++ rest) = (g.numeral, rest) :: others := by
  have hwhole : ∀ c ∈ g.whole, Text.isDecimal c = true :=
    fun c hc => Text.isDecimal_of_isDigit (g.whole_digits c hc)
  have hstop : ∀ c ∈ (g.decimals ++ rest).head?, Text.isDecimal c = false := by
    intro c hc
    rw [List.head?_append, Option.mem_def, Option.or_eq_some_iff] at hc
    rcases hc with hc | ⟨-, hc⟩
    · exact g.eq_point_of_mem_head? c hc ▸ by decide
    · exact (hrest c hc).1
  obtain ⟨others, hrun⟩ := Pattern.runWays_append g.whole_ne_nil hwhole hstop
  obtain ⟨others', hdecimals⟩ := ways_decimals g hrest
  rw [Group.numeral, List.append_assoc]
  exact Pattern.ways_row (show (Pattern.run _).ways _ = _ from hrun) hdecimals

theorem spanDigits_numeral (g : Group) : Text.spanDigits g.numeral = (g.whole, g.decimals) :=
  Text.spanDigits_append g.whole_digits fun c hc => g.eq_point_of_mem_head? c hc ▸ rfl

/-- What is written of a number is read as this number. -/
theorem readNumber?_numeral (g : Group) : readNumber? g.numeral = some g.number := by
  obtain ⟨d, r, hwhole⟩ := List.exists_cons_of_ne_nil g.whole_ne_nil
  rw [readNumber?, spanDigits_numeral, Group.number, hwhole, Group.decimals]
  by_cases hfraction : g.fraction = []
  · simp [hfraction]
  · have hdigits : g.fraction.all Char.isDigit = true := by simpa using g.fraction_digits
    simp [hfraction, hdigits]

/-! ## The search finds what was written -/

/-- At the start of a group the number and the word of this group are found. -/
theorem pair?_text (g : Group) {rest : List Char} (hrest : ∀ c ∈ rest.head?, c.isDigit = true) :
    Pattern.pair? numberPattern unitPattern (g.text ++ rest) = some (g.numeral, g.word) := by
  obtain ⟨hhead, hne, -, -⟩ := word_shape g.word_unit
  have hstop : ∀ c ∈ (g.word ++ rest).head?, Text.isDecimal c = false ∧ c ≠ '.' := by
    intro c hc
    rw [List.head?_append_of_ne_nil _ hne] at hc
    exact hhead c hc
  obtain ⟨others, hnumber⟩ := ways_numberPattern g hstop
  obtain ⟨others', hunit⟩ := ways_unitPattern g.word_unit hrest
  rw [Group.text, List.append_assoc]
  exact Pattern.pair?_of_ways hnumber hunit

/-- The search finds the groups that were written, one behind the other. -/
theorem hitsFrom_written (groups : List Group) (start : Nat) :
    Pattern.hitsFrom numberPattern unitPattern start 0 (written groups) = placed start groups := by
  induction groups generalizing start with
  | nil => rfl
  | cons g groups ih =>
    obtain ⟨c, r, htext, -⟩ := g.exists_head_text
    have hne : g.numeral ++ g.word ≠ [] := by
      rw [← Group.text, htext]
      exact List.cons_ne_nil _ _
    have hpair := pair?_text g (@isDigit_of_mem_head?_written groups)
    rw [written_cons, placed, ← ih]
    exact Pattern.hitsFrom_of_pair? hne hpair start

theorem groupHits_written (groups : List Group) : groupHits (written groups) = placed 0 groups :=
  hitsFrom_written groups 0

/-- A group can be read off its number and its word in writing. -/
theorem Group.eq_of_writing {g g' : Group} (hnumeral : g.numeral = g'.numeral)
    (hword : g.word = g'.word) : g = g' := by
  obtain ⟨hwhole, hdecimals⟩ : g.whole = g'.whole ∧ g.decimals = g'.decimals := by
    rw [← Prod.mk.injEq, ← spanDigits_numeral, ← spanDigits_numeral, hnumeral]
  have htail : ∀ k : Group, k.decimals.tail = k.fraction := by
    intro k
    by_cases hfraction : k.fraction = [] <;> simp [decimals, hfraction]
  have hunit : some g.unit = some g'.unit := by
    rw [← (word_shape g.word_unit).2.2.2, ← (word_shape g'.word_unit).2.2.2, hword]
  refine Group.ext hwhole ?_ hword (Option.some.inj hunit)
  rw [← htail g, ← htail g', hdecimals]

theorem placed_injective {groups groups' : List Group} (start : Nat)
    (h : placed start groups = placed start groups') : groups = groups' := by
  induction groups generalizing groups' start with
  | nil =>
    cases groups' with
    | nil => rfl
    | cons g' groups' => cases h
  | cons g groups ih =>
    cases groups' with
    | nil => cases h
    | cons g' groups' =>
      obtain ⟨hhit, hrest⟩ := List.cons.inj h
      obtain ⟨-, hnumeral, hword⟩ := Hit.mk.inj hhit
      obtain rfl := Group.eq_of_writing hnumeral hword
      rw [ih _ hrest]

/-- Groups can be read off what is written of them. -/
theorem written_injective {groups groups' : List Group} (h : written groups = written groups') :
    groups = groups' := by
  apply placed_injective 0
  rw [← groupHits_written, ← groupHits_written, h]

/-- Groups are added up from left to right, and none of them leaves a gap. -/
theorem addUp_placed (groups : List Group) (start : Nat) (sum : Binary64) :
    addUp (placed start groups) start sum =
      some (start + Text.byteLength (written groups),
        groups.foldl (fun sum g => sum + g.seconds) sum) := by
  induction groups generalizing start sum with
  | nil => rfl
  | cons g groups ih =>
    have hunit := (word_shape g.word_unit).2.2.2
    have hstop : Hit.stop ⟨start, g.numeral, g.word⟩ = start + Text.byteLength g.text := rfl
    rw [placed, addUp, if_neg (not_not_intro rfl)]
    simp only [readNumber?_numeral, hunit]
    rw [hstop, ih, written_cons, Text.byteLength_append, Nat.add_assoc]
    rfl

/-! ## What is found was written -/

/-- What the pattern for numbers takes ends with a digit of some script. -/
theorem isDecimal_of_mem_getLast? {x : List Char} (h : numberPattern.Takes x) :
    ∀ c ∈ x.getLast?, Text.isDecimal c = true := by
  obtain ⟨y, z, rfl, ⟨hy, hdigits⟩, rfl | ⟨point, fraction, rfl, -, hne, hfraction⟩⟩ := h
  · rw [List.append_nil]
    exact fun c hc => hdigits c (List.mem_of_getLast? hc)
  · rw [← List.append_assoc, List.getLast?_append_of_ne_nil _ hne]
    exact fun c hc => hfraction c (List.mem_of_getLast? hc)

/-- A number that can be read has ASCII digits, with a point in front of the last ones or without
any. -/
theorem of_readNumber? {x : List Char} {number : Binary64} (h : readNumber? x = some number) :
    ∃ whole, whole ≠ [] ∧ (∀ c ∈ whole, c.isDigit = true) ∧
      (x = whole ∨
        ∃ fraction, x = whole ++ '.' :: fraction ∧ ∀ c ∈ fraction, c.isDigit = true) := by
  have hspan : (Text.spanDigits x).1 ++ (Text.spanDigits x).2 = x := List.takeWhile_append_dropWhile
  have hdigits : ∀ c ∈ (Text.spanDigits x).1, c.isDigit = true := fun _ => List.mem_takeWhile_imp
  rw [readNumber?] at h
  split at h
  · cases h
  · next whole hne heq =>
    rw [heq] at hspan hdigits
    exact ⟨whole, hne, hdigits, Or.inl (by simpa using hspan.symm)⟩
  · next whole fraction hne heq =>
    rw [heq] at hspan hdigits
    split at h
    · next hfraction =>
      exact ⟨whole, hne, hdigits, Or.inr ⟨fraction, hspan.symm, by simpa using hfraction⟩⟩
    · cases h
  · cases h

/-- What the pattern for numbers takes and can be read is the number of a group. -/
theorem exists_group {x y : List Char} (hx : numberPattern.Takes x) (hy : unitPattern.Takes y)
    {number : Binary64} (hnumber : readNumber? x = some number) :
    ∃ g : Group, g.numeral = x ∧ g.word = y := by
  obtain ⟨⟨word, unit⟩, hword, rfl⟩ := List.mem_map.1 hy
  obtain ⟨whole, hne, hwhole, rfl | ⟨fraction, rfl, hfraction⟩⟩ := of_readNumber? hnumber
  · exact ⟨⟨x, [], word, unit, hne, hwhole, by simp, hword⟩,
      by simp [Group.numeral, Group.decimals], rfl⟩
  · have hlast : fraction ≠ [] := by
      rintro rfl
      exact absurd (isDecimal_of_mem_getLast? hx '.' (by simp)) (by decide)
    exact ⟨⟨whole, fraction, word, unit, hne, hwhole, hfraction, hword⟩,
      by simp [Group.numeral, Group.decimals, hlast], rfl⟩

/-- Where the groups that are found leave nothing out, the text is made of them. -/
theorem exists_groups_of_addUp {s : List Char} {start : Nat} {sum sum' : Binary64}
    (h : addUp (Pattern.hitsFrom numberPattern unitPattern start 0 s) start sum =
      some (start + Text.byteLength s, sum')) :
    ∃ groups, s = written groups := by
  induction hlength : s.length using Nat.strong_induction_on generalizing s start sum with
  | _ n ih =>
  subst hlength
  cases s with
  | nil => exact ⟨[], rfl⟩
  | cons c r =>
    cases hpair : Pattern.pair? numberPattern unitPattern (c :: r) with
    | none =>
      -- the next group is found behind this character, which is left out
      exfalso
      rw [Pattern.hitsFrom_of_none hpair] at h
      have hpos := c.utf8Size_pos
      cases hhits : Pattern.hitsFrom numberPattern unitPattern (start + c.utf8Size) 0 r with
      | nil =>
        rw [hhits, addUp, Option.some.injEq, Prod.mk.injEq, Text.byteLength_cons] at h
        omega
      | cons hit hits =>
        have hle := Pattern.le_start_of_mem (hhits ▸ List.mem_cons_self)
        rw [hhits, addUp, if_pos (by omega)] at h
        cases h
    | some found =>
      obtain ⟨x, y⟩ := found
      obtain ⟨rest, hs, hx, hy⟩ := Pattern.of_pair? hpair
      have hword : y ≠ [] := by
        obtain ⟨entry, hentry, rfl⟩ := List.mem_map.1 hy
        exact (word_shape hentry).2.1
      rw [hs] at hpair h
      rw [Pattern.hitsFrom_of_pair? (List.append_ne_nil_of_right_ne_nil _ hword) hpair, addUp,
        if_neg (not_not_intro rfl)] at h
      cases hnumber : readNumber? x with
      | none => simp [hnumber] at h
      | some number =>
        obtain ⟨g, rfl, rfl⟩ := exists_group hx hy hnumber
        have hunit := (word_shape g.word_unit).2.2.2
        simp only [hnumber, hunit, Text.byteLength_append (g.numeral ++ g.word),
          ← Nat.add_assoc] at h
        have hshorter : rest.length < (c :: r).length := by
          have := List.length_pos_of_ne_nil hword
          rw [hs, List.length_append, List.length_append]
          omega
        obtain ⟨groups, rfl⟩ := ih _ hshorter h rfl
        exact ⟨g :: groups, hs⟩

end SecretFanout.Duration
