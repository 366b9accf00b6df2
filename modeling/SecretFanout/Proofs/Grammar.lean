import SecretFanout.Proofs.Groups
import SecretFanout.Proofs.Rounding

/-!
# The grammar of durations

Which texts are durations, and which durations they are.

* `splitSign?_text`, `exists_sign` — the sign of a text.
* `longest_eq`, `settle_of_le` — the longest duration, and sums that are not beyond it.
* `readBody_written`, `of_readBody` — groups are read, and nothing else is.
* `durations_are_written_in_groups` — all this of a text with blanks and a sign around it.
-/

namespace SecretFanout.Duration

/-! ## Signs -/

/-- The signs that may stand in front of a duration. -/
inductive Sign where
  /-- There is none. -/
  | none
  /-- A plus sign. -/
  | plus
  /-- A minus sign. -/
  | minus
  deriving DecidableEq

/-- A sign in writing. -/
def Sign.text : Sign → List Char
  | .none => []
  | .plus => ['+']
  | .minus => ['-']

/-- A text is split behind its sign; if there is none, it must not look like one. -/
theorem splitSign?_text (sign : Sign) {body : List Char} (hbody : body ≠ [])
    (hhead : ∀ c ∈ body.head?, c ≠ '-' ∧ c ≠ '+') :
    splitSign? (sign.text ++ body) = some (decide (sign = .minus), body) := by
  cases sign with
  | none =>
    obtain ⟨c, r, rfl⟩ := List.exists_cons_of_ne_nil hbody
    obtain ⟨hminus, hplus⟩ := hhead c rfl
    exact splitSign?_other hminus hplus r
  | plus => exact splitSign?_plus body
  | minus => exact splitSign?_minus body

/-- Whatever a text is split into is a sign and what stands behind it. -/
theorem exists_sign {text body : List Char} {negative : Bool}
    (h : splitSign? text = some (negative, body)) :
    ∃ sign : Sign, text = sign.text ++ body ∧ negative = decide (sign = .minus) := by
  cases text with
  | nil => cases h
  | cons c r =>
    by_cases hminus : c = '-'
    · subst hminus
      rw [splitSign?_minus] at h
      obtain ⟨rfl, rfl⟩ := Prod.mk.inj (Option.some.inj h)
      exact ⟨.minus, rfl, rfl⟩
    · by_cases hplus : c = '+'
      · subst hplus
        rw [splitSign?_plus] at h
        obtain ⟨rfl, rfl⟩ := Prod.mk.inj (Option.some.inj h)
        exact ⟨.plus, rfl, rfl⟩
      · rw [splitSign?_other hminus hplus] at h
        obtain ⟨rfl, rfl⟩ := Prod.mk.inj (Option.some.inj h)
        exact ⟨.none, rfl, rfl⟩

/-! ## The longest duration -/

/-- The longest duration is this double. -/
theorem longest_eq : longest = .finite (4835703278458517 * 2 ^ 1055) := by decide +kernel

/-- It is rounded to these nanoseconds. -/
theorem nearest_longest : (nearest (4835703278458517 * 2 ^ 1055)).nanos = 9223372036854776382 := by
  decide +kernel

theorem nanos_nearest (ticks : Nat) :
    (nearest ticks).nanos = divNearestEven (ticks * nanosPerSecond) Binary64.ticksPerUnit := by
  rw [nearest]

/-- More ticks are not fewer nanoseconds. -/
theorem nanos_nearest_mono {a b : Nat} (h : a ≤ b) : (nearest a).nanos ≤ (nearest b).nanos := by
  rw [nanos_nearest, nanos_nearest]
  apply divNearestEven_mono
  exact Nat.mul_le_mul_right nanosPerSecond h

/-- A sum up to the longest duration is finite, and it is held. -/
theorem settle_of_le {sum : Binary64} (h : Binary64.le sum longest = true) (text : List Char) :
    ∃ ticks, ticks ≤ 4835703278458517 * 2 ^ 1055 ∧ sum = .finite ticks ∧
      settle text sum = .ok (nearest ticks) := by
  rw [settle, if_pos h]
  rw [longest_eq] at h
  cases sum with
  | infinite => cases h
  | finite ticks =>
    have hticks : ticks ≤ 4835703278458517 * 2 ^ 1055 := of_decide_eq_true h
    have hheld : (nearest ticks).nanos < secondsLimit * nanosPerSecond :=
      calc (nearest ticks).nanos ≤ (nearest (4835703278458517 * 2 ^ 1055)).nanos :=
            nanos_nearest_mono hticks
        _ = 9223372036854776382 := nearest_longest
        _ < secondsLimit * nanosPerSecond := by decide
    refine ⟨ticks, hticks, rfl, ?_⟩
    rw [ofBinary64?, if_pos hheld]

theorem settle_of_not_le {sum : Binary64} (h : Binary64.le sum longest = false) (text : List Char) :
    settle text sum = .error (.outOfRange text) := by
  rw [settle, if_neg (by simp [h])]

/-! ## Reading -/

/-- Groups are read: behind a minus sign they are zero, else their sum counts. -/
theorem readBody_written {groups : List Group} (hne : groups ≠ []) (text : List Char)
    (negative : Bool) :
    readBody text negative (written groups) =
      if negative then .ok 0 else settle text (total groups) := by
  obtain ⟨g, rest, rfl⟩ := List.exists_cons_of_ne_nil hne
  have hword := (word_shape g.word_unit).2.1
  have hlong : 2 ≤ (written (g :: rest)).length := by
    have hwhole := List.length_pos_of_ne_nil g.whole_ne_nil
    have := List.length_pos_of_ne_nil hword
    rw [written_cons, Group.text, Group.numeral]
    simp only [List.length_append]
    omega
  have hzero : written (g :: rest) ≠ ['0'] := by
    intro h
    rw [h] at hlong
    exact absurd hlong (by decide)
  have hpos : 0 < Text.byteLength (written (g :: rest)) :=
    Text.byteLength_pos (List.ne_nil_of_length_pos (by omega))
  rw [readBody, if_neg hzero, groupHits_written, addUp_placed]
  simp only [Nat.zero_add]
  rw [if_neg (by omega)]
  rfl

/-- What is read is a zero or is written in groups. -/
theorem of_readBody {text body : List Char} {negative : Bool} {d : Duration}
    (h : readBody text negative body = .ok d) :
    body = ['0'] ∨ ∃ groups, groups ≠ [] ∧ body = written groups := by
  rw [readBody] at h
  split at h
  · next hzero => exact Or.inl hzero
  · cases hsum : addUp (groupHits body) 0 0 with
    | none => simp [hsum] at h
    | some found =>
      obtain ⟨stop, sum⟩ := found
      simp only [hsum] at h
      split at h
      · cases h
      · next hstop =>
        obtain ⟨hpos, hall⟩ := not_or.1 hstop
        obtain rfl : stop = Text.byteLength body := Decidable.not_not.1 hall
        rw [← Nat.zero_add (Text.byteLength body)] at hsum
        obtain ⟨groups, rfl⟩ := exists_groups_of_addUp hsum
        refine Or.inr ⟨groups, ?_, rfl⟩
        rintro rfl
        exact hpos rfl

/-- A text with a sign that can be told from what stands behind it is read as that. -/
theorem read_of_trim {v body : List Char} (sign : Sign) (htrim : Text.trim v = sign.text ++ body)
    (hbody : body ≠ []) (hhead : ∀ c ∈ body.head?, c ≠ '-' ∧ c ≠ '+') :
    read v = readBody (Text.trim v) (decide (sign = .minus)) body := by
  have hne : Text.trim v ≠ [] := by
    rw [htrim]
    exact List.append_ne_nil_of_right_ne_nil _ hbody
  have hattempt : attempt? v = some (readBody (Text.trim v) (decide (sign = .minus)) body) := by
    have hsplit := splitSign?_text sign hbody hhead
    rw [← htrim] at hsplit
    simp only [attempt?, if_neg hne, hsplit, Option.map_some]
  simp only [read, hattempt, Option.get_some]

/-- What is read is a sign and what is read behind it. -/
theorem exists_readBody {v : List Char} {d : Duration} (h : read v = .ok d) :
    ∃ (sign : Sign) (body : List Char), Text.trim v = sign.text ++ body ∧
      readBody (Text.trim v) (decide (sign = .minus)) body = .ok d := by
  have hattempt : attempt? v = some (.ok d) := by
    rw [← h, read, Option.some_get]
  simp only [attempt?] at hattempt
  split at hattempt
  · cases hattempt
  · obtain ⟨⟨negative, body⟩, hsplit, hbody⟩ := Option.map_eq_some_iff.1 hattempt
    obtain ⟨sign, htrim, rfl⟩ := exists_sign hsplit
    exact ⟨sign, body, htrim, hbody⟩

/-- No digit is a sign. -/
theorem ne_sign_of_isDigit {c : Char} (h : c.isDigit = true) : c ≠ '-' ∧ c ≠ '+' := by
  constructor <;> rintro rfl <;> exact absurd h (by decide)

/-- A text of groups behind a sign. -/
theorem read_written {v : List Char} {groups : List Group} (sign : Sign)
    (htrim : Text.trim v = sign.text ++ written groups) (hne : groups ≠ []) :
    read v = if sign = .minus then .ok 0 else settle (Text.trim v) (total groups) := by
  have hbody : written groups ≠ [] := by
    obtain ⟨g, rest, rfl⟩ := List.exists_cons_of_ne_nil hne
    obtain ⟨c, r, htext, -⟩ := g.exists_head_text
    rw [written_cons, htext]
    exact List.cons_ne_nil _ _
  have hhead : ∀ c ∈ (written groups).head?, c ≠ '-' ∧ c ≠ '+' :=
    fun c hc => ne_sign_of_isDigit (isDigit_of_mem_head?_written c hc)
  rw [read_of_trim sign htrim hbody hhead, readBody_written hne]
  simp only [decide_eq_true_eq]

/-- A bare zero behind a sign. -/
theorem read_zero {v : List Char} (sign : Sign) (htrim : Text.trim v = sign.text ++ ['0']) :
    read v = .ok 0 := by
  rw [read_of_trim sign htrim (by simp) (by simp), readBody, if_pos rfl]

/-- What is read is a zero or a text of groups, with a sign in front of it. -/
theorem exists_body {v : List Char} {d : Duration} (h : read v = .ok d) :
    ∃ (sign : Sign) (body : List Char), Text.trim v = sign.text ++ body ∧
      (body = ['0'] ∨ ∃ groups, groups ≠ [] ∧ body = written groups) := by
  obtain ⟨sign, body, htrim, hbody⟩ := exists_readBody h
  exact ⟨sign, body, htrim, of_readBody hbody⟩

/-- What is read is zero or the sum of groups. -/
theorem eq_zero_or_exists_total {v : List Char} {d : Duration} (h : read v = .ok d) :
    d = 0 ∨ ∃ (sign : Sign) (groups : List Group) (ticks : Nat), sign ≠ .minus ∧ groups ≠ [] ∧
      Text.trim v = sign.text ++ written groups ∧ total groups = .finite ticks ∧
        ticks ≤ 4835703278458517 * 2 ^ 1055 ∧ d = nearest ticks := by
  obtain ⟨sign, body, htrim, rfl | ⟨groups, hne, rfl⟩⟩ := exists_body h
  · rw [read_zero sign htrim] at h
    exact Or.inl (Except.ok.inj h).symm
  · rw [read_written sign htrim hne] at h
    split at h
    · exact Or.inl (Except.ok.inj h).symm
    · next hsign =>
      cases hle : Binary64.le (total groups) longest with
      | false =>
        rw [settle_of_not_le hle] at h
        cases h
      | true =>
        obtain ⟨ticks, hticks, htotal, hsettle⟩ := settle_of_le hle (Text.trim v)
        rw [hsettle] at h
        exact Or.inr ⟨sign, groups, ticks, hsign, hne, htrim, htotal, hticks,
          (Except.ok.inj h).symm⟩

/-- **Durations are written in groups.**  Let `v` be any text.

* Reading it comes to a result: the text is not cut where that is not possible.
* If it is read as a duration, then there stands, between blanks and behind one sign at most, a
  bare zero or one group at least and nothing else.
* A bare zero behind a sign or without one is zero.
* Groups behind a sign or without one are found by the search one behind the other, and they are
  the only groups that are written so. Behind a minus sign they are zero. Otherwise they are the
  sum of their numbers times their units from left to right, rounded to nanoseconds, if this sum
  is at most the longest duration, and refused as out of range if it is beyond. -/
theorem durations_are_written_in_groups (v : List Char) :
    attempt? v = some (read v) ∧
    (∀ d, read v = .ok d → ∃ (sign : Sign) (body : List Char), Text.trim v = sign.text ++ body ∧
      (body = ['0'] ∨ ∃ groups, groups ≠ [] ∧ body = written groups)) ∧
    ∀ (sign : Sign) (body : List Char), Text.trim v = sign.text ++ body →
      (body = ['0'] → read v = .ok 0) ∧
      ∀ groups, groups ≠ [] → body = written groups →
        groupHits body = placed 0 groups ∧
        (∀ groups', body = written groups' → groups' = groups) ∧
        (sign = .minus → read v = .ok 0) ∧
        (sign ≠ .minus → Binary64.le (total groups) longest = true →
          ∃ ticks, total groups = .finite ticks ∧ read v = .ok (nearest ticks)) ∧
        (sign ≠ .minus → Binary64.le (total groups) longest = false →
          read v = .error (.outOfRange (Text.trim v))) := by
  refine ⟨(Option.some_get _).symm, fun d => exists_body, ?_⟩
  intro sign body htrim
  refine ⟨fun hzero => read_zero sign (hzero ▸ htrim), ?_⟩
  rintro groups hne rfl
  have hread := read_written sign htrim hne
  refine ⟨groupHits_written groups, fun groups' h => (written_injective h).symm, ?_, ?_, ?_⟩
  · intro hsign
    rw [hread, if_pos hsign]
  · intro hsign hle
    obtain ⟨ticks, -, htotal, hsettle⟩ := settle_of_le hle (Text.trim v)
    rw [hread, if_neg hsign, hsettle]
    exact ⟨ticks, htotal, rfl⟩
  · intro hsign hle
    rw [hread, if_neg hsign, settle_of_not_le hle]

namespace Sample

/-- One hour. -/
def hour : Group where
  whole := ['1']
  fraction := []
  word := ['h']
  unit := .hour
  whole_ne_nil := by decide
  whole_digits := List.all_eq_true.1 rfl
  fraction_digits := List.all_eq_true.1 rfl
  word_unit := by decide

/-- Thirty minutes, with a zero in front. -/
def halfHour : Group where
  whole := ['0', '3', '0']
  fraction := []
  word := ['m']
  unit := .minute
  whole_ne_nil := by decide
  whole_digits := List.all_eq_true.1 rfl
  fraction_digits := List.all_eq_true.1 rfl
  word_unit := by decide

/-- One microsecond and a half. -/
def microseconds : Group where
  whole := ['0', '1']
  fraction := ['5']
  word := ['\u00b5', 's']
  unit := .microsecond
  whole_ne_nil := by decide
  whole_digits := List.all_eq_true.1 rfl
  fraction_digits := List.all_eq_true.1 rfl
  word_unit := by decide

/-- All of them. -/
def groups : List Group := [hour, halfHour, microseconds]

/-- Their text, with a sign in front and blanks around. -/
def spaced : List Char := "\u2003 +1h030m01.5\u00b5s\n".toList

end Sample

/-- An hour and a half and one and a half microseconds are read as so many nanoseconds: behind a
plus sign there stand three groups, and nothing else. -/
theorem spaced_duration_is_read :
    Text.trim Sample.spaced = Sign.plus.text ++ written Sample.groups ∧
    groupHits (written Sample.groups) = [⟨0, ['1'], ['h']⟩, ⟨2, ['0', '3', '0'], ['m']⟩,
      ⟨6, ['0', '1', '.', '5'], ['\u00b5', 's']⟩] ∧
    read Sample.spaced = .ok ⟨5400000001500⟩ := by
  obtain ⟨-, -, hsigned⟩ := durations_are_written_in_groups Sample.spaced
  have htrim : Text.trim Sample.spaced = Sign.plus.text ++ written Sample.groups := by
    decide +kernel
  obtain ⟨hhits, -, -, hsum, -⟩ := (hsigned .plus _ htrim).2 _ (by decide) rfl
  obtain ⟨ticks, hticks, hread⟩ := hsum (by decide) (by decide +kernel)
  have hvalue : ofBinary64? (total Sample.groups) = some ⟨5400000001500⟩ := by decide +kernel
  rw [hticks, ofBinary64?] at hvalue
  split at hvalue
  · exact ⟨htrim, hhits, hread.trans (congrArg Except.ok (Option.some.inj hvalue))⟩
  · cases hvalue

end SecretFanout.Duration
