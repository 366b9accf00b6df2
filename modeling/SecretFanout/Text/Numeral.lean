/-!
# Decimal numerals

Reading runs of ASCII digits. `digitsValue` is the number that a run of digits names;
`readBelow` reads a whole text as a number below a bound, with an optional plus sign, and
says what is wrong with one that is none.

* `foldl_digits_eq`: writing digits behind a number shifts it by a power of ten.
* `readBelow_eq_ok_iff`: what is read is exactly the numbers below the bound, `IsNumeral`.
-/

namespace SecretFanout.Text

/-- The value of an ASCII digit. -/
def digitValue (c : Char) : Nat := c.toNat - '0'.toNat

/-- The number that a run of digits names; the empty run names 0. -/
def digitsValue (s : List Char) : Nat := s.foldl (fun n c => 10 * n + digitValue c) 0

/-- The digits at the start of a text, and the rest. -/
def spanDigits (s : List Char) : List Char × List Char := (s.takeWhile Char.isDigit, s.dropWhile Char.isDigit)

/-- The decimal digits of a number. -/
def natText (n : Nat) : String := String.ofList (Nat.toDigits 10 n)

/-- Digits are taken up to the first other character. -/
theorem spanDigits_append {s r : List Char} (hs : ∀ c ∈ s, c.isDigit = true)
    (hr : ∀ c ∈ r.head?, c.isDigit = false) : spanDigits (s ++ r) = (s, r) := by
  rw [spanDigits, List.takeWhile_append_of_pos hs, List.dropWhile_append_of_pos hs]
  cases r with
  | nil => simp
  | cons c r => simp [hr c (by simp)]

theorem foldl_digits_eq (s : List Char) (n : Nat) :
    s.foldl (fun n c => 10 * n + digitValue c) n = n * Nat.pow 10 s.length + digitsValue s := by
  rw [Nat.pow_eq]
  induction s generalizing n with
  | nil => simp [digitsValue]
  | cons c r ih =>
    have hc : digitsValue (c :: r) = digitValue c * 10 ^ r.length + digitsValue r := by
      rw [digitsValue, List.foldl_cons, ih, Nat.mul_zero, Nat.zero_add]
    rw [List.foldl_cons, ih, hc, List.length_cons, Nat.pow_succ, Nat.add_mul, Nat.mul_comm 10 n,
      Nat.mul_assoc, Nat.mul_comm 10 (10 ^ r.length)]
    omega

/-- Different numbers have different digits. -/
theorem natText_inj {m n : Nat} (h : natText m = natText n) : m = n := by
  have hdigits : Nat.toDigits 10 m = Nat.toDigits 10 n := String.ofList_injective h
  rw [← Nat.ofDigitChars_ten_toDigits (n := m), hdigits, Nat.ofDigitChars_ten_toDigits]

/-- Why a text is no number of a given width. -/
inductive NumeralError where
  /-- The text is empty. -/
  | empty
  /-- Some character is no digit, or a sign stands alone. -/
  | invalidDigit
  /-- The number does not fit. -/
  | overflow
  deriving DecidableEq

/-- What is wrong with a numeral, in words. -/
def NumeralError.message : NumeralError → String
  | .empty => "cannot parse integer from empty string"
  | .invalidDigit => "invalid digit found in string"
  | .overflow => "number too large to fit in target type"

/-- Reads an unsigned number below a bound; one plus sign may stand in front. A
number that is too large is reported at the digit that makes it so, before any
character behind that digit is looked at. -/
def readBelow (bound : Nat) (s : List Char) : Except NumeralError Nat :=
  match s with
  | [] => .error .empty
  | ['+'] | ['-'] => .error .invalidDigit
  | '+' :: r => go 0 r
  | s => go 0 s
where
  /-- Appends digits to a number. -/
  go (n : Nat) : List Char → Except NumeralError Nat
    | [] => .ok n
    | c :: r =>
      if c.isDigit then
        if 10 * n + digitValue c < bound then go (10 * n + digitValue c) r else .error .overflow
      else .error .invalidDigit

/-! ## What is read -/

/-- Whether a text is a run of ASCII digits that names a number. -/
def IsDigitRun (s : List Char) (n : Nat) : Prop :=
  s ≠ [] ∧ (∀ c ∈ s, c.isDigit = true) ∧ digitsValue s = n

/-- Whether a text is a number in writing: a run of digits, behind one plus sign at most. -/
def IsNumeral (s : List Char) (n : Nat) : Prop :=
  ∃ digits, IsDigitRun digits n ∧ (s = digits ∨ s = '+' :: digits)

theorem isNumeral_plus_iff {r : List Char} {n : Nat} :
    IsNumeral ('+' :: r) n ↔ IsDigitRun r n := by
  constructor
  · rintro ⟨digits, hrun, rfl | hr⟩
    · exact absurd (hrun.2.1 '+' List.mem_cons_self) (by decide)
    · exact List.tail_eq_of_cons_eq hr ▸ hrun
  · exact fun hrun => ⟨r, hrun, Or.inr rfl⟩

theorem isNumeral_iff_of_head? {s : List Char} {n : Nat} (h : s.head? ≠ some '+') :
    IsNumeral s n ↔ IsDigitRun s n := by
  constructor
  · rintro ⟨digits, hrun, rfl | rfl⟩
    · exact hrun
    · exact absurd rfl h
  · exact fun hrun => ⟨s, hrun, Or.inl rfl⟩

theorem le_foldl_digits (s : List Char) (n : Nat) :
    n ≤ s.foldl (fun n c => 10 * n + digitValue c) n := by
  rw [foldl_digits_eq]
  exact Nat.le_add_right_of_le (Nat.le_mul_of_pos_right n (Nat.pow_pos (by decide)))

/-- Digits are appended as long as the number fits, so that only its last value counts. -/
theorem readBelow_go_eq_ok_iff {bound n m : Nat} {s : List Char} :
    readBelow.go bound n s = .ok m ↔
      (∀ c ∈ s, c.isDigit = true) ∧ s.foldl (fun n c => 10 * n + digitValue c) n = m ∧
        (s ≠ [] → m < bound) := by
  induction s generalizing n with
  | nil => simp [readBelow.go]
  | cons c r ih =>
    rw [readBelow.go, List.foldl_cons]
    have hgrows := le_foldl_digits r (10 * n + digitValue c)
    split
    · next hc =>
      split
      · next hfits =>
        rw [ih]
        constructor
        · rintro ⟨hr, hm, hbound⟩
          refine ⟨by simpa [hc] using hr, hm, fun _ => ?_⟩
          cases r with
          | nil => exact hm ▸ hfits
          | cons d r => exact hbound (List.cons_ne_nil d r)
        · rintro ⟨hr, hm, hbound⟩
          exact ⟨fun d hd => hr d (List.mem_cons_of_mem c hd), hm,
            fun _ => hbound (List.cons_ne_nil c r)⟩
      · next hfits =>
        refine iff_of_false nofun ?_
        rintro ⟨-, rfl, hbound⟩
        exact hfits (Nat.lt_of_le_of_lt hgrows (hbound (List.cons_ne_nil c r)))
    · next hc =>
      exact iff_of_false nofun fun h => hc (h.1 c List.mem_cons_self)

theorem readBelow_go_zero_eq_ok_iff {bound n : Nat} {s : List Char} (h : s ≠ []) :
    readBelow.go bound 0 s = .ok n ↔ IsDigitRun s n ∧ n < bound := by
  rw [readBelow_go_eq_ok_iff, IsDigitRun, digitsValue]
  constructor
  · exact fun ⟨hdigits, hvalue, hbound⟩ => ⟨⟨h, hdigits, hvalue⟩, hbound h⟩
  · exact fun ⟨⟨_, hdigits, hvalue⟩, hbound⟩ => ⟨hdigits, hvalue, fun _ => hbound⟩

/-- Exactly the numbers below the bound are read. -/
theorem readBelow_eq_ok_iff {bound n : Nat} {s : List Char} :
    readBelow bound s = .ok n ↔ IsNumeral s n ∧ n < bound := by
  unfold readBelow
  split
  · refine iff_of_false nofun ?_
    rintro ⟨⟨digits, hrun, rfl | hnil⟩, -⟩
    · exact hrun.1 rfl
    · cases hnil
  · refine iff_of_false nofun ?_
    rw [isNumeral_plus_iff]
    exact fun h => h.1.1 rfl
  · refine iff_of_false nofun ?_
    rw [isNumeral_iff_of_head? (by decide)]
    exact fun h => absurd (h.1.2.1 '-' List.mem_cons_self) (by decide)
  · next r hplus =>
    rw [isNumeral_plus_iff, readBelow_go_zero_eq_ok_iff]
    rintro rfl
    exact hplus rfl
  · next hnil _ _ hplus =>
    have hhead : s.head? ≠ some '+' := by
      intro h
      obtain ⟨r, rfl⟩ := List.head?_eq_some_iff.1 h
      exact hplus r rfl
    rw [isNumeral_iff_of_head? hhead, readBelow_go_zero_eq_ok_iff hnil]

end SecretFanout.Text
