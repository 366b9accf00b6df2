/-!
# Blank characters

The characters with the Unicode property `White_Space`, and texts without them at
either end.

* `trim_eq_self`: a text that neither starts nor ends with a blank is left alone.
-/

namespace SecretFanout.Text

/-- The ranges of code points with the Unicode property `White_Space`. -/
def blankRanges : List (Nat × Nat) :=
  [(0x09, 0x0d), (0x20, 0x20), (0x85, 0x85), (0xa0, 0xa0), (0x1680, 0x1680), (0x2000, 0x200a),
   (0x2028, 0x2029), (0x202f, 0x202f), (0x205f, 0x205f), (0x3000, 0x3000)]

/-- Whether a character is white space. -/
def isBlank (c : Char) : Bool :=
  blankRanges.any fun r => r.1 ≤ c.toNat && c.toNat ≤ r.2

/-- A text without the blanks at its start. -/
def trimStart (s : List Char) : List Char := s.dropWhile isBlank

/-- A text without the blanks at its end. -/
def trimEnd (s : List Char) : List Char := (s.reverse.dropWhile isBlank).reverse

/-- A text without the blanks at its two ends. -/
def trim (s : List Char) : List Char := trimEnd (trimStart s)

/-! ## Laws -/

theorem trim_eq_self {s : List Char} (hhead : ∀ c ∈ s.head?, isBlank c = false)
    (hlast : ∀ c ∈ s.getLast?, isBlank c = false) : trim s = s := by
  have hstart : trimStart s = s := by
    cases s with
    | nil => rfl
    | cons c r => simp [trimStart, hhead c (by simp)]
  rw [trim, hstart, trimEnd]
  cases hr : s.reverse with
  | nil => simpa using hr
  | cons c r =>
    have : isBlank c = false := hlast c (by rw [← List.head?_reverse, hr]; rfl)
    rw [List.dropWhile_cons, this, ← List.reverse_reverse s, hr]
    simp

end SecretFanout.Text
