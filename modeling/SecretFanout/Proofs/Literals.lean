import Mathlib.Tactic.Linarith
import SecretFanout.Glob
import SecretFanout.Text.Bytes

/-!
# Literal patterns

Patterns without special characters, alone and with a star at their end. A walk goes through
the literal part byte by byte and stops where the text differs; at the star it goes back once
for each byte that is left of the text.

* `IsLiteral` — what makes a pattern literal.
* `HaltsWithin` — a walk comes to its verdict within a number of moves; `step_literal`,
  `step_star` and `step_back` are the moves, `haltsWithin_literal`, `haltsWithin_of_differs` and
  `haltsWithin_star` put them together.
* `globMatches_literal` — a literal pattern matches itself only.
* `globMatches_star` — with a star behind it, it matches what starts with it, as long as there is
  no `/` in the text.
-/

namespace SecretFanout.Glob

/-! ## What makes a pattern literal -/

/-- The characters that mean something else than themselves anywhere in a pattern. -/
def specials : List Char := ['*', '?', '[', '{', '\\']

/-- Every character of a pattern stands for itself. -/
structure IsLiteral (pattern : String) : Prop where
  /-- It has no special character. -/
  plain : ∀ c ∈ specials, c ∉ pattern.toList
  /-- It does not start with the sign that inverts a pattern. -/
  upright : pattern.toList.head? ≠ some '!'

instance (pattern : String) : Decidable (IsLiteral pattern) :=
  decidable_of_iff
    ((specials.all fun c => !pattern.toList.contains c) = true ∧ pattern.toList.head? ≠ some '!')
    ⟨fun h => ⟨by simpa using h.1, h.2⟩, fun h => ⟨by simpa using h.plain, h.upright⟩⟩

/-- A byte that stands for itself. -/
def IsPlain (b : UInt8) : Prop := ∀ c ∈ specials, b ≠ byte c

/-! ## Walks that come to an end -/

variable {g p : Array UInt8} {i j k n : Nat} {s t : State} {v : Verdict} {b : UInt8}
  {l : List UInt8} {w : Mark}

/-- A walk comes to its verdict within a number of moves. -/
def HaltsWithin (g p : Array UInt8) (k : Nat) (s : State) (v : Verdict) : Prop :=
  ∀ n, k ≤ n → walk g p n s = v

theorem HaltsWithin.mono (h : HaltsWithin g p k s v) (hk : k ≤ n) : HaltsWithin g p n s v :=
  fun m hm => h m (Nat.le_trans hk hm)

/-- A move can be the last one. -/
theorem haltsWithin_of_halt (h : step g p s = .halt v) : HaltsWithin g p 1 s v := by
  intro n hn
  obtain ⟨m, rfl⟩ := Nat.exists_eq_add_of_le' hn
  rw [walk, h]

/-- A move can be followed by others. -/
theorem haltsWithin_of_go (h : step g p s = .go t) (ht : HaltsWithin g p k t v) :
    HaltsWithin g p (k + 1) s v := by
  intro n hn
  obtain ⟨m, rfl⟩ : ∃ m, n = m + 1 := ⟨n - 1, by omega⟩
  rw [walk, h]
  exact ht m (by omega)

/-- A pattern that is not inverted matches if its walk says so, if that is known soon enough. -/
theorem matchesBytes_eq (hupright : g.toList.head? ≠ some (byte '!'))
    (h : HaltsWithin g p k {} v) (hk : k ≤ moveBound g p) :
    matchesBytes g p = decide (v = .matched) := by
  have hstart : inversions g = 0 := by
    rw [inversions]
    cases hg : g.toList with
    | nil => rfl
    | cons b r =>
      have hb : b ≠ byte '!' := fun hb => hupright (by rw [hg, hb, List.head?_cons])
      rw [List.takeWhile_cons_of_neg (by simpa using hb), List.length_nil]
  simp only [matchesBytes, hstart, h _ hk]
  cases v <;> rfl

/-- There are moves enough to go through the pattern once and through the text twice. -/
theorem le_moveBound (g p : Array UInt8) : g.size + 2 * p.size + 2 ≤ moveBound g p := by
  have hbase : g.size + 2 * p.size + 2 ≤ 4 * (g.size + 2) * (g.size + 2) * (p.size + 2) := by
    nlinarith [Nat.zero_le (g.size * p.size), Nat.zero_le (g.size * g.size * p.size)]
  exact hbase.trans (Nat.le_self_pow (by simp [braceLimit]) _)

/-! ## Moves -/

/-- The state outside of braces at places in the pattern and in the text. -/
def standing (i j : Nat) (w : Mark) : State := { cursor := { glob := i, path := j, wildcard := w } }

/-- A byte that stands for itself is read, or the text differs and there is nowhere to go back
to. -/
theorem step_literal (hb : IsPlain b) (hg : g[i]? = some b) :
    step g p (standing i j {}) =
      if p[j]? = some b then .go (standing (i + 1) (j + 1) {}) else .halt .unmatched := by
  obtain ⟨hi, rfl⟩ := Array.getElem?_eq_some_iff.1 hg
  have hstar : g[i] ≠ byte '*' := hb _ (by simp [specials])
  have hany : g[i] ≠ byte '?' := hb _ (by simp [specials])
  have hclass : g[i] ≠ byte '[' := hb _ (by simp [specials])
  have hbrace : g[i] ≠ byte '{' := hb _ (by simp [specials])
  have hescape : g[i] ≠ byte '\\' := hb _ (by simp [specials])
  cases hp : p[j]? with
  | none =>
    simp [step, read, read.readSeparator, retreat, Cursor.backtrack?, standing, hi, hp, hstar]
  | some d =>
    by_cases hd : d = g[i]
    · simp [step, read, read.readSeparator, readLiteral, literal, standing, hi, hp, hstar, hany,
        hclass, hbrace, hescape, hd]
    · simp [step, read, read.readSeparator, readLiteral, literal, retreat, Cursor.backtrack?,
        standing, hi, hp, hstar, hany, hclass, hbrace, hescape, hd]

/-- At its end a pattern matches if the text is at its end too. -/
theorem step_end : step g p (standing g.size j {}) =
    .halt (if j < p.size then .unmatched else .matched) := by
  by_cases hj : j < p.size
  · simp [step, read, retreat, Cursor.backtrack?, standing, hj]
  · simp [step, standing, hj]

/-- A star at the end is left for the end, with the next place in the text to come back to. -/
theorem step_star (hg : g[i]? = some (byte '*')) (hend : g.size = i + 1)
    (hp : p[j]? ≠ some (byte '/')) :
    step g p (standing i j w) = .go (standing (i + 1) j ⟨i, j + 1⟩) := by
  obtain ⟨hi, hstar⟩ := Array.getElem?_eq_some_iff.1 hg
  have hsingle : g[i + 1]? = none := Array.getElem?_eq_none (Nat.le_of_eq hend)
  simp [step, read, readStar, standing, hi, hstar, hsingle, hp]

/-- Behind a star at the end one byte more of the text is left to the star. -/
theorem step_back (hend : g.size = i + 1) (hj : j < p.size) :
    step g p (standing (i + 1) j ⟨i, j + 1⟩) = .go (standing i (j + 1) ⟨i, j + 1⟩) := by
  have hnone : g[i + 1]? = none := Array.getElem?_eq_none (Nat.le_of_eq hend)
  have hreach : j + 1 ≤ p.size := hj
  simp [step, read, retreat, Cursor.backtrack?, standing, hj, hnone, hreach]

/-- Behind a star at the end nothing is left to match when the text is used up. -/
theorem step_done (hend : g.size = i + 1) :
    step g p (standing (i + 1) p.size w) = .halt .matched := by
  simp [step, standing, hend]

/-! ## Walks -/

theorem cons_prefix_drop_iff {a : Array UInt8} :
    b :: l <+: a.toList.drop i ↔ a[i]? = some b ∧ l <+: a.toList.drop (i + 1) := by
  by_cases hi : i < a.size
  · rw [List.drop_eq_getElem_cons (by simpa using hi), List.cons_prefix_cons, Array.getElem_toList,
      Array.getElem?_eq_getElem hi, Option.some.injEq, eq_comm]
  · have hend : a.size ≤ i := Nat.le_of_not_lt hi
    simp [List.drop_eq_nil_of_le hend, Array.getElem?_eq_none hend]

section Literal

variable (hplain : ∀ b ∈ l, IsPlain b) (hg : l <+: g.toList.drop i)
include hplain hg

/-- Where the text goes on like the literal part of the pattern, the walk goes on behind both. -/
theorem haltsWithin_literal (hp : l <+: p.toList.drop j)
    (h : HaltsWithin g p k (standing (i + l.length) (j + l.length) {}) v) :
    HaltsWithin g p (k + l.length) (standing i j {}) v := by
  induction l generalizing i j with
  | nil => exact h
  | cons b l ih =>
    obtain ⟨hgb, hg⟩ := cons_prefix_drop_iff.1 hg
    obtain ⟨hpb, hp⟩ := cons_prefix_drop_iff.1 hp
    have hstep := step_literal (p := p) (j := j) (hplain b (by simp)) hgb
    rw [if_pos hpb] at hstep
    refine haltsWithin_of_go hstep (ih (fun b hb => hplain b (by simp [hb])) hg hp ?_)
    rwa [List.length_cons, Nat.add_comm l.length, ← Nat.add_assoc, ← Nat.add_assoc] at h

/-- Where the text differs from the literal part of the pattern, the walk ends. -/
theorem haltsWithin_of_differs (hp : ¬ l <+: p.toList.drop j) :
    HaltsWithin g p l.length (standing i j {}) .unmatched := by
  induction l generalizing i j with
  | nil => exact absurd List.nil_prefix hp
  | cons b l ih =>
    obtain ⟨hgb, hg⟩ := cons_prefix_drop_iff.1 hg
    have hstep := step_literal (p := p) (j := j) (hplain b (by simp)) hgb
    by_cases hpb : p[j]? = some b
    · rw [if_pos hpb] at hstep
      refine haltsWithin_of_go hstep (ih (fun b hb => hplain b (by simp [hb])) hg ?_)
      exact fun hrest => hp (cons_prefix_drop_iff.2 ⟨hpb, hrest⟩)
    · rw [if_neg hpb] at hstep
      exact (haltsWithin_of_halt hstep).mono (by simp)

end Literal

/-- A star at the end takes the rest of the text, byte by byte, as long as there is no `/` in it. -/
theorem haltsWithin_star (hg : g[i]? = some (byte '*')) (hend : g.size = i + 1)
    (hp : byte '/' ∉ p.toList) (hj : j ≤ p.size) :
    HaltsWithin g p (2 * (p.size - j) + 2) (standing i j w) .matched := by
  have hslash : ∀ j, p[j]? ≠ some (byte '/') := fun j h =>
    hp (by simpa using Array.mem_of_getElem? h)
  obtain ⟨rest, hrest⟩ := Nat.exists_eq_add_of_le hj
  -- the text left over gets shorter each time the walk comes back to the star
  induction rest generalizing j w with
  | zero =>
    obtain rfl : j = p.size := by omega
    have hlast := haltsWithin_of_halt (step_done (w := ⟨i, p.size + 1⟩) (p := p) hend)
    exact (haltsWithin_of_go (step_star hg hend (hslash _)) hlast).mono (by omega)
  | succ rest ih =>
    have hback := step_back (j := j) (p := p) hend (by omega)
    have hnext := ih (j := j + 1) (w := ⟨i, j + 1⟩) (by omega) (by omega)
    exact (haltsWithin_of_go (step_star hg hend (hslash j)) (haltsWithin_of_go hback hnext)).mono
      (by omega)

/-! ## Patterns and texts as bytes -/

/-- Bytes that stand for themselves match themselves only. -/
theorem matchesBytes_literal (hplain : ∀ b ∈ g.toList, IsPlain b)
    (hupright : g.toList.head? ≠ some (byte '!')) :
    matchesBytes g p = true ↔ p.toList = g.toList := by
  have hbound := le_moveBound g p
  have hstart : g.toList <+: g.toList.drop 0 := List.prefix_rfl
  by_cases hstarts : g.toList <+: p.toList
  · have hend : HaltsWithin g p 1 (standing (0 + g.toList.length) (0 + g.toList.length) {})
        (if g.size < p.size then .unmatched else .matched) := by
      rw [Array.length_toList, Nat.zero_add]
      exact haltsWithin_of_halt step_end
    have hwalk := haltsWithin_literal hplain hstart (j := 0) hstarts hend
    rw [matchesBytes_eq hupright hwalk (by rw [Array.length_toList]; omega)]
    by_cases hlonger : g.size < p.size
    · have hne : p.toList ≠ g.toList := fun h => by
        have hsize := congrArg List.length h
        simp only [Array.length_toList] at hsize
        omega
      simp [hlonger, hne]
    · have heq : g.toList = p.toList := hstarts.eq_of_length_le (by simpa using hlonger)
      simp [hlonger, heq]
  · have hwalk := haltsWithin_of_differs hplain hstart (j := 0) hstarts
    have hne : p.toList ≠ g.toList := fun h => hstarts (h ▸ List.prefix_rfl)
    rw [matchesBytes_eq hupright hwalk (by rw [Array.length_toList]; omega)]
    simp [hne]

/-- With a star behind them they match what starts with them. -/
theorem matchesBytes_star (hg : g.toList = l ++ [byte '*']) (hplain : ∀ b ∈ l, IsPlain b)
    (hupright : g.toList.head? ≠ some (byte '!')) (hp : byte '/' ∉ p.toList) :
    matchesBytes g p = true ↔ l <+: p.toList := by
  have hbound := le_moveBound g p
  have hsize : g.size = l.length + 1 := by
    rw [← Array.length_toList, hg, List.length_append, List.length_singleton]
  have hstart : l <+: g.toList.drop 0 := ⟨[byte '*'], by rw [List.drop_zero, hg]⟩
  by_cases hstarts : l <+: p.toList
  · have hstar : g[l.length]? = some (byte '*') := by
      rw [← Array.getElem?_toList, hg, List.getElem?_concat_length]
    have hlength : l.length ≤ p.size := by simpa using hstarts.length_le
    have hend : HaltsWithin g p (2 * (p.size - l.length) + 2)
        (standing (0 + l.length) (0 + l.length) {}) .matched := by
      rw [Nat.zero_add]
      exact haltsWithin_star hstar hsize hp hlength
    have hwalk := haltsWithin_literal hplain hstart (j := 0) hstarts hend
    rw [matchesBytes_eq hupright hwalk (by omega)]
    simp [hstarts]
  · have hwalk := haltsWithin_of_differs hplain hstart (j := 0) hstarts
    rw [matchesBytes_eq hupright hwalk (by omega)]
    simp [hstarts]

/-! ## Patterns and texts -/

theorem toList_bytes (s : String) : (bytes s).toList = Text.bytes s.toList := by
  rw [bytes, String.toUTF8, ← String.utf8Encode_toList, List.utf8Encode,
    List.toList_data_toByteArray, Text.bytes]

theorem IsLiteral.isPlain {pattern : String} (h : IsLiteral pattern) :
    ∀ b ∈ Text.bytes pattern.toList, IsPlain b := by
  have hascii : ∀ c ∈ specials, c.toNat < 128 := by simp [specials]
  rintro b hb c hc rfl
  exact h.plain c hc ((Text.mem_bytes_iff (hascii c hc)).1 hb)

/-- A star behind a literal pattern does not make it inverted. -/
theorem IsLiteral.upright_star {pattern : String} (h : IsLiteral pattern) :
    (pattern ++ "*").toList.head? ≠ some '!' := by
  rw [String.toList_append]
  cases hp : pattern.toList with
  | nil => decide
  | cons c r =>
    have hfirst : (c :: r).head? ≠ some '!' := hp ▸ h.upright
    rwa [List.cons_append, List.head?_cons, ← List.head?_cons]

end SecretFanout.Glob

namespace SecretFanout

open Glob

/-- A literal pattern matches itself only. -/
theorem globMatches_literal {pattern text : String} (h : IsLiteral pattern) :
    globMatches pattern text = true ↔ text = pattern := by
  have hupright : (bytes pattern).toList.head? ≠ some (byte '!') := by
    rw [toList_bytes]
    exact fun hhead => h.upright ((Text.head?_bytes_eq_some_iff (d := '!') (by decide)).1 hhead)
  rw [globMatches, matchesBytes_literal (by simpa [toList_bytes] using h.isPlain) hupright,
    toList_bytes, toList_bytes, Text.bytes_inj, String.toList_inj]

/-- With a star behind it, it matches what starts with it. -/
theorem globMatches_star {pattern text : String} (h : IsLiteral pattern)
    (htext : '/' ∉ text.toList) :
    globMatches (pattern ++ "*") text = true ↔ ∃ rest, text = pattern ++ rest := by
  have hstar : (bytes (pattern ++ "*")).toList = Text.bytes pattern.toList ++ [byte '*'] := by
    rw [toList_bytes, String.toList_append, Text.bytes_append]
    rfl
  have hupright : (bytes (pattern ++ "*")).toList.head? ≠ some (byte '!') := by
    rw [toList_bytes]
    intro hhead
    exact h.upright_star ((Text.head?_bytes_eq_some_iff (d := '!') (by decide)).1 hhead)
  have hslash : byte '/' ∉ (bytes text).toList := by
    rw [toList_bytes]
    exact fun hmem => htext ((Text.mem_bytes_iff (d := '/') (by decide)).1 hmem)
  rw [globMatches, matchesBytes_star hstar h.isPlain hupright hslash, toList_bytes,
    Text.bytes_prefix_iff]
  constructor
  · rintro ⟨rest, hrest⟩
    exact ⟨String.ofList rest, by rw [← String.toList_inj]; simp [hrest]⟩
  · rintro ⟨rest, rfl⟩
    rw [String.toList_append]
    exact List.prefix_append ..

end SecretFanout
