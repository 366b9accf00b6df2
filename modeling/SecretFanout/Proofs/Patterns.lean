import Mathlib.Data.List.Basic
import SecretFanout.Text.Pattern

/-!
# What patterns match

The texts that a pattern stands for, whatever is preferred, and the places that a search finds
in a text which is put together from such texts.

* `mem_ways_iff` — the ways to match at the start of a text are those texts that the pattern
  stands for and that stand there.
* `runWays_append`, `ways_row`, `pair?_of_ways` — the preferred way: a run of characters takes all
  of them.
* `hitsFrom_of_pair?` — behind a place that was found the search goes on as in the rest of the
  text by itself.
* `le_start_of_mem` — what a search finds does not start in front of where it starts.
-/

namespace SecretFanout.Text.Pattern

/-! ## Ways to match -/

/-- The texts that a pattern stands for. -/
def Takes : Pattern → List Char → Prop
  | run kind, x => x ≠ [] ∧ ∀ c ∈ x, kind c = true
  | words list, x => x ∈ list
  | row first second, x => ∃ y z, x = y ++ z ∧ first.Takes y ∧ second.Takes z
  | maybe inner, x => x = [] ∨ inner.Takes x

theorem mem_runWays_iff {kind : Char → Bool} {s x rest : List Char} :
    (x, rest) ∈ runWays kind s ↔ s = x ++ rest ∧ x ≠ [] ∧ ∀ c ∈ x, kind c = true := by
  induction s generalizing x with
  | nil =>
    simp only [runWays, List.not_mem_nil, false_iff]
    rintro ⟨hs, hx, -⟩
    exact hx (List.append_eq_nil_iff.1 hs.symm).1
  | cons c r ih =>
    rw [runWays]
    by_cases hc : kind c = true
    · rw [if_pos hc, List.mem_append, List.mem_map, List.mem_singleton]
      constructor
      · rintro (⟨⟨y, rest'⟩, hy, heq⟩ | heq)
        · obtain ⟨rfl, rfl⟩ := Prod.mk.inj heq
          obtain ⟨hr, -, hkind⟩ := ih.1 hy
          exact ⟨by rw [hr]; rfl, by simp, by simpa [hc] using hkind⟩
        · obtain ⟨rfl, rfl⟩ := Prod.mk.inj heq
          exact ⟨rfl, by simp, by simpa using hc⟩
      · rintro ⟨hs, hx, hkind⟩
        obtain ⟨d, y, rfl⟩ := List.exists_cons_of_ne_nil hx
        obtain ⟨rfl, hr⟩ := List.cons.inj hs
        by_cases hy : y = []
        · exact Or.inr (by rw [hr, hy]; rfl)
        · exact Or.inl ⟨(y, rest), ih.2 ⟨hr, hy, fun e he => hkind e (by simp [he])⟩, rfl⟩
    · rw [if_neg hc]
      simp only [List.not_mem_nil, false_iff]
      rintro ⟨hs, hx, hkind⟩
      obtain ⟨d, y, rfl⟩ := List.exists_cons_of_ne_nil hx
      obtain ⟨rfl, -⟩ := List.cons.inj hs
      exact hc (hkind c (by simp))

/-- There is one way for each text that the pattern stands for and that stands at the start. -/
theorem mem_ways_iff {p : Pattern} {s x rest : List Char} :
    (x, rest) ∈ p.ways s ↔ s = x ++ rest ∧ p.Takes x := by
  induction p generalizing s x rest with
  | run kind => exact mem_runWays_iff
  | words list =>
    simp only [ways, Takes, List.mem_filterMap, Option.map_eq_some_iff,
      List.isPrefixOf?_eq_some_iff_append_eq]
    constructor
    · rintro ⟨word, hword, rest', hs, heq⟩
      obtain ⟨rfl, rfl⟩ := Prod.mk.inj heq
      exact ⟨hs.symm, hword⟩
    · rintro ⟨hs, hword⟩
      exact ⟨x, hword, rest, hs.symm, rfl⟩
  | row first second ihf ihs =>
    simp only [ways, Takes, List.mem_flatMap, List.mem_map]
    constructor
    · rintro ⟨⟨y, r⟩, hy, ⟨z, r'⟩, hz, heq⟩
      obtain ⟨rfl, rfl⟩ := Prod.mk.inj heq
      obtain ⟨rfl, hfirst⟩ := ihf.1 hy
      obtain ⟨hr, hsecond⟩ := ihs.1 hz
      exact ⟨by rw [show r = z ++ r' from hr, List.append_assoc], y, z, rfl, hfirst, hsecond⟩
    · rintro ⟨rfl, y, z, rfl, hfirst, hsecond⟩
      exact ⟨(y, z ++ rest), ihf.2 ⟨List.append_assoc .., hfirst⟩, (z, rest),
        ihs.2 ⟨rfl, hsecond⟩, rfl⟩
  | maybe inner ih =>
    simp only [ways, Takes, List.mem_append, List.mem_singleton, ih, Prod.mk.injEq]
    constructor
    · rintro (⟨hs, hx⟩ | ⟨rfl, rfl⟩)
      · exact ⟨hs, Or.inr hx⟩
      · exact ⟨rfl, Or.inl rfl⟩
    · rintro ⟨hs, rfl | hx⟩
      · exact Or.inr ⟨rfl, hs.symm⟩
      · exact Or.inl ⟨hs, hx⟩

/-- All characters of a kind that stand at the start are taken rather than fewer. -/
theorem runWays_append {kind : Char → Bool} {x rest : List Char} (hx : x ≠ [])
    (hkind : ∀ c ∈ x, kind c = true) (hrest : ∀ c ∈ rest.head?, kind c = false) :
    ∃ others, runWays kind (x ++ rest) = (x, rest) :: others := by
  induction x with
  | nil => exact absurd rfl hx
  | cons c y ih =>
    have hc : kind c = true := hkind c (by simp)
    rw [List.cons_append, runWays, if_pos hc]
    cases y with
    | nil =>
      have hno : runWays kind rest = [] := by
        cases rest with
        | nil => rfl
        | cons d r => rw [runWays, if_neg (by simp [hrest d (by simp)])]
      exact ⟨[], by simp [hno]⟩
    | cons d z =>
      obtain ⟨others, hothers⟩ := ih (by simp) fun e he => hkind e (by simp [he])
      exact ⟨_, by rw [hothers]; rfl⟩

section Pair

variable {first second : Pattern} {s r x y rest : List Char}
  {others others' : List (List Char × List Char)}

/-- In a row the preferred ways of both patterns are preferred. -/
theorem ways_row (hfirst : first.ways s = (x, r) :: others)
    (hsecond : second.ways r = (y, rest) :: others') :
    ∃ others, (row first second).ways s = (x ++ y, rest) :: others := by
  rw [ways, hfirst, List.flatMap_cons, hsecond]
  exact ⟨_, rfl⟩

/-- A pair is the preferred way of the first pattern with the preferred one of the second. -/
theorem pair?_of_ways (hfirst : first.ways s = (x, r) :: others)
    (hsecond : second.ways r = (y, rest) :: others') : pair? first second s = some (x, y) := by
  rw [pair?, hfirst, List.flatMap_cons, hsecond]
  rfl

/-- What a pair takes stands at the start of the text. -/
theorem of_pair? (h : pair? first second s = some (x, y)) :
    ∃ rest, s = x ++ y ++ rest ∧ first.Takes x ∧ second.Takes y := by
  have hmem := List.mem_of_head? h
  simp only [List.mem_flatMap, List.mem_map] at hmem
  obtain ⟨⟨x', r⟩, hx, ⟨y', rest⟩, hy, heq⟩ := hmem
  obtain ⟨rfl, rfl⟩ := Prod.mk.inj heq
  obtain ⟨rfl, hfirst⟩ := mem_ways_iff.1 hx
  obtain ⟨hr, hsecond⟩ := mem_ways_iff.1 hy
  exact ⟨rest, by rw [show r = y' ++ rest from hr, List.append_assoc], hfirst, hsecond⟩

/-! ## Searching -/

/-- Characters that were taken are stepped over. -/
theorem hitsFrom_append (first second : Pattern) (start : Nat) (x rest : List Char) :
    hitsFrom first second start x.length (x ++ rest) =
      hitsFrom first second (start + byteLength x) 0 rest := by
  induction x generalizing start with
  | nil => rfl
  | cons c y ih =>
    rw [List.length_cons, List.cons_append, hitsFrom, ih, byteLength_cons, Nat.add_assoc]

/-- Behind a place that was found the search goes on. -/
theorem hitsFrom_of_pair? (hne : x ++ y ≠ [])
    (h : pair? first second (x ++ y ++ rest) = some (x, y)) (start : Nat) :
    hitsFrom first second start 0 (x ++ y ++ rest) =
      ⟨start, x, y⟩ :: hitsFrom first second (start + byteLength (x ++ y)) 0 rest := by
  obtain ⟨c, z, hz⟩ := List.exists_cons_of_ne_nil hne
  have hlength : (x ++ y).length - 1 = z.length := by rw [hz]; rfl
  have hhits := hitsFrom_append first second (start + c.utf8Size) z rest
  rw [hz, List.cons_append] at h ⊢
  rw [hitsFrom]
  simp only [h]
  rw [hlength, hhits, byteLength_cons, Nat.add_assoc]

/-- Where nothing is found the search goes on behind the next character. -/
theorem hitsFrom_of_none {c : Char} (h : pair? first second (c :: r) = none) (start : Nat) :
    hitsFrom first second start 0 (c :: r) =
      hitsFrom first second (start + c.utf8Size) 0 r := by
  rw [hitsFrom]
  simp only [h]

/-- What a search finds does not start in front of it. -/
theorem le_start_of_mem {start taken : Nat} {hit : Hit}
    (h : hit ∈ hitsFrom first second start taken s) : start ≤ hit.start := by
  induction s generalizing start taken with
  | nil => cases h
  | cons c r ih =>
    cases taken with
    | succ n =>
      rw [hitsFrom] at h
      exact Nat.le_trans (Nat.le_add_right ..) (ih h)
    | zero =>
      cases hpair : pair? first second (c :: r) with
      | none =>
        rw [hitsFrom_of_none hpair] at h
        exact Nat.le_trans (Nat.le_add_right ..) (ih h)
      | some found =>
        rw [hitsFrom] at h
        simp only [hpair, List.mem_cons] at h
        rcases h with rfl | h
        · exact Nat.le_refl _
        · exact Nat.le_trans (Nat.le_add_right ..) (ih h)

end Pair

end SecretFanout.Text.Pattern
