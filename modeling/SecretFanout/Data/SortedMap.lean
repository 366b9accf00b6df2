/-!
# Sorted maps

A finite map held as the list of its entries in strictly ascending key order.
Since each finite function has exactly one such list, two maps with the same
look-ups are equal (`SortedMap.ext_get?`), and equality of maps is decidable.

* `get?_insert`, `get?_erase`, `get?_overlay` say what each operation does to a
  look-up; nothing else about the representation is needed later.
* `ofList` builds a map from entries in any order; the last entry of a key wins.
-/

namespace SecretFanout

universe u v

/-- A finite map as its entries in strictly ascending key order. -/
structure SortedMap (κ : Type u) (α : Type v) [Ord κ] where
  /-- The entries, smallest key first. -/
  entries : List (κ × α)
  /-- No key occurs twice and the keys ascend. -/
  ascending : entries.Pairwise fun a b => compare a.1 b.1 = .lt

namespace SortedMap

variable {κ : Type u} {α : Type v} [Ord κ]

theorem ext_entries {m n : SortedMap κ α} (h : m.entries = n.entries) : m = n := by
  cases m; cases n; cases h; rfl

instance [DecidableEq κ] [DecidableEq α] : DecidableEq (SortedMap κ α) := fun m n =>
  if h : m.entries = n.entries then isTrue (ext_entries h)
  else isFalse fun e => h (e ▸ rfl)

/-- The map without entries. -/
def empty : SortedMap κ α := ⟨[], .nil⟩

instance : EmptyCollection (SortedMap κ α) := ⟨empty⟩
instance : Inhabited (SortedMap κ α) := ⟨empty⟩

/-- Whether the map has no entry. -/
def isEmpty (m : SortedMap κ α) : Bool := m.entries.isEmpty

/-- The entries in ascending key order. -/
def toList (m : SortedMap κ α) : List (κ × α) := m.entries

/-! ## Look-up -/

/-- The value that a list of entries gives to a key. -/
def find? (k : κ) : List (κ × α) → Option α
  | [] => none
  | (k', a) :: rest => if compare k k' = .eq then some a else find? k rest

/-- The value of a key, if it has one. -/
def get? (m : SortedMap κ α) (k : κ) : Option α := find? k m.entries

/-- Whether a key has a value. -/
def contains (m : SortedMap κ α) (k : κ) : Bool := (m.get? k).isSome

@[simp] theorem get?_empty (k : κ) : (empty : SortedMap κ α).get? k = none := rfl

theorem find?_eq_none {k : κ} {l : List (κ × α)}
    (h : ∀ e ∈ l, compare k e.1 ≠ .eq) : find? k l = none := by
  induction l with
  | nil => rfl
  | cons e rest ih =>
    obtain ⟨k', a⟩ := e
    rw [find?, if_neg (h (k', a) (by simp)), ih fun e he => h e (by simp [he])]

/-! ## Insertion -/

/-- Puts an entry at its place in a list of entries, in place of one with the same key. -/
def insertEntry (k : κ) (a : α) : List (κ × α) → List (κ × α)
  | [] => [(k, a)]
  | (k', a') :: rest =>
    match compare k k' with
    | .lt => (k, a) :: (k', a') :: rest
    | .eq => (k, a) :: rest
    | .gt => (k', a') :: insertEntry k a rest

theorem mem_insertEntry {k : κ} {a : α} {e : κ × α} {l : List (κ × α)}
    (h : e ∈ insertEntry k a l) : e = (k, a) ∨ e ∈ l := by
  induction l with
  | nil => simpa [insertEntry] using h
  | cons e' rest ih =>
    obtain ⟨k', a'⟩ := e'
    rw [insertEntry] at h
    split at h <;> grind

section Lawful

variable [Std.TransOrd κ] [Std.LawfulEqOrd κ]

theorem ascending_insertEntry {l : List (κ × α)} (k : κ) (a : α)
    (h : l.Pairwise fun x y => compare x.1 y.1 = .lt) :
    (insertEntry k a l).Pairwise fun x y => compare x.1 y.1 = .lt := by
  induction l with
  | nil => simp [insertEntry]
  | cons e rest ih =>
    obtain ⟨k', a'⟩ := e
    rw [List.pairwise_cons] at h
    rw [insertEntry]
    split
    · next hlt =>
      refine List.pairwise_cons.2 ⟨fun e he => ?_, List.pairwise_cons.2 h⟩
      rcases List.mem_cons.1 he with rfl | he
      · exact hlt
      · exact Std.TransCmp.lt_trans hlt (h.1 e he)
    · next heq =>
      obtain rfl := Std.LawfulEqCmp.eq_of_compare heq
      exact List.pairwise_cons.2 h
    · next hgt =>
      refine List.pairwise_cons.2 ⟨fun e he => ?_, ih h.2⟩
      rcases mem_insertEntry he with rfl | he
      · exact Std.OrientedCmp.gt_iff_lt.1 hgt
      · exact h.1 e he

/-- The map with one key bound to a value. -/
def insert (m : SortedMap κ α) (k : κ) (a : α) : SortedMap κ α :=
  ⟨insertEntry k a m.entries, ascending_insertEntry k a m.ascending⟩

omit [Std.TransOrd κ] in
theorem find?_insertEntry (k : κ) (a : α) (l : List (κ × α)) (q : κ) :
    find? q (insertEntry k a l) = if compare q k = .eq then some a else find? q l := by
  induction l with
  | nil => rfl
  | cons e rest ih =>
    obtain ⟨k', a'⟩ := e
    rw [insertEntry]
    split
    · simp [find?]
    · next heq =>
      obtain rfl := Std.LawfulEqCmp.eq_of_compare heq
      by_cases hq : compare q k = .eq <;> simp [find?, hq]
    · next hgt =>
      by_cases hq : compare q k' = .eq
      · obtain rfl := Std.LawfulEqCmp.eq_of_compare hq
        have : compare q k ≠ .eq := fun h => by
          obtain rfl := Std.LawfulEqCmp.eq_of_compare h
          simp at hgt
        simp [find?, this]
      · simp [find?, hq, ih]

theorem get?_insert_eq_ite (m : SortedMap κ α) (k : κ) (a : α) (q : κ) :
    (m.insert k a).get? q = if compare q k = .eq then some a else m.get? q :=
  find?_insertEntry k a m.entries q

@[simp] theorem get?_insert_self (m : SortedMap κ α) (k : κ) (a : α) :
    (m.insert k a).get? k = some a := by
  rw [get?_insert_eq_ite, if_pos Std.ReflCmp.compare_self]

theorem get?_insert_of_ne (m : SortedMap κ α) {k q : κ} (a : α) (h : q ≠ k) :
    (m.insert k a).get? q = m.get? q := by
  rw [get?_insert_eq_ite, if_neg fun e => h (Std.LawfulEqCmp.eq_of_compare e)]

/-- An insertion binds its key and changes no other. -/
theorem get?_insert [DecidableEq κ] (m : SortedMap κ α) (k : κ) (a : α) (q : κ) :
    (m.insert k a).get? q = if q = k then some a else m.get? q := by
  split
  · next h => subst h; exact get?_insert_self ..
  · next h => exact get?_insert_of_ne m a h

end Lawful

/-! ## Removal -/

/-- The map without a key. -/
def erase (m : SortedMap κ α) (k : κ) : SortedMap κ α :=
  ⟨m.entries.filter fun e => compare k e.1 != .eq, m.ascending.filter _⟩

section Lawful

variable [Std.TransOrd κ] [Std.LawfulEqOrd κ]

theorem find?_filter_ne (k q : κ) (l : List (κ × α)) :
    find? q (l.filter fun e => compare k e.1 != .eq) =
      if compare q k = .eq then none else find? q l := by
  induction l with
  | nil => simp [find?]
  | cons e rest ih =>
    obtain ⟨k', a⟩ := e
    by_cases hk : compare k k' = .eq
    · obtain rfl := Std.LawfulEqCmp.eq_of_compare hk
      by_cases hq : compare q k = .eq <;> simp [find?, ih, hq]
    · by_cases hq : compare q k' = .eq
      · obtain rfl := Std.LawfulEqCmp.eq_of_compare hq
        have : compare q k ≠ .eq := fun h => hk (Std.OrientedCmp.eq_comm.1 h)
        simp [find?, hk, this]
      · simp [find?, hk, hq, ih]

/-- A removal unbinds its key and changes no other. -/
theorem get?_erase [DecidableEq κ] (m : SortedMap κ α) (k q : κ) :
    (m.erase k).get? q = if q = k then none else m.get? q := by
  rw [get?, erase, find?_filter_ne]
  by_cases h : q = k
  · subst h; simp
  · rw [if_neg h, if_neg fun e => h (Std.LawfulEqCmp.eq_of_compare e)]; rfl

/-! ## Extensionality -/

omit [Std.TransOrd κ] in
theorem find?_head (k : κ) (a : α) (rest : List (κ × α)) :
    find? k ((k, a) :: rest) = some a := by
  simp [find?]

/-- Ascending lists of entries with the same look-ups are equal. -/
theorem eq_of_find?_eq {l m : List (κ × α)}
    (hl : l.Pairwise fun x y => compare x.1 y.1 = .lt)
    (hm : m.Pairwise fun x y => compare x.1 y.1 = .lt)
    (h : ∀ k, find? k l = find? k m) : l = m := by
  induction l generalizing m with
  | nil =>
    cases m with
    | nil => rfl
    | cons e rest => simpa [find?_head, find?] using h e.1
  | cons e rest ih =>
    obtain ⟨k, a⟩ := e
    cases m with
    | nil => simpa [find?_head, find?] using h k
    | cons e' rest' =>
      obtain ⟨k', a'⟩ := e'
      rw [List.pairwise_cons] at hl hm
      have below {q : κ} {l : List (κ × α)} {p : κ} (hq : compare q p = .lt)
          (hp : ∀ e ∈ l, compare p e.1 = .lt) : find? q l = none :=
        find?_eq_none fun e he => by
          rw [Std.TransCmp.lt_trans hq (hp e he)]; decide
      have self {q : κ} {l : List (κ × α)} (hp : ∀ e ∈ l, compare q e.1 = .lt) :
          find? q l = none := find?_eq_none fun e he => by rw [hp e he]; decide
      have hkk : compare k k' = .eq := by
        cases hc : compare k k' with
        | eq => rfl
        | lt =>
          have := h k
          rw [find?_head, find?, if_neg (by rw [hc]; decide), below hc hm.1] at this
          cases this
        | gt =>
          have hc := Std.OrientedCmp.gt_iff_lt.1 hc
          have := h k'
          rw [find?_head, find?, if_neg (by rw [hc]; decide), below hc hl.1] at this
          cases this
      obtain rfl := Std.LawfulEqCmp.eq_of_compare hkk
      have ha := h k
      rw [find?_head, find?_head] at ha
      obtain rfl := Option.some.inj ha
      refine congrArg _ (ih hl.2 hm.2 fun q => ?_)
      by_cases hq : compare q k = .eq
      · obtain rfl := Std.LawfulEqCmp.eq_of_compare hq
        rw [self hl.1, self hm.1]
      · simpa [find?, hq] using h q

/-- Maps with the same look-ups are equal. -/
theorem ext_get? {m n : SortedMap κ α} (h : ∀ k, m.get? k = n.get? k) : m = n :=
  ext_entries (eq_of_find?_eq m.ascending n.ascending h)

omit [Std.TransOrd κ] in
theorem find?_eq_some_iff {k : κ} {a : α} {l : List (κ × α)}
    (hl : l.Pairwise fun x y => compare x.1 y.1 = .lt) : find? k l = some a ↔ (k, a) ∈ l := by
  induction l with
  | nil => simp [find?]
  | cons e rest ih =>
    obtain ⟨k', a'⟩ := e
    rw [List.pairwise_cons] at hl
    rw [find?, List.mem_cons, Prod.mk.injEq]
    by_cases hk : compare k k' = .eq
    · obtain rfl := Std.LawfulEqCmp.eq_of_compare hk
      have hnot : (k, a) ∉ rest := fun h => by
        have hlt := hl.1 _ h
        rw [hk] at hlt
        cases hlt
      simp [hnot, eq_comm]
    · have hne : k ≠ k' := fun h => hk (h ▸ Std.ReflCmp.compare_self)
      simp [hk, hne, ih hl.2]

omit [Std.TransOrd κ] in
/-- The entries of a map are its look-ups. -/
theorem get?_eq_some_iff {m : SortedMap κ α} {k : κ} {a : α} :
    m.get? k = some a ↔ (k, a) ∈ m.toList :=
  find?_eq_some_iff m.ascending

/-! ## Maps from lists and overlays -/

/-- The map of a list of entries, in which the last entry of a key wins. -/
def ofList (l : List (κ × α)) : SortedMap κ α :=
  l.foldl (fun m e => m.insert e.1 e.2) empty

/-- The first map with the entries of the second put over it. -/
def overlay (m n : SortedMap κ α) : SortedMap κ α :=
  n.entries.foldl (fun m e => m.insert e.1 e.2) m

@[simp] theorem overlay_empty (m : SortedMap κ α) : m.overlay empty = m := rfl

theorem get?_foldl_insert (l : List (κ × α))
    (hl : l.Pairwise fun x y => compare x.1 y.1 = .lt) (m : SortedMap κ α) (q : κ) :
    (l.foldl (fun m e => m.insert e.1 e.2) m).get? q = (find? q l).or (m.get? q) := by
  induction l generalizing m with
  | nil => simp [find?]
  | cons e rest ih =>
    obtain ⟨k, a⟩ := e
    rw [List.pairwise_cons] at hl
    rw [List.foldl_cons, ih hl.2, get?_insert_eq_ite, find?]
    by_cases hq : compare q k = .eq
    · obtain rfl := Std.LawfulEqCmp.eq_of_compare hq
      rw [find?_eq_none fun e he => by rw [hl.1 e he]; decide]
      simp
    · simp [hq]

/-- In an overlay the upper map answers first. -/
theorem get?_overlay (m n : SortedMap κ α) (k : κ) :
    (m.overlay n).get? k = (n.get? k).or (m.get? k) :=
  get?_foldl_insert n.entries n.ascending m k

/-- Overlays one after the other are one overlay. -/
theorem overlay_assoc (l m n : SortedMap κ α) :
    (l.overlay m).overlay n = l.overlay (m.overlay n) := by
  refine ext_get? ?_
  intro k
  simp only [get?_overlay, Option.or_assoc]

/-- An overlay a second time changes nothing. -/
theorem overlay_overlay_self (m n : SortedMap κ α) : (m.overlay n).overlay n = m.overlay n := by
  refine ext_get? ?_
  intro k
  simp only [get?_overlay, ← Option.or_assoc, Option.or_self]

end Lawful

end SortedMap

end SecretFanout
