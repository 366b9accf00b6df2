/-!
# Texts as bytes

The UTF-8 form of a text, and positions in it. A position may lie within a character, so a
text cannot be cut everywhere.

* `mem_utf8EncodeChar_iff`: an ASCII byte occurs in a character exactly if it is that character.
* `bytes_prefix_iff`: one text starts with another exactly if its bytes do.
-/

namespace SecretFanout.Text

/-- The bytes of a text. -/
def bytes (s : List Char) : List UInt8 := s.flatMap String.utf8EncodeChar

/-- The number of bytes of a text. -/
def byteLength (s : List Char) : Nat := s.foldr (fun c n => c.utf8Size + n) 0

/-- A text without so many bytes at its start, unless there are fewer or a character is cut. -/
def dropBytes? : Nat → List Char → Option (List Char)
  | 0, s => some s
  | _ + 1, [] => none
  | n + 1, c :: r => if c.utf8Size ≤ n + 1 then dropBytes? (n + 1 - c.utf8Size) r else none

@[simp] theorem dropBytes?_zero (s : List Char) : dropBytes? 0 s = some s := by
  cases s <;> rfl

/-- A character of one byte can be cut off. -/
theorem dropBytes?_one {c : Char} (h : c.utf8Size = 1) (r : List Char) :
    dropBytes? 1 (c :: r) = some r := by
  simp [dropBytes?, h]

@[simp] theorem byteLength_nil : byteLength [] = 0 := rfl

@[simp] theorem byteLength_cons (c : Char) (r : List Char) :
    byteLength (c :: r) = c.utf8Size + byteLength r := rfl

@[simp] theorem byteLength_append (s t : List Char) :
    byteLength (s ++ t) = byteLength s + byteLength t := by
  induction s with
  | nil => simp
  | cons c r ih => rw [List.cons_append, byteLength_cons, byteLength_cons, ih, Nat.add_assoc]

/-- Only the empty text has no bytes. -/
theorem byteLength_pos {s : List Char} (h : s ≠ []) : 0 < byteLength s := by
  cases s with
  | nil => exact absurd rfl h
  | cons c r =>
    have := c.utf8Size_pos
    rw [byteLength_cons]
    omega

/-- An ASCII byte occurs in a character exactly if it is that character. -/
theorem mem_utf8EncodeChar_iff {c d : Char} (hd : d.toNat < 128) :
    UInt8.ofNat d.toNat ∈ String.utf8EncodeChar c ↔ c = d := by
  have hval : c.val.toNat = c.toNat := rfl
  rw [← Char.toNat_inj]
  unfold String.utf8EncodeChar
  dsimp only
  rw [hval]
  split
  · simp only [List.mem_cons, List.not_mem_nil, or_false, ← UInt8.toNat_inj, UInt8.toNat_ofNat']
    omega
  · split
    · simp only [List.mem_cons, List.not_mem_nil, or_false, ← UInt8.toNat_inj, UInt8.toNat_ofNat']
      omega
    · split
      · simp only [List.mem_cons, List.not_mem_nil, or_false, ← UInt8.toNat_inj,
          UInt8.toNat_ofNat']
        omega
      · simp only [List.mem_cons, List.not_mem_nil, or_false, ← UInt8.toNat_inj,
          UInt8.toNat_ofNat']
        omega

/-- The first byte of a character is an ASCII byte exactly for that ASCII character. -/
theorem head?_utf8EncodeChar_eq_some_iff {c d : Char} (hd : d.toNat < 128) :
    (String.utf8EncodeChar c).head? = some (UInt8.ofNat d.toNat) ↔ c = d := by
  constructor
  · exact fun h => (mem_utf8EncodeChar_iff hd).1 (List.mem_of_head? h)
  · rintro rfl
    have hone : c.utf8Size = 1 := Char.utf8Size_eq_one_iff.2 (by
      rw [UInt32.le_iff_toNat_le]
      exact Nat.le_of_lt_succ hd)
    rw [String.utf8EncodeChar_eq_singleton hone]
    rfl

/-! ## Bytes of a text -/

@[simp] theorem bytes_append (s t : List Char) : bytes (s ++ t) = bytes s ++ bytes t :=
  List.flatMap_append

/-- An ASCII byte occurs in a text exactly if the character does. -/
theorem mem_bytes_iff {d : Char} (hd : d.toNat < 128) {s : List Char} :
    UInt8.ofNat d.toNat ∈ bytes s ↔ d ∈ s := by
  simp only [bytes, List.mem_flatMap, mem_utf8EncodeChar_iff hd, exists_eq_right]

/-- A text starts with an ASCII byte exactly if it starts with the character. -/
theorem head?_bytes_eq_some_iff {d : Char} (hd : d.toNat < 128) {s : List Char} :
    (bytes s).head? = some (UInt8.ofNat d.toNat) ↔ s.head? = some d := by
  cases s with
  | nil => simp [bytes]
  | cons c r =>
    have hfirst : (bytes (c :: r)).head? = (String.utf8EncodeChar c).head? := by
      rw [bytes, List.flatMap_cons, List.head?_append, Option.or_of_isSome]
      simp [String.utf8EncodeChar_ne_nil]
    rw [hfirst, head?_utf8EncodeChar_eq_some_iff hd, List.head?_cons, Option.some.injEq]

/-- One text starts with another exactly if its bytes start with those of the other. -/
theorem bytes_prefix_iff {s t : List Char} : bytes s <+: bytes t ↔ s <+: t := by
  constructor
  · rintro ⟨rest, hrest⟩
    refine List.isPrefix_of_utf8Encode_append_eq_utf8Encode rest.toByteArray ?_
    rw [List.utf8Encode, List.utf8Encode, ← List.toByteArray_append]
    exact congrArg List.toByteArray hrest
  · rintro ⟨rest, rfl⟩
    exact ⟨bytes rest, (bytes_append s rest).symm⟩

/-- A text is told by its bytes. -/
theorem bytes_inj {s t : List Char} : bytes s = bytes t ↔ s = t := by
  refine ⟨fun h => ?_, congrArg bytes⟩
  have hst : s <+: t := bytes_prefix_iff.1 (h ▸ List.prefix_rfl)
  have hts : t <+: s := bytes_prefix_iff.1 (h ▸ List.prefix_rfl)
  exact hst.eq_of_length_le hts.length_le

end SecretFanout.Text
