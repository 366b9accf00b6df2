import SecretFanout.Json.Text

/-!
# Texts that are read back

The text that is written of a document is read as the same document.

* `scanString?_flatMap_escapeChar`, `heldText?_toNat` — strings, each character escaped where it has
  to be.
* `Json.isSimple` — documents without numbers in which arrays and objects do not stand too deep in
  one another; `isSimple_obj_iff` and the lemmas after it say which ones are.
* `scanValue?_renderChars` — a simple document with anything behind it, by cases on the document.
* `ofText?_render` — a simple document alone.
-/

namespace SecretFanout.Json

theorem scanString?_simpleEscape {e c : Char} (he : e ≠ 'u') (h : simpleEscape? e = some c)
    (s : List Char) :
    scanString? ('\\' :: e :: s) = (scanString? s).map fun p => (c.toNat :: p.1, p.2) := by
  rw [scanString?, h]
  · cases scanString? s <;> rfl
  · rintro a b d f r heq -
    exact he (by simp_all)

theorem scanString?_unescaped {c : Char} (hquote : c ≠ '"') (hback : c ≠ '\\')
    (hlow : ¬c.toNat < 0x20) (s : List Char) :
    scanString? (c :: s) = (scanString? s).map fun p => (c.toNat :: p.1, p.2) := by
  rw [scanString?]
  · cases h : scanString? s <;> simp [hlow, hback]
  all_goals simp_all

theorem hexQuad?_hexChar :
    ∀ n < 0x20, hexQuad? '0' '0' (hexChar (n / 16)) (hexChar n) = some n := by
  decide

/-- A character is read from what is written for it. -/
theorem scanString?_escapeChar (c : Char) (s : List Char) :
    scanString? (escapeChar c ++ s) = (scanString? s).map fun p => (c.toNat :: p.1, p.2) := by
  unfold escapeChar
  split
  case h_8 hquote hback _ _ _ _ _ =>
    split
    · next hlow =>
      have hquad := hexQuad?_hexChar c.toNat hlow
      cases h : scanString? s <;> simp [scanString?, hquad, h]
    · next hlow => exact scanString?_unescaped hquote hback hlow s
  -- the characters with an escape of one letter
  all_goals exact scanString?_simpleEscape (by decide) rfl s

/-- A string is read behind its opening quote, whatever stands behind its closing one. -/
theorem scanString?_flatMap_escapeChar (s rest : List Char) :
    scanString? (s.flatMap escapeChar ++ '"' :: rest) = some (s.map Char.toNat, rest) := by
  induction s with
  | nil => rfl
  | cons c s ih =>
    rw [List.flatMap_cons, List.append_assoc, scanString?_escapeChar, ih]
    rfl

theorem heldText?_toNat (s : String) : heldText? (s.toList.map Char.toNat) = some s := by
  rw [heldText?, joinHalves?_map_toNat, Option.map_some, String.ofList_toList]

/-! ## Values -/

mutual

/-- Whether a value holds no number and nothing unreadable, and its arrays and objects stand in one
another up to so many levels. -/
def isSimple : Nat → Json → Bool
  | _, .null | _, .bool _ | _, .str _ => true
  | levels + 1, .arr items => areSimple levels items
  | levels + 1, .obj fields => areSimpleFields levels fields
  | _, _ => false

/-- Whether all items are simple. -/
def areSimple : Nat → List Json → Bool
  | _, [] => true
  | levels, item :: rest => isSimple levels item && areSimple levels rest

/-- Whether the values of all fields are simple. -/
def areSimpleFields : Nat → List (String × Json) → Bool
  | _, [] => true
  | levels, (_, value) :: rest => isSimple levels value && areSimpleFields levels rest

end

/-- The signs by which simple values begin. -/
def openings : List Char := ['n', 't', 'f', '"', '[', '\x7b']

theorem exists_opening {levels : Nat} {j : Json} (h : j.isSimple levels = true) :
    ∃ c ∈ openings, ∃ r, j.renderChars = c :: r := by
  cases j with
  | null => exact ⟨'n', by decide, _, rfl⟩
  | bool b => cases b <;> exact ⟨_, by decide, _, rfl⟩
  | str s => exact ⟨'"', by decide, _, rfl⟩
  | arr items => exact ⟨'[', by decide, _, rfl⟩
  | obj fields => exact ⟨'\x7b', by decide, _, rfl⟩
  | int n => cases levels <;> cases h
  | float negative size => cases levels <;> cases h
  | unreadable => cases levels <;> cases h

theorem skipBlanks_of_opening {c : Char} (h : c ∈ openings) (r : List Char) :
    skipBlanks (c :: r) = c :: r := by
  simp only [openings, List.mem_cons, List.not_mem_nil, or_false] at h
  rcases h with rfl | rfl | rfl | rfl | rfl | rfl <;> rfl

theorem renderItems_cons (item : Json) {rest : List Json} (hrest : rest ≠ []) :
    renderItems (item :: rest) = item.renderChars ++ ',' :: renderItems rest := by
  cases rest with
  | nil => exact absurd rfl hrest
  | cons next rest => rfl

theorem renderFields_cons (name : String) (value : Json) {rest : Fields} (hrest : rest ≠ []) :
    renderFields ((name, value) :: rest) =
      quoteText name ++ ':' :: value.renderChars ++ ',' :: renderFields rest := by
  cases rest with
  | nil => exact absurd rfl hrest
  | cons next rest => rfl

theorem exists_opening_items {levels : Nat} {items : List Json} (hne : items ≠ [])
    (h : areSimple levels items = true) : ∃ c ∈ openings, ∃ r, renderItems items = c :: r := by
  cases items with
  | nil => exact absurd rfl hne
  | cons item rest =>
    obtain ⟨c, hc, r, hr⟩ := exists_opening (Bool.and_eq_true_iff.1 h).1
    cases rest with
    | nil => exact ⟨c, hc, r, hr⟩
    | cons next rest =>
      exact ⟨c, hc, r ++ ',' :: renderItems (next :: rest), by simp [renderItems, hr]⟩

theorem scanValue?_arr {c : Char} (hc : c ∈ openings) (levels fuel : Nat) (r : List Char) :
    scanValue? (fuel + 1) levels ('[' :: c :: r) =
      (scanItems? fuel (levels - 1) (c :: r)).map fun p => (held levels (.arr p.1), p.2) := by
  have hskip := skipBlanks_of_opening hc r
  have hend : c ≠ ']' := by
    rintro rfl
    exact absurd hc (by decide)
  have hopen : skipBlanks ('[' :: c :: r) = '[' :: c :: r := rfl
  simp only [scanValue?, hopen, hskip]
  split
  · next heq => exact absurd (List.cons.inj heq).1 hend
  · cases scanItems? fuel (levels - 1) (c :: r) <;> rfl

theorem scanValue?_obj (levels fuel : Nat) (r : List Char) :
    scanValue? (fuel + 1) levels ('\x7b' :: '"' :: r) =
      (scanFields? fuel (levels - 1) ('"' :: r)).map fun p =>
        (held levels (ofFields p.1), p.2) := by
  have hopen : skipBlanks ('\x7b' :: '"' :: r) = '\x7b' :: '"' :: r := rfl
  have hskip : skipBlanks ('"' :: r) = '"' :: r := rfl
  simp only [scanValue?, hopen, hskip]
  split
  · next heq => exact absurd (List.cons.inj heq).1 (by decide)
  · cases scanFields? fuel (levels - 1) ('"' :: r) <;> rfl

section Lists

variable {levels fuel : Nat} {s r rest : List Char} {value : Json}

theorem scanItems?_last (h : scanValue? fuel levels s = some (value, ']' :: r)) :
    scanItems? (fuel + 1) levels s = some ([value], r) := by
  rw [scanItems?, h]
  rfl

theorem scanItems?_next {items : List Json} (h : scanValue? fuel levels s = some (value, ',' :: r))
    (hrest : scanItems? fuel levels r = some (items, rest)) :
    scanItems? (fuel + 1) levels s = some (value :: items, rest) := by
  rw [scanItems?, h, Option.bind_eq_bind, Option.bind_some]
  simp [skipBlanks, hrest]

theorem quoteText_append (name : String) (s : List Char) :
    quoteText name ++ s = '"' :: (name.toList.flatMap escapeChar ++ '"' :: s) := by
  simp [quoteText]

theorem scanFields?_last (name : String)
    (h : scanValue? fuel levels s = some (value, '\x7d' :: r)) :
    scanFields? (fuel + 1) levels (quoteText name ++ ':' :: s) =
      some ([(some name, value)], r) := by
  simp [quoteText_append, scanFields?, skipBlanks, scanString?_flatMap_escapeChar,
    heldText?_toNat, h]

theorem scanFields?_next {fields : List (Option String × Json)} (name : String)
    (h : scanValue? fuel levels s = some (value, ',' :: r))
    (hrest : scanFields? fuel levels r = some (fields, rest)) :
    scanFields? (fuel + 1) levels (quoteText name ++ ':' :: s) =
      some ((some name, value) :: fields, rest) := by
  simp [quoteText_append, scanFields?, skipBlanks, scanString?_flatMap_escapeChar,
    heldText?_toNat, h, hrest]

end Lists

theorem mapM_map_of_forall {β γ : Type} {f : γ → Option β} {g : β → γ} (h : ∀ b, f (g b) = some b)
    (l : List β) : (l.map g).mapM f = some l := by
  have hpure : f ∘ g = fun b => pure (id b) := funext h
  rw [List.mapM_map, hpure, List.mapM_pure, List.map_id]
  rfl

theorem ofFields_some (fields : Fields) :
    ofFields (fields.map fun e => (some e.1, e.2)) = .obj fields := by
  have hnamed := mapM_map_of_forall (f := fun e => e.1.map fun name => (name, e.2))
    (g := fun e : String × Json => (some e.1, e.2)) (fun _ => rfl) fields
  rw [ofFields, hnamed]

theorem exists_quote_renderFields {fields : Fields} (hne : fields ≠ []) :
    ∃ r, renderFields fields = '"' :: r := by
  cases fields with
  | nil => exact absurd rfl hne
  | cons e rest =>
    obtain ⟨name, value⟩ := e
    cases rest <;> exact ⟨_, rfl⟩

/-! ## Documents -/

mutual

/-- A simple value is read from its text, whatever stands behind it. -/
theorem scanValue?_renderChars : ∀ (j : Json) {levels fuel : Nat} (rest : List Char),
    j.isSimple levels = true → 2 * j.renderChars.length ≤ fuel →
      scanValue? fuel levels (j.renderChars ++ rest) = some (j, rest)
  | j, levels, 0, rest, hsimple, hfuel => by
    obtain ⟨c, -, r, hr⟩ := exists_opening hsimple
    simp [hr] at hfuel
  | .null, levels, fuel + 1, rest, _, _ => rfl
  | .bool true, levels, fuel + 1, rest, _, _ => rfl
  | .bool false, levels, fuel + 1, rest, _, _ => rfl
  | .str s, levels, fuel + 1, rest, _, _ => by
    simp [renderChars, quoteText, scanValue?, skipBlanks, scanString?_flatMap_escapeChar,
      heldText?_toNat]
  | .arr [], levels + 1, fuel + 1, rest, _, _ => rfl
  | .arr (item :: items), levels + 1, fuel + 1, rest, hsimple, hfuel => by
    simp only [renderChars, List.length_cons, List.length_append, List.length_nil] at hfuel
    have hitems : scanItems? fuel levels (renderItems (item :: items) ++ ']' :: rest) =
        some (item :: items, rest) :=
      scanItems?_renderItems (item :: items) rest (by simp) hsimple (by omega)
    obtain ⟨c, hc, r, hr⟩ := exists_opening_items (List.cons_ne_nil item items) hsimple
    rw [hr, List.cons_append] at hitems
    have htext : Json.renderChars (.arr (item :: items)) ++ rest =
        '[' :: c :: (r ++ ']' :: rest) := by simp [renderChars, hr]
    rw [htext, scanValue?_arr hc, Nat.add_sub_cancel, hitems]
    rfl
  | .obj [], levels + 1, fuel + 1, rest, _, _ => rfl
  | .obj (e :: fields), levels + 1, fuel + 1, rest, hsimple, hfuel => by
    simp only [renderChars, List.length_cons, List.length_append, List.length_nil] at hfuel
    have hfields : scanFields? fuel levels (renderFields (e :: fields) ++ '\x7d' :: rest) =
        some ((e :: fields).map fun e => (some e.1, e.2), rest) :=
      scanFields?_renderFields (e :: fields) rest (by simp) hsimple (by omega)
    obtain ⟨r, hr⟩ := exists_quote_renderFields (List.cons_ne_nil e fields)
    rw [hr, List.cons_append] at hfields
    have htext : Json.renderChars (.obj (e :: fields)) ++ rest =
        '\x7b' :: '"' :: (r ++ '\x7d' :: rest) := by simp [renderChars, hr]
    rw [htext, scanValue?_obj, Nat.add_sub_cancel, hfields, Option.map_some, ofFields_some]
    rfl
  | .arr items, 0, _, _, hsimple, _ => by cases hsimple
  | .obj fields, 0, _, _, hsimple, _ => by cases hsimple
  | .int n, 0, _, _, hsimple, _ | .int n, _ + 1, _, _, hsimple, _ => by cases hsimple
  | .float .., 0, _, _, hsimple, _ | .float .., _ + 1, _, _, hsimple, _ => by cases hsimple
  | .unreadable, 0, _, _, hsimple, _ | .unreadable, _ + 1, _, _, hsimple, _ => by cases hsimple

/-- The items of an array are read up to its end. -/
theorem scanItems?_renderItems : ∀ (items : List Json) {levels fuel : Nat} (rest : List Char),
    items ≠ [] → areSimple levels items = true → 2 * (renderItems items).length + 1 ≤ fuel →
      scanItems? fuel levels (renderItems items ++ ']' :: rest) = some (items, rest)
  | [], _, _, _, hne, _, _ => absurd rfl hne
  | [item], levels, fuel + 1, rest, _, hsimple, hfuel => by
    rw [renderItems] at hfuel ⊢
    have hsimple := (Bool.and_eq_true_iff.1 hsimple).1
    exact scanItems?_last (scanValue?_renderChars item _ hsimple (by omega))
  | item :: next :: items, levels, fuel + 1, rest, _, hsimple, hfuel => by
    obtain ⟨hitem, hrest⟩ := Bool.and_eq_true_iff.1 hsimple
    simp only [renderItems, List.length_append, List.length_cons] at hfuel
    have hlast : scanItems? fuel levels (renderItems (next :: items) ++ ']' :: rest) =
        some (next :: items, rest) :=
      scanItems?_renderItems (next :: items) rest (by simp) hrest (by omega)
    have hfirst : scanValue? fuel levels (item.renderChars ++
        ',' :: (renderItems (next :: items) ++ ']' :: rest)) = some (item, _) :=
      scanValue?_renderChars item _ hitem (by omega)
    rw [renderItems_cons item (by simp), List.append_assoc, List.cons_append]
    exact scanItems?_next hfirst hlast

/-- The fields of an object are read up to its end. -/
theorem scanFields?_renderFields : ∀ (fields : Fields) {levels fuel : Nat} (rest : List Char),
    fields ≠ [] → areSimpleFields levels fields = true →
      2 * (renderFields fields).length + 1 ≤ fuel →
      scanFields? fuel levels (renderFields fields ++ '\x7d' :: rest) =
        some (fields.map fun e => (some e.1, e.2), rest)
  | [], _, _, _, hne, _, _ => absurd rfl hne
  | [(name, value)], levels, fuel + 1, rest, _, hsimple, hfuel => by
    have hsimple := (Bool.and_eq_true_iff.1 hsimple).1
    simp only [renderFields, List.length_append, List.length_cons] at hfuel
    rw [renderFields, List.append_assoc, List.cons_append]
    exact scanFields?_last name (scanValue?_renderChars value _ hsimple (by omega))
  | (name, value) :: next :: fields, levels, fuel + 1, rest, _, hsimple, hfuel => by
    obtain ⟨hvalue, hrest⟩ := Bool.and_eq_true_iff.1 hsimple
    rw [renderFields_cons name value (by simp)] at hfuel ⊢
    simp only [List.length_append, List.length_cons] at hfuel
    have hlast : scanFields? fuel levels (renderFields (next :: fields) ++ '\x7d' :: rest) =
        some ((next :: fields).map fun e => (some e.1, e.2), rest) :=
      scanFields?_renderFields (next :: fields) rest (by simp) hrest (by omega)
    have hfirst : scanValue? fuel levels (value.renderChars ++
        ',' :: (renderFields (next :: fields) ++ '\x7d' :: rest)) = some (value, _) :=
      scanValue?_renderChars value _ hvalue (by omega)
    have hnext := scanFields?_next name hfirst hlast
    simpa using hnext

end

/-- **The text of a simple document is read as the document.** -/
theorem ofText?_render {j : Json} (h : j.isSimple deepestLevel = true) :
    ofText? j.render = some j := by
  have hscan : scanValue? (2 * j.renderChars.length + 2) deepestLevel (j.renderChars ++ []) =
      some (j, []) := scanValue?_renderChars j [] h (by omega)
  rw [List.append_nil] at hscan
  rw [ofText?, render, String.toList_ofList]
  simp [hscan, skipBlanks]

/-! ## Simple documents -/

section Simple

variable {α : Type} {levels : Nat} {fields : Fields} {write : α → Json}

theorem areSimple_iff {items : List Json} :
    areSimple levels items = true ↔ ∀ item ∈ items, item.isSimple levels = true := by
  induction items with
  | nil => simp [areSimple]
  | cons item rest ih => simp [areSimple, ih]

theorem areSimpleFields_iff :
    areSimpleFields levels fields = true ↔ ∀ e ∈ fields, e.2.isSimple levels = true := by
  induction fields with
  | nil => simp [areSimpleFields]
  | cons e rest ih => simp [areSimpleFields, ih]

theorem isSimple_str (s : String) : (str s).isSimple levels = true := by cases levels <;> rfl

theorem isSimple_obj_iff :
    (obj fields).isSimple (levels + 1) = true ↔ ∀ e ∈ fields, e.2.isSimple levels = true :=
  areSimpleFields_iff

theorem isSimple_ofList (h : ∀ a, (write a).isSimple levels = true) (items : List α) :
    (ofList write items).isSimple (levels + 1) = true := by
  refine areSimple_iff.2 ?_
  intro v hv
  obtain ⟨a, -, rfl⟩ := List.mem_map.1 hv
  exact h a

theorem isSimple_ofTexts (m : SortedMap String String) :
    (ofTexts m).isSimple (levels + 1) = true := by
  refine isSimple_obj_iff.2 ?_
  intro e he
  obtain ⟨entry, -, rfl⟩ := List.mem_map.1 he
  exact isSimple_str entry.2

end Simple

end SecretFanout.Json
