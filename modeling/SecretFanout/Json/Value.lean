import SecretFanout.Data.SortedMap
import SecretFanout.Number.Binary64

/-!
# JSON values

JSON documents as values, with readers from a value to a typed result and the
pieces from which typed values are written. An object keeps its fields in order
and may name one twice; a look-up takes the last field of a name.

A text can be well formed and still say what no value can hold, such as a number out of
range. Where that stands is an `unreadable` value: whoever does not look there is not
concerned, and no reader accepts it.

* `field?_append`, `field?_present`: look-ups in the objects that writers build.
* `field?_eq_getLast?`: a look-up takes the last of the `occurrences` of a name.
* `text?`, `flag?`, `integer?`, `list?`, `map?`, `fields?` accept one kind of value each,
  `record?` and `word?` those in which records and words of a choice may be written.
* `required`, `defaulted`, `optional` read a field that must be there, that may be
  left out, and that may be left out or null.
-/

namespace SecretFanout

/-- A JSON value. -/
inductive Json where
  /-- The null value. -/
  | null
  /-- A truth value. -/
  | bool (b : Bool)
  /-- A whole number of 64 bits, with or without a sign. -/
  | int (n : Int)
  /-- Any other number, by its sign and its size in double precision. -/
  | float (negative : Bool) (size : Binary64)
  /-- A string. -/
  | str (s : String)
  /-- An array. -/
  | arr (items : List Json)
  /-- An object. -/
  | obj (fields : List (String × Json))
  /-- What is well formed but cannot be held. -/
  | unreadable

namespace Json

instance : Inhabited Json := ⟨null⟩

/-- The fields of an object. -/
abbrev Fields := List (String × Json)

/-! ## Equality -/

mutual

/-- Whether two values are the same. -/
def same : Json → Json → Bool
  | null, null => true
  | bool a, bool b => a = b
  | int a, int b => a = b
  | float na a, float nb b => na = nb ∧ a = b
  | str a, str b => a = b
  | arr a, arr b => sameItems a b
  | obj a, obj b => sameFields a b
  | unreadable, unreadable => true
  | _, _ => false

/-- Whether two lists have the same items. -/
def sameItems : List Json → List Json → Bool
  | [], [] => true
  | a :: as, b :: bs => same a b && sameItems as bs
  | _, _ => false

/-- Whether two lists have the same fields in the same order. -/
def sameFields : List (String × Json) → List (String × Json) → Bool
  | [], [] => true
  | (j, a) :: as, (k, b) :: bs => decide (j = k) && same a b && sameFields as bs
  | _, _ => false

end

mutual

theorem same_iff : ∀ a b : Json, same a b = true ↔ a = b
  | null, b | bool _, b | int _, b | float .., b | str _, b | unreadable, b => by
    cases b <;> simp [same]
  | arr as, b => by cases b <;> simp [same, sameItems_iff as]
  | obj as, b => by cases b <;> simp [same, sameFields_iff as]

theorem sameItems_iff : ∀ as bs : List Json, sameItems as bs = true ↔ as = bs
  | [], bs => by cases bs <;> simp [sameItems]
  | a :: as, bs => by cases bs <;> simp [sameItems, same_iff a, sameItems_iff as]

theorem sameFields_iff : ∀ as bs : List (String × Json), sameFields as bs = true ↔ as = bs
  | [], bs => by cases bs <;> simp [sameFields]
  | (k, a) :: as, bs => by
    cases bs <;> simp [sameFields, same_iff a, sameFields_iff as, Prod.ext_iff, and_assoc]

end

instance : DecidableEq Json := fun a b => decidable_of_iff _ (same_iff a b)

/-! ## Look-up -/

/-- The last field of a name. -/
def field? (name : String) : Fields → Option Json
  | [] => none
  | (k, v) :: rest =>
    match field? name rest with
    | some w => some w
    | none => if k = name then some v else none

@[simp] theorem field?_nil (name : String) : field? name [] = none := rfl

theorem field?_append (name : String) (l m : Fields) :
    field? name (l ++ m) = (field? name m).or (field? name l) := by
  induction l with
  | nil => simp
  | cons e rest ih =>
    obtain ⟨k, v⟩ := e
    rw [List.cons_append, field?, ih, field?]
    cases field? name m <;> cases field? name rest <;> rfl

theorem field?_cons (name k : String) (v : Json) (rest : Fields) :
    field? name ((k, v) :: rest) = (field? name rest).or (if k = name then some v else none) := by
  rw [field?]
  cases field? name rest <;> rfl

/-- A field that is written if it has a value. -/
def present (name : String) (value : Option Json) : Fields :=
  match value with
  | none => []
  | some v => [(name, v)]

theorem mem_present_iff {name : String} {value : Option Json} {e : String × Json} :
    e ∈ present name value ↔ ∃ v, value = some v ∧ e = (name, v) := by
  cases value <;> simp [present]

theorem field?_present (name k : String) (value : Option Json) :
    field? name (present k value) = if k = name then value else none := by
  cases value <;> simp [present, field?]

/-- The values of all fields of a name, in order. -/
def occurrences (name : String) (fields : Fields) : List Json :=
  fields.filterMap fun e => if e.1 = name then some e.2 else none

theorem occurrences_append (name : String) (l m : Fields) :
    occurrences name (l ++ m) = occurrences name l ++ occurrences name m :=
  List.filterMap_append

theorem occurrences_present (name k : String) (value : Option Json) :
    occurrences name (present k value) = if k = name then value.toList else [] := by
  cases value <;> by_cases h : k = name <;> simp [present, occurrences, h]

theorem occurrences_cons (name k : String) (v : Json) (rest : Fields) :
    occurrences name ((k, v) :: rest) =
      if k = name then v :: occurrences name rest else occurrences name rest := by
  by_cases h : k = name <;> simp [occurrences, h]

/-- A look-up takes the last of all fields of a name. -/
theorem field?_eq_getLast? (name : String) (fields : Fields) :
    field? name fields = (occurrences name fields).getLast? := by
  induction fields with
  | nil => rfl
  | cons e rest ih =>
    obtain ⟨k, v⟩ := e
    rw [field?, ih, occurrences_cons]
    cases occurrences name rest <;> by_cases h : k = name <;> simp [h, List.getLast?_cons]

theorem mem_occurrences {name : String} {fields : Fields} {v : Json} :
    v ∈ occurrences name fields ↔ (name, v) ∈ fields := by
  simp only [occurrences, List.mem_filterMap, Option.ite_none_right_eq_some, Option.some.injEq]
  constructor
  · rintro ⟨e, he, rfl, rfl⟩
    exact he
  · intro he
    exact ⟨_, he, rfl, rfl⟩

theorem mem_of_field? {name : String} {fields : Fields} {v : Json}
    (h : field? name fields = some v) : (name, v) ∈ fields := by
  rw [field?_eq_getLast?] at h
  exact mem_occurrences.1 (List.mem_of_getLast? h)

theorem isSome_field?_iff {name : String} {fields : Fields} :
    (field? name fields).isSome = true ↔ ∃ v, (name, v) ∈ fields := by
  constructor
  · intro h
    obtain ⟨v, hv⟩ := Option.isSome_iff_exists.1 h
    exact ⟨v, mem_of_field? hv⟩
  · rintro ⟨v, hv⟩
    rw [field?_eq_getLast?, List.getLast?_isSome]
    exact List.ne_nil_of_mem (mem_occurrences.2 hv)

/-- Whether some name occurs in several fields. -/
def hasRepeated (name : String) (fields : Fields) : Bool := 1 < (occurrences name fields).length

/-! ## Parts -/

mutual

/-- Whether a value can be held as a whole. -/
def isSound : Json → Bool
  | unreadable => false
  | arr items => areSound items
  | obj fields => areSoundFields fields
  | _ => true

/-- Whether all items can be held. -/
def areSound : List Json → Bool
  | [] => true
  | item :: rest => isSound item && areSound rest

/-- Whether the values of all fields can be held. -/
def areSoundFields : List (String × Json) → Bool
  | [] => true
  | (_, value) :: rest => isSound value && areSoundFields rest

end

mutual

/-- The value with the fields of each object in alphabetical order, each name once and with
its last value. -/
def normalized : Json → Json
  | arr items => arr (normalizedItems items)
  | obj fields => obj (SortedMap.ofList (normalizedFields fields)).toList
  | j => j

/-- Items, each with its fields in order. -/
def normalizedItems : List Json → List Json
  | [] => []
  | item :: rest => normalized item :: normalizedItems rest

/-- Fields, the values each with its fields in order. -/
def normalizedFields : List (String × Json) → List (String × Json)
  | [] => []
  | (name, value) :: rest => (name, normalized value) :: normalizedFields rest

end

/-! ## Readers -/

/-- A string. -/
def text? : Json → Option String
  | str s => some s
  | _ => none

/-- A truth value. -/
def flag? : Json → Option Bool
  | bool b => some b
  | _ => none

/-- An integer from a range. -/
def integer? (low high : Int) : Json → Option Int
  | int n => if low ≤ n ∧ n ≤ high then some n else none
  | _ => none

/-- An integer of 64 bits with a sign. -/
def int64? : Json → Option Int := integer? (-Int.pow 2 63) (Int.pow 2 63 - 1)

/-- The fields of an object. -/
def fields? : Json → Option Fields
  | obj fields => some fields
  | _ => none

/-- The fields of a record, which may also be written as an array of their values, in the
order of their names and without those at the end that are left out. -/
def record? (names : List String) : Json → Option Fields
  | obj fields => some fields
  | arr items => if items.length ≤ names.length then some (names.zip items) else none
  | _ => none

@[simp] theorem record?_obj (names : List String) (fields : Fields) :
    record? names (obj fields) = some fields := rfl

/-- A word of a choice, which may also be written as the name of a single field that is null. -/
def word? : Json → Option String
  | str s => some s
  | obj [(name, null)] => some name
  | _ => none

@[simp] theorem word?_str (s : String) : word? (str s) = some s := rfl

/-- An array of like items. -/
def list? {α : Type} (item : Json → Option α) : Json → Option (List α)
  | arr items => items.mapM item
  | _ => none

/-- An object of like values under free names. -/
def map? {α : Type} (item : Json → Option α) : Json → Option (SortedMap String α)
  | obj fields => do
    let entries ← fields.mapM fun e => do pure (e.1, ← item e.2)
    pure (SortedMap.ofList entries)
  | _ => none

/-! ## Fields of an object -/

/-- A field that has to be there. -/
def required {α : Type} (fields : Fields) (name : String) (read : Json → Option α) : Option α :=
  (field? name fields).bind read

/-- A field that may be left out, but is not null. -/
def defaulted {α : Type} (fields : Fields) (name : String) (read : Json → Option α)
    (default : α) : Option α :=
  match field? name fields with
  | none => some default
  | some v => read v

/-- A value that may be null. -/
def nullable? {α : Type} (read : Json → Option α) : Json → Option (Option α)
  | null => some none
  | j => (read j).map some

/-- A field that may be left out or null. If it stands several times, all of them have to
be readable, and the last one counts. -/
def optional {α : Type} (fields : Fields) (name : String) (read : Json → Option α) :
    Option (Option α) :=
  ((occurrences name fields).mapM (nullable? read)).map fun values => values.getLast?.join

/-! ## Writers -/

/-- An array of like items. -/
def ofList {α : Type} (item : α → Json) (items : List α) : Json := arr (items.map item)

/-- An object of like values under free names. -/
def ofMap {α : Type} (item : α → Json) (m : SortedMap String α) : Json :=
  obj (m.entries.map fun e => (e.1, item e.2))

/-- An object of strings. -/
def ofTexts (m : SortedMap String String) : Json := ofMap str m

end Json

end SecretFanout
