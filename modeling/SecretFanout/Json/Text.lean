import SecretFanout.Json.Number

/-!
# JSON documents as text

The reader takes one document with blanks around it and nothing else; it is strict
about numbers, control characters and escapes. Repeated names are kept, in order. What is
well formed but cannot be held is read as an unreadable value: a string with half of a
surrogate pair, an object with such a name, a number out of range, and arrays and objects
that stand too deep in one another. The writer uses no blanks.

* `Json.ofText?` reads a document, `Json.render` writes one.
* `Json.joinHalves?_map_toNat`: only a lone half of a pair makes a string unreadable.
-/

namespace SecretFanout.Json

/-! ## Reading -/

/-- The text behind the blanks between tokens. -/
def skipBlanks : List Char → List Char
  | ' ' :: r | '\n' :: r | '\t' :: r | '\r' :: r => skipBlanks r
  | s => s

/-- The value of a hexadecimal digit. -/
def hexDigit? (c : Char) : Option Nat :=
  if '0' ≤ c ∧ c ≤ '9' then some (c.toNat - '0'.toNat)
  else if 'a' ≤ c ∧ c ≤ 'f' then some (c.toNat - 'a'.toNat + 10)
  else if 'A' ≤ c ∧ c ≤ 'F' then some (c.toNat - 'A'.toNat + 10)
  else none

/-- The value of four hexadecimal digits. -/
def hexQuad? (a b c d : Char) : Option Nat := do
  some ((((← hexDigit? a) * 16 + (← hexDigit? b)) * 16 + (← hexDigit? c)) * 16 + (← hexDigit? d))

/-- The character of an escape with one letter. -/
def simpleEscape? : Char → Option Char
  | '"' => some '"'
  | '\\' => some '\\'
  | '/' => some '/'
  | 'b' => some '\x08'
  | 'f' => some '\x0c'
  | 'n' => some '\n'
  | 'r' => some '\r'
  | 't' => some '\t'
  | _ => none

/-- Reads a string behind its opening quote, as the numbers of its characters; an escape
may name half of a surrogate pair. -/
def scanString? : List Char → Option (List Nat × List Char)
  | [] => none
  | '"' :: r => some ([], r)
  | '\\' :: 'u' :: a :: b :: c :: d :: r => do
    let n ← hexQuad? a b c d
    let (s, rest) ← scanString? r
    some (n :: s, rest)
  | '\\' :: c :: r => do
    let c ← simpleEscape? c
    let (s, rest) ← scanString? r
    some (c.toNat :: s, rest)
  | c :: r => do
    if c.toNat < 0x20 ∨ c = '\\' then none
    else
      let (s, rest) ← scanString? r
      some (c.toNat :: s, rest)

/-- Whether a number is that of the first half of a surrogate pair. -/
def isHighHalf (n : Nat) : Bool := 0xd800 ≤ n && n < 0xdc00

/-- Whether a number is that of the second half of a surrogate pair. -/
def isLowHalf (n : Nat) : Bool := 0xdc00 ≤ n && n < 0xe000

/-- The characters of so many numbers, if each half of a surrogate pair has the other one. -/
def joinHalves? : List Nat → Option (List Char)
  | [] => some []
  | [n] => if isHighHalf n || isLowHalf n then none else some [Char.ofNat n]
  | n :: m :: rest =>
    if isHighHalf n && isLowHalf m then
      (joinHalves? rest).map (Char.ofNat (0x10000 + (n - 0xd800) * 0x400 + (m - 0xdc00)) :: ·)
    else if isHighHalf n || isLowHalf n then none
    else (joinHalves? (m :: rest)).map (Char.ofNat n :: ·)

theorem not_half_toNat (c : Char) : (isHighHalf c.toNat || isLowHalf c.toNat) = false := by
  have h : c.toNat < 0xd800 ∨ 0xdfff < c.toNat ∧ c.toNat < 0x110000 := c.valid
  simp only [isHighHalf, isLowHalf, Bool.or_eq_false_iff, Bool.and_eq_false_iff,
    decide_eq_false_iff_not]
  omega

/-- Whole characters are joined as they are. -/
theorem joinHalves?_map_toNat (s : List Char) : joinHalves? (s.map Char.toNat) = some s := by
  induction s with
  | nil => rfl
  | cons c r ih =>
    have hc := not_half_toNat c
    have hhigh : isHighHalf c.toNat = false := (Bool.or_eq_false_iff.1 hc).1
    cases r with
    | nil => simp [joinHalves?, hc]
    | cons d r =>
      rw [List.map_cons, List.map_cons, joinHalves?, ← List.map_cons, ih]
      simp [hhigh, (Bool.or_eq_false_iff.1 hc).2]

/-- The text of a string that was read, if it can be held. -/
def heldText? (s : List Nat) : Option String := (joinHalves? s).map String.ofList

/-- Arrays and objects may stand in one another up to this depth. -/
def deepestLevel : Nat := 127

/-- An array or object that has so many levels left to it. -/
def held (levels : Nat) (j : Json) : Json := if levels = 0 then .unreadable else j

/-- An object of fields that were read, if all names can be held. -/
def ofFields (fields : List (Option String × Json)) : Json :=
  match fields.mapM fun e => e.1.map fun name => (name, e.2) with
  | some fields => .obj fields
  | none => .unreadable

mutual

/-- Reads a value of so many tokens at most and as many levels as are left. -/
def scanValue? : Nat → Nat → List Char → Option (Json × List Char)
  | 0, _, _ => none
  | n + 1, levels, s =>
    match skipBlanks s with
    | 'n' :: 'u' :: 'l' :: 'l' :: r => some (.null, r)
    | 't' :: 'r' :: 'u' :: 'e' :: r => some (.bool true, r)
    | 'f' :: 'a' :: 'l' :: 's' :: 'e' :: r => some (.bool false, r)
    | '"' :: r => do
      let (s, r) ← scanString? r
      some ((heldText? s).elim .unreadable .str, r)
    | '[' :: r =>
      match skipBlanks r with
      | ']' :: r => some (held levels (.arr []), r)
      | r => do
        let (items, r) ← scanItems? n (levels - 1) r
        some (held levels (.arr items), r)
    | '\x7b' :: r =>
      match skipBlanks r with
      | '\x7d' :: r => some (held levels (.obj []), r)
      | r => do
        let (fields, r) ← scanFields? n (levels - 1) r
        some (held levels (ofFields fields), r)
    | r => scanNumber? r

/-- Reads the items of an array up to its end. -/
def scanItems? : Nat → Nat → List Char → Option (List Json × List Char)
  | 0, _, _ => none
  | n + 1, levels, s => do
    let (item, r) ← scanValue? n levels s
    match skipBlanks r with
    | ',' :: r =>
      let (items, r) ← scanItems? n levels r
      some (item :: items, r)
    | ']' :: r => some ([item], r)
    | _ => none

/-- Reads the fields of an object up to its end. -/
def scanFields? : Nat → Nat → List Char → Option (List (Option String × Json) × List Char)
  | 0, _, _ => none
  | n + 1, levels, s =>
    match skipBlanks s with
    | '"' :: r => do
      let (name, r) ← scanString? r
      match skipBlanks r with
      | ':' :: r =>
        let (value, r) ← scanValue? n levels r
        match skipBlanks r with
        | ',' :: r =>
          let (fields, r) ← scanFields? n levels r
          some ((heldText? name, value) :: fields, r)
        | '\x7d' :: r => some ([(heldText? name, value)], r)
        | _ => none
      | _ => none
    | _ => none

end

/-- Reads a document; it has no more tokens than characters. -/
def ofText? (text : String) : Option Json := do
  let s := text.toList
  let (value, r) ← scanValue? (2 * s.length + 2) deepestLevel s
  if (skipBlanks r).isEmpty then some value else none

/-! ## Writing -/

/-- A hexadecimal digit. -/
def hexChar (n : Nat) : Char := Nat.digitChar (n % 16)

/-- A character of a string, escaped where it has to be. -/
def escapeChar (c : Char) : List Char :=
  match c with
  | '"' => ['\\', '"']
  | '\\' => ['\\', '\\']
  | '\x08' => ['\\', 'b']
  | '\x0c' => ['\\', 'f']
  | '\n' => ['\\', 'n']
  | '\r' => ['\\', 'r']
  | '\t' => ['\\', 't']
  | c =>
    if c.toNat < 0x20 then ['\\', 'u', '0', '0', hexChar (c.toNat / 16), hexChar c.toNat] else [c]

/-- A string in quotes. -/
def quoteText (s : String) : List Char := '"' :: s.toList.flatMap escapeChar ++ ['"']

mutual

/-- A value as text; null stands for what cannot be held. -/
def renderChars : Json → List Char
  | .null => "null".toList
  | .bool true => "true".toList
  | .bool false => "false".toList
  | .int n => (toString n).toList
  | .float negative size => floatText negative size
  | .str s => quoteText s
  | .arr items => '[' :: renderItems items ++ [']']
  | .obj fields => '\x7b' :: renderFields fields ++ ['\x7d']
  | .unreadable => "null".toList

/-- Items with commas between them. -/
def renderItems : List Json → List Char
  | [] => []
  | [item] => renderChars item
  | item :: rest => renderChars item ++ ',' :: renderItems rest

/-- Fields with commas between them. -/
def renderFields : List (String × Json) → List Char
  | [] => []
  | [(name, value)] => quoteText name ++ ':' :: renderChars value
  | (name, value) :: rest => quoteText name ++ ':' :: renderChars value ++ ',' :: renderFields rest

end

/-- A document as text without blanks. -/
def render (j : Json) : String := String.ofList j.renderChars

end SecretFanout.Json
