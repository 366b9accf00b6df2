import SecretFanout.Json.Text

/-!
# JSON documents in YAML

A document as block YAML: a field a line, what a field holds indented by two blanks below
it, the items of an array behind dashes that are not indented. Arrays and objects without
contents and all scalars are written in place. A string that could be taken for anything
else is written in double quotes, as in JSON.

* `Json.yaml` is the whole text, `Json.isPlain` says which strings need no quotes.
-/

namespace SecretFanout.Json

/-! ## Plain strings -/

/-- The words that stand for values other than strings. -/
def reservedWords : List String :=
  ["null", "true", "false", "yes", "no", "on", "off", "y", "n"]

/-- A text with its ASCII letters in lower case. -/
def lowerWord (s : List Char) : String := String.ofList (s.map Char.toLower)

/-- Whether a character may occur in a number. -/
def isNumeralChar (c : Char) : Bool :=
  c.isDigit || c ∈ ['a', 'b', 'c', 'd', 'e', 'f', 'o', 'x', 'A', 'B', 'C', 'D', 'E', 'F',
    '.', ':', '_', '+', '-']

/-- Whether a text has a colon before a blank or at its end, or a blank before a hash. -/
def hasIndicator : List Char → Bool
  | [] => false
  | [':'] => true
  | ':' :: ' ' :: _ => true
  | ' ' :: '#' :: _ => true
  | _ :: r => hasIndicator r

/-- Whether a string can be written as it is: it starts with a letter or a digit, does not
end with a blank, consists of visible ASCII characters and blanks, has no indicators
within, and is neither a number nor a word for another value. -/
def isPlain (s : List Char) : Bool :=
  (s.head?.any Char.isAlphanum) && s.getLast? != some ' ' &&
    s.all (fun c => 0x20 ≤ c.toNat && c.toNat < 0x7f) && !hasIndicator s &&
    !(s.head?.any Char.isDigit && s.all isNumeralChar) && !reservedWords.contains (lowerWord s)

/-- A string, in quotes if it has to be. -/
def yamlString (s : String) : List Char := if isPlain s.toList then s.toList else quoteText s

/-! ## Blocks -/

/-- The text of a value that is written in place, if it is. -/
def inlineYaml? : Json → Option (List Char)
  | .str s => some (yamlString s)
  | .arr [] => some ['[', ']']
  | .obj [] => some ['\x7b', '\x7d']
  | .arr _ | .obj _ => none
  | j => some j.renderChars

/-- A line with so many blanks before it. -/
def indented (indent : Nat) (line : List Char) : List Char :=
  List.replicate indent ' ' ++ line

/-- The lines of a value that start behind a dash: the first one gets the dash. -/
def behindDash (indent : Nat) : List (List Char) → List (List Char)
  | [] => []
  | first :: rest => indented indent ('-' :: ' ' :: first.drop (indent + 2)) :: rest

mutual

/-- The lines of a value. -/
def yamlLines (indent : Nat) : Json → List (List Char)
  | .arr (item :: items) => yamlItems indent (item :: items)
  | .obj (field :: fields) => yamlFields indent (field :: fields)
  | j => [indented indent ((inlineYaml? j).getD [])]

/-- The lines of items, a dash before each. -/
def yamlItems (indent : Nat) : List Json → List (List Char)
  | [] => []
  | item :: rest => behindDash indent (yamlLines (indent + 2) item) ++ yamlItems indent rest

/-- The lines of fields: the contents behind the name or in the lines below it. -/
def yamlFields (indent : Nat) : List (String × Json) → List (List Char)
  | [] => []
  | (name, value) :: rest =>
    (match inlineYaml? value with
      | some text => [indented indent (yamlString name ++ ':' :: ' ' :: text)]
      | none =>
        let below := match value with
          | .arr _ => indent
          | _ => indent + 2
        indented indent (yamlString name ++ [':']) :: yamlLines below value) ++
      yamlFields indent rest

end

/-- A document as YAML, each line with a line feed. -/
def yaml (j : Json) : String :=
  String.ofList ((yamlLines 0 j).flatMap fun line => line ++ ['\n'])

end SecretFanout.Json
