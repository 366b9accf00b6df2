import SecretFanout.Text.Shapeless

/-!
# Quoted text

A text in double quotes with every character visible: the quote and the backslash are
escaped, so are tab, line feed, carriage return and the null character, and any other
character that does not show by itself is written as its code point in braces.

* `Quoted.quote` is the text in quotes.
-/

namespace SecretFanout.Text.Quoted

/-- The lower-case hexadecimal digits of a number. -/
def hexDigits (n : Nat) : List Char := Nat.toDigits 16 n

/-- A character inside quotes. -/
def encodeChar (c : Char) : List Char :=
  match c with
  | '\x00' => ['\\', '0']
  | '\t' => ['\\', 't']
  | '\n' => ['\\', 'n']
  | '\r' => ['\\', 'r']
  | '"' => ['\\', '"']
  | '\\' => ['\\', '\\']
  | c => if isShapeless c then ['\\', 'u', '\x7b'] ++ hexDigits c.toNat ++ ['\x7d'] else [c]

/-- A text in quotes. -/
def encode (s : List Char) : List Char := '"' :: s.flatMap encodeChar ++ ['"']

/-- A text in quotes. -/
def quote (s : String) : String := String.ofList (encode s.toList)

end SecretFanout.Text.Quoted
