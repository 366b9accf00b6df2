/-!
# Base64

Bytes as text in the standard alphabet: three bytes make four characters, and a
last group of one or two bytes is padded with `=`. Reading is strict. A text has
whole groups of four characters, padding only where it is due, and no bit set that
stands for no byte, so each text that can be read is the written form of its bytes.
-/

namespace SecretFanout.Text.Base64

/-- The character of a six-bit number. -/
def encodeDigit (n : Nat) : Char :=
  if n < 26 then Char.ofNat ('A'.toNat + n)
  else if n < 52 then Char.ofNat ('a'.toNat + (n - 26))
  else if n < 62 then Char.ofNat ('0'.toNat + (n - 52))
  else if n = 62 then '+'
  else '/'

/-- The six-bit number of a character. -/
def decodeDigit? (c : Char) : Option Nat :=
  if 'A' ≤ c ∧ c ≤ 'Z' then some (c.toNat - 'A'.toNat)
  else if 'a' ≤ c ∧ c ≤ 'z' then some (c.toNat - 'a'.toNat + 26)
  else if '0' ≤ c ∧ c ≤ '9' then some (c.toNat - '0'.toNat + 52)
  else if c = '+' then some 62
  else if c = '/' then some 63
  else none

/-- Writes bytes. -/
def encode : List UInt8 → List Char
  | [] => []
  | [a] =>
    let n := a.toNat * 16
    [encodeDigit (n / 64), encodeDigit (n % 64), '=', '=']
  | [a, b] =>
    let n := (a.toNat * 256 + b.toNat) * 4
    [encodeDigit (n / 4096), encodeDigit (n / 64 % 64), encodeDigit (n % 64), '=']
  | a :: b :: c :: rest =>
    let n := (a.toNat * 256 + b.toNat) * 256 + c.toNat
    encodeDigit (n / 262144) :: encodeDigit (n / 4096 % 64) :: encodeDigit (n / 64 % 64) ::
      encodeDigit (n % 64) :: encode rest

/-- Reads bytes. -/
def decode? : List Char → Option (List UInt8)
  | [] => some []
  | [w, x, '=', '='] => do
    let n := (← decodeDigit? w) * 64 + (← decodeDigit? x)
    if n % 16 = 0 then some [UInt8.ofNat (n / 16)] else none
  | [w, x, y, '='] => do
    let n := ((← decodeDigit? w) * 64 + (← decodeDigit? x)) * 64 + (← decodeDigit? y)
    if n % 4 = 0 then some [UInt8.ofNat (n / 1024), UInt8.ofNat (n / 4 % 256)] else none
  | w :: x :: y :: z :: rest => do
    let n := (((← decodeDigit? w) * 64 + (← decodeDigit? x)) * 64 + (← decodeDigit? y)) * 64 +
      (← decodeDigit? z)
    let tail ← decode? rest
    some (UInt8.ofNat (n / 65536) :: UInt8.ofNat (n / 256 % 256) :: UInt8.ofNat (n % 256) :: tail)
  | _ => none

end SecretFanout.Text.Base64
