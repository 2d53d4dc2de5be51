import LogGuard.Text.Basic

/-!
# Hexadecimal forms

Characters that cannot stand in a text for themselves are written by their code points: with two
digits (`Text.hexPair`) or with as many as it takes, between braces (`Text.byCodePoint`).
-/

namespace LogGuard.Text

/-- The hexadecimal digit for a number below 16. -/
def hexDigit (n : Nat) : Char :=
  if n < 10 then Char.ofNat (0x30 + n) else Char.ofNat (0x57 + n)

/-- The two hexadecimal digits of a number below 256. -/
def hexPair (n : Nat) : Text :=
  [hexDigit (n / 16), hexDigit (n % 16)]

/-- The same digits in capital letters. -/
def capitalHexPair (n : Nat) : Text :=
  (hexPair n).map Char.toUpper

/-- A number in hexadecimal digits. -/
def hexadecimal (n : Nat) : Text :=
  Nat.toDigits 16 n

/-- A character written by its code point between braces. -/
def byCodePoint (c : Char) : Text :=
  ['\\', 'u', '\x7b'] ++ hexadecimal c.toNat ++ ['\x7d']

end LogGuard.Text
