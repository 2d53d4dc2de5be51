import LogGuard.Text.Basic

/-!
# Showing bytes as text

`Text.parts` reads bytes as UTF-8. Where they are no character, the longest part that begins one is
passed over, and the reading goes on after that part. For display, `Text.decodeLossy` puts one
replacement character in place of such a part.
-/

namespace LogGuard.Text

/-- The character that stands for bytes which are no character. -/
def replacement : Char := '\uFFFD'

/-- The ranges in which the bytes after the leading byte `b` of a character have to lie, or nothing
if no character begins with `b`. -/
def trailingRanges? (b : UInt8) : Option (List (UInt8 × UInt8)) :=
  if b < 0x80 then some []
  else if b < 0xC2 then none
  else if b < 0xE0 then some [(0x80, 0xBF)]
  else if b == 0xE0 then some [(0xA0, 0xBF), (0x80, 0xBF)]
  else if b == 0xED then some [(0x80, 0x9F), (0x80, 0xBF)]
  else if b < 0xF0 then some [(0x80, 0xBF), (0x80, 0xBF)]
  else if b == 0xF0 then some [(0x90, 0xBF), (0x80, 0xBF), (0x80, 0xBF)]
  else if b < 0xF4 then some [(0x80, 0xBF), (0x80, 0xBF), (0x80, 0xBF)]
  else if b == 0xF4 then some [(0x80, 0x8F), (0x80, 0xBF), (0x80, 0xBF)]
  else none

/-- The longest front part of `bytes` whose members lie in the ranges, one after the other. -/
def trailingBytes : List (UInt8 × UInt8) → List UInt8 → List UInt8
  | (low, high) :: ranges, b :: bytes =>
    if low ≤ b && b ≤ high then b :: trailingBytes ranges bytes else []
  | _, _ => []

/-- The character with the leading byte `b` and the given bytes after it. -/
def assemble (b : UInt8) : List UInt8 → Char
  | [] => Char.ofNat b.toNat
  | trailing =>
    Char.ofNat (trailing.foldl (fun code t => code * 64 + t.toNat % 64)
      (b.toNat % Nat.pow 2 (6 - trailing.length)))

/-- A part of bytes that are read as UTF-8. -/
inductive Part where
  | character (c : Char)
  /-- Bytes that are no character. -/
  | broken (bytes : List UInt8)

/-- The characters that the bytes spell, and the parts that are none. -/
def parts (bytes : List UInt8) : List Part :=
  match bytes with
  | [] => []
  | b :: rest =>
    match trailingRanges? b with
    | none => .broken [b] :: parts rest
    | some ranges =>
      let trailing := trailingBytes ranges rest
      let part :=
        if trailing.length = ranges.length then Part.character (assemble b trailing)
        else .broken (b :: trailing)
      part :: parts (rest.drop trailing.length)
  termination_by bytes.length
  decreasing_by
  · simp
  · simp only [List.length_drop, List.length_cons]
    omega

/-- The character that is shown for a part. -/
def Part.shown : Part → Char
  | .character c => c
  | .broken _ => replacement

/-- Reads bytes as UTF-8, with replacement characters for what is no character. -/
def decodeLossy (bytes : List UInt8) : Text :=
  (parts bytes).map Part.shown

end LogGuard.Text
