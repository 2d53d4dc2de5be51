import LogGuard.Path.Basic
import LogGuard.Text.Quoted

/-!
# Quoted paths

A path in a message stands between quotes, like a text. Single quotes are written with a backslash
as well, and bytes that are no character with two hexadecimal digits each.
-/

namespace LogGuard.Path

/-- A part of a path as it stands between quotes. -/
def quotedPart : Text.Part → Text
  | .character c => if c == '\'' then ['\\', '\''] else Text.escaped c
  | .broken bytes => bytes.flatMap fun b => ['\\', 'x'] ++ Text.capitalHexPair b.toNat

/-- A path between quotes. -/
def quoted (p : Path) : String :=
  String.ofList ('"' :: (Text.parts p.bytes).flatMap quotedPart ++ ['"'])

example : (Path.ofString "d/it's \t").quoted = "\"d/it\\'s \\t\"" ∧
    Path.quoted ⟨[0x61, 0xFF, 0xE2, 0x82]⟩ = "\"a\\xFF\\xE2\\x82\"" := by
  decide +kernel

end LogGuard.Path
