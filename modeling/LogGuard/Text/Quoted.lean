import LogGuard.Text.Hexadecimal
import LogGuard.Unicode.Class

/-!
# Quoted texts

A text in a message stands between quotes. Quotes, backslashes and the usual controls are written
with a backslash; all other characters that have no glyph of their own are written by their code
points, and so are the marks that would be drawn on the character before them.
-/

namespace LogGuard.Text

/-- A character as it stands between quotes. -/
def escaped (c : Char) : Text :=
  if c == '\x00' then ['\\', '0']
  else if c == '\t' then ['\\', 't']
  else if c == '\r' then ['\\', 'r']
  else if c == '\n' then ['\\', 'n']
  else if c == '\\' then ['\\', '\\']
  else if c == '"' then ['\\', '"']
  else if Unicode.isPrintable c then [c]
  else byCodePoint c

/-- A text between quotes. -/
def quoted (t : Text) : Text :=
  '"' :: t.flatMap escaped ++ ['"']

end LogGuard.Text
