import LogGuard.Text.Hexadecimal

/-!
# Text for a terminal

A terminal obeys some controls in what it shows. `Text.forTerminal` takes their effect from those
with which a text could move the cursor, erase or recolour: they are written by their code points.
All other characters stay as they are, line ends and tabs among them.
-/

namespace LogGuard.Text

/-- The controls below `U+0080` that are written by their code points: bell, backspace, form feed,
escape and delete. -/
def terminalControls : List Char :=
  ['\x07', '\x08', '\x0c', '\x1b', '\x7f']

/-- A character as it is shown on a terminal. The controls from `U+0080` to `U+009F` do in one
character what others do after an escape. -/
def terminalForm (c : Char) : Text :=
  if terminalControls.contains c then ['\\', 'x'] ++ hexPair c.toNat
  else if 0x80 ≤ c.toNat && c.toNat ≤ 0x9F then byCodePoint c
  else [c]

/-- A text as it is shown on a terminal. -/
def forTerminal (t : Text) : Text :=
  t.flatMap terminalForm

end LogGuard.Text
