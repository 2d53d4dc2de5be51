import LogGuard.Unicode.Alphabetic
import LogGuard.Unicode.Mark
import LogGuard.Unicode.Number
import LogGuard.Unicode.Unprintable
import LogGuard.Unicode.Word

/-!
# Character classes

The classes that the recognisers ask for: white space, letters and numbers (`isAlphanumeric`),
the characters of which a word consists (`isWord`), and those that a quoted text shows as they are
(`isPrintable`).
-/

namespace LogGuard.Unicode

/-- The code points with the property White_Space. -/
def whiteSpace : Ranges :=
  [(0x9, 0xD), (0x20, 0x20), (0x85, 0x85), (0xA0, 0xA0), (0x1680, 0x1680), (0x2000, 0x200A),
    (0x2028, 0x2029), (0x202F, 0x202F), (0x205F, 0x205F), (0x3000, 0x3000)]

/-- White space of any script, line ends included. -/
def isWhiteSpace (c : Char) : Bool :=
  whiteSpace.contains c

/-- A letter or a number of any script. -/
def isAlphanumeric (c : Char) : Bool :=
  alphabetic.contains c || numeric.contains c

/-- A character that continues a word: letters, marks, decimal digits, connectors and joiners. -/
def isWord (c : Char) : Bool :=
  word.contains c

/-- A character that a quoted text shows as it is. A mark at its front would be drawn on the quote,
and a character without a glyph would not be seen. -/
def isPrintable (c : Char) : Bool :=
  !extendingMark.contains c && !unprintable.contains c && !filler.contains c

end LogGuard.Unicode
