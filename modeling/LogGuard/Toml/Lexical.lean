import LogGuard.Text.Basic

/-!
# Characters, blanks and comments of TOML

The recognisers return what is left of the text. A line ends with a line feed, with a carriage
return before it or not; a carriage return alone is no line end.
-/

namespace LogGuard.Toml

/-- A blank on a line. -/
def isBlank (c : Char) : Bool :=
  c == ' ' || c == '\t'

/-- A character that may stand in a comment or a string: no control but the tabulator. -/
def isPlain (c : Char) : Bool :=
  c == '\t' || (0x20 ≤ c.toNat && c.toNat != 0x7F)

/-- A decimal digit. -/
def isDigit (c : Char) : Bool :=
  '0' ≤ c && c ≤ '9'

/-- A hexadecimal digit. -/
def isHexDigit (c : Char) : Bool :=
  isDigit c || ('a' ≤ c && c ≤ 'f') || ('A' ≤ c && c ≤ 'F')

/-- The value of a digit of any base up to sixteen. -/
def digitValue (c : Char) : Nat :=
  if isDigit c then c.toNat - 0x30
  else if 'a' ≤ c then c.toNat - 0x57
  else c.toNat - 0x37

/-- The number that digits of the given base spell. -/
def numeral (base : Nat) (digits : Text) : Nat :=
  digits.foldl (fun n c => n * base + digitValue c) 0

/-- The text after a line end. -/
def newline? : Text → Option Text
  | '\n' :: rest => some rest
  | '\r' :: '\n' :: rest => some rest
  | _ => none

/-- The text after a line end, or nothing at the end of the text. -/
def lineEnd? : Text → Option Text
  | [] => some []
  | t => newline? t

/-- Drops blanks. -/
def dropBlanks (t : Text) : Text :=
  t.dropWhile isBlank

/-- Drops a comment up to the end of its line. -/
def dropComment : Text → Text
  | '#' :: rest => rest.dropWhile isPlain
  | t => t

/-- The text after what may follow an expression on its line: blanks, a comment and the line end. -/
def endOfLine? (t : Text) : Option Text :=
  lineEnd? (dropComment (dropBlanks t))

/-- Drops blanks, line ends and comments. `inComment` tells whether the text begins inside a
comment. -/
def dropTrivia (inComment : Bool) : Text → Text
  | [] => []
  | '\r' :: '\n' :: rest => dropTrivia false rest
  | c :: rest =>
    if c == '\n' then dropTrivia false rest
    else if inComment then
      if isPlain c then dropTrivia true rest else c :: rest
    else if isBlank c then dropTrivia false rest
    else if c == '#' then dropTrivia true rest
    else c :: rest

end LogGuard.Toml
