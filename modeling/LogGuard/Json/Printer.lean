import LogGuard.Json.Value
import LogGuard.Text.Hexadecimal

/-!
# Writing JSON

Documents are written over several lines with two spaces for each level; empty arrays and objects
stay on their line. `Json.escape` gives the form of a character inside a string: quotes, backslashes
and controls are escaped and all else stands for itself. Writing stops at a text that cannot be
written, and what stands before it has been written by then (`Json.Written`).
-/

namespace LogGuard.Json

/-- What has been written of a document, and whether it was written to its end. -/
structure Written where
  text : Text
  complete : Bool
  deriving DecidableEq, Repr

namespace Written

/-- A text that was written as a whole. -/
def ofText (t : Text) : Written :=
  ⟨t, true⟩

/-- Writes `w` after `v`, if `v` was written to its end. -/
def append (v w : Written) : Written :=
  if v.complete then ⟨v.text ++ w.text, w.complete⟩ else v

instance : Append Written := ⟨append⟩

end Written

/-- A character as it is written inside a string. -/
def escape (c : Char) : Text :=
  if c == '"' then ['\\', '"']
  else if c == '\\' then ['\\', '\\']
  else if c == '\n' then ['\\', 'n']
  else if c == '\r' then ['\\', 'r']
  else if c == '\t' then ['\\', 't']
  else if c == '\x08' then ['\\', 'b']
  else if c == '\x0c' then ['\\', 'f']
  else if c.toNat < 0x20 then ['\\', 'u', '0', '0'] ++ Text.hexPair c.toNat
  else [c]

/-- A text as a string literal. -/
def quote (t : Text) : Text :=
  '"' :: t.flatMap escape ++ ['"']

/-- A line end and the indentation of the line after it. -/
def newLine (indent : Nat) : Text :=
  '\n' :: List.replicate indent ' '

mutual

/-- Writes a value whose first line is indented by `indent` spaces. -/
def render (indent : Nat) : Json → Written
  | .bool b => .ofText (if b then "true".toList else "false".toList)
  | .number n => .ofText (Nat.repr n).toList
  | .text t => .ofText (quote t)
  | .unreadable => ⟨[], false⟩
  | .array [] => .ofText ['[', ']']
  | .array (j :: rest) =>
    .ofText ('[' :: newLine (indent + 2)) ++ render (indent + 2) j ++
      renderItems (indent + 2) rest ++ .ofText (newLine indent ++ [']'])
  | .object [] => .ofText ['\x7b', '\x7d']
  | .object ((name, j) :: rest) =>
    .ofText ('\x7b' :: newLine (indent + 2) ++ quote name ++ [':', ' ']) ++
      render (indent + 2) j ++ renderFields (indent + 2) rest ++
      .ofText (newLine indent ++ ['\x7d'])

/-- Writes the items of an array after the first. -/
def renderItems (indent : Nat) : List Json → Written
  | [] => .ofText []
  | j :: rest =>
    .ofText (',' :: newLine indent) ++ render indent j ++ renderItems indent rest

/-- Writes the fields of an object after the first. -/
def renderFields (indent : Nat) : List (Text × Json) → Written
  | [] => .ofText []
  | (name, j) :: rest =>
    .ofText (',' :: newLine indent ++ quote name ++ [':', ' ']) ++ render indent j ++
      renderFields indent rest

end

end LogGuard.Json
