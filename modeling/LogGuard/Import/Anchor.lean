import LogGuard.Import.Declaration

/-!
# Where an import goes

A new import goes to the end of the line on which the last import declaration of the text ends. If
no declaration is recognised, it goes to the end of the last line that begins with `import` and a
space (`Import.anchor?`). `Import.insert?` puts a declaration on a line of its own there, ending the
line before it as the lines of the text end.
-/

namespace LogGuard.Import

/-- The text after the last import declaration that begins a line. Declarations are read as a whole
from left to right; `atLineStart` tells whether the text begins a line. -/
def afterLastDeclaration? (atLineStart : Bool) (t : Text) : Option Text :=
  match t with
  | [] => none
  | c :: tail =>
    match _h : if atLineStart then declaration? (c :: tail) else none with
    | none => afterLastDeclaration? (c == '\n') tail
    | some rest => afterLastDeclaration? false rest <|> some rest
  termination_by t.length
  decreasing_by
  · simp
  · split at _h
    · exact length_lt_of_declaration? _h
    · simp at _h

/-- The text from the last line that begins with `import` and a space. -/
def lastImportLine? (atLineStart : Bool) : Text → Option Text
  | [] => none
  | c :: tail =>
    lastImportLine? (c == '\n') tail <|>
      if atLineStart && "import ".toList.isPrefixOf (c :: tail) then some (c :: tail) else none

/-- The text from the end of the line after which an import is to be inserted. -/
def anchorTail? (t : Text) : Option Text :=
  (afterLastDeclaration? true t <|> lastImportLine? true t).map (List.dropWhile (· != '\n'))

/-- The text divided at the end of the line after which an import is to be inserted. -/
def anchor? (t : Text) : Option (Text × Text) :=
  (anchorTail? t).map fun tail => (t.take (t.length - tail.length), tail)

/-- The byte offset at which an import is to be inserted. -/
def anchorOffset? (t : Text) : Option Nat :=
  (anchor? t).map fun (head, _) => head.byteLength

/-- The text with `declaration` on a line of its own at the anchor. If the line before ends with a
carriage return, so does the inserted one. -/
def insert? (t declaration : Text) : Option Text :=
  (anchor? t).map fun (head, tail) =>
    if head.getLast? == some '\r' then
      head.dropLast ++ ['\r', '\n'] ++ declaration ++ '\r' :: tail
    else
      head ++ '\n' :: declaration ++ tail

end LogGuard.Import
