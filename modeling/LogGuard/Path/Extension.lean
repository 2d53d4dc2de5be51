import LogGuard.Path.Basic

/-!
# File extensions

The extension of a file name is what follows its last dot, unless that dot is the first character.
`Path.withoutExtension` cuts the extension off the last name of a path.
-/

namespace LogGuard.Path

/-- A file name divided at its last dot into stem and extension. -/
def splitExtension (name : Segment) : Segment × Option Segment :=
  let notDot := fun b => b != dot
  match name.reverse.dropWhile notDot with
  | [] => (name, none)
  | [_] => (name, none)
  | _ :: stem => (stem.reverse, some (name.reverse.takeWhile notDot).reverse)

/-- The extension of the last name. -/
def extension? (p : Path) : Option Segment :=
  p.fileName?.bind fun name => (splitExtension name).2

/-- The path up to the end of the stem of its last name. -/
def upToStem (p : Path) : Path :=
  match p.fileName? with
  | none => p
  | some name => ofParts p.head ((dropVoidEnd p.body).dropLast ++ [(splitExtension name).1])

/-- The path without the extension of its last name. As many bytes as the extension has are dropped
from the end of the path; then it is cut after the stem of the name that is last now. -/
def withoutExtension (p : Path) : Path :=
  match p.extension? with
  | none => p.upToStem
  | some extension => upToStem ⟨p.bytes.take (p.bytes.length - extension.length)⟩

end LogGuard.Path
