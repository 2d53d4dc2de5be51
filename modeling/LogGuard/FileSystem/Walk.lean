import LogGuard.FileSystem.Resolve

/-!
# Walking a directory

`FileSystem.walk` lists the regular files below a directory in depth-first order, where the entries
of each directory come in the order of the bytes of their names. Links below the directory are not
followed. A directory whose path is too long cannot be read; it is reported in place of its files.
No other directory is refused, whatever its permission bits are.
-/

namespace LogGuard

/-- Something met on a walk. -/
inductive Visit where
  /-- A regular file. -/
  | file (path : Path)
  /-- A directory that cannot be read. -/
  | unreadable (path : Path) (e : IoError)
  deriving DecidableEq, Repr

/-- Sorts by name and drops the names. -/
def Visit.inOrder (named : List (Segment × List Visit)) : List Visit :=
  (named.mergeSort fun a b => decide (a.1 ≤ b.1)).flatMap Prod.snd

mutual

/-- What a walk meets at the node with the given path. The permission bits of a directory do not
keep the walk out of it. -/
def Node.visits (path : Path) : Node → List Visit
  | .file .. => [.file path]
  | .link _ => []
  | .directory _ entries =>
    if FileSystem.maxPath < path.bytes.length then [.unreadable path .nameTooLong]
    else Visit.inOrder (Node.visitsBelow path entries)

/-- What a walk meets at each of the entries of the directory with the given path. -/
def Node.visitsBelow (path : Path) : List (Segment × Node) → List (Segment × List Visit)
  | [] => []
  | (name, child) :: rest =>
    (name, child.visits (path.join ⟨name⟩)) :: Node.visitsBelow path rest

end

/-- What a walk below a path meets, if the path leads to a directory. -/
def FileSystem.walk (fs : FileSystem) (p : Path) : List Visit :=
  match fs.node p with
  | .ok (.directory mode entries) => (Node.directory mode entries).visits p
  | _ => []

end LogGuard
