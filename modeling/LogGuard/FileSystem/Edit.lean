import LogGuard.FileSystem.Resolve

/-!
# Building file systems

Requests that build a file tree: creating directories, files and links, and removing an entry. Each
fails with the reason if it cannot be done.
-/

namespace LogGuard.FileSystem

/-- The permission bits of a new directory. -/
def directoryMode : Nat := 0o755

/-- A file system with an empty working directory below the given directories. -/
def withWorkingDirectory (cwd : Location) : FileSystem :=
  ⟨cwd.foldr (fun name below => .directory directoryMode [(name, below)])
    (.directory directoryMode []), cwd⟩

/-- Puts a node where a path leads to nothing yet. -/
def create (fs : FileSystem) (followLast : Bool) (p : Path) (n : Node) :
    Except IoError FileSystem :=
  match fs.arrive followLast p with
  | .absent parent name => .ok { fs with root := fs.root.put (parent ++ [name]) n }
  | .reached _ => .error .alreadyExists
  | .link .. => .error .tooManyLinks
  | .failed e => .error e

/-- Creates a directory unless there is one. -/
def makeDirectory (fs : FileSystem) (p : Path) : Except IoError FileSystem :=
  if fs.isDirectory p then .ok fs else fs.create false p (.directory directoryMode [])

/-- All paths on the way to a path, the shortest first, and the path itself. -/
def ancestors (p : Path) : List Path :=
  let path := segments p
  (List.range path.length).map fun i => ⟨[Path.separator].intercalate (path.take (i + 1))⟩

/-- Creates the directory at a path and those on the way that are missing. -/
def makeDirectories (fs : FileSystem) (p : Path) : Except IoError FileSystem :=
  ((ancestors p).filter fun p => !p.bytes.isEmpty).foldlM makeDirectory fs

/-- Creates the directories on the way to a path. -/
def makeParents (fs : FileSystem) (p : Path) : Except IoError FileSystem :=
  match p.parent? with
  | some parent => fs.makeDirectories parent
  | none => .ok fs

/-- Writes a file and sets its permission bits, through a link if there is one. A file that is there
has to let its owner write. -/
def writeFile (fs : FileSystem) (p : Path) (content : ByteArray) (mode : Nat) :
    Except IoError FileSystem := do
  let fs ← fs.makeParents p
  match fs.locate p with
  | .error .notFound => fs.create true p (.file content mode)
  | .error e => .error e
  | .ok location =>
    match fs.root.get? location with
    | some (.file _ present) =>
      if ownerWrites present then
        .ok { fs with root := fs.root.put location (.file content mode) }
      else .error .permissionDenied
    | _ => .error .isDirectory

/-- Creates a link at a path where nothing is. -/
def makeLink (fs : FileSystem) (p target : Path) : Except IoError FileSystem := do
  let fs ← fs.makeParents p
  fs.create false p (.link target)

/-- Removes the file or link at a path. -/
def removeFile (fs : FileSystem) (p : Path) : Except IoError FileSystem :=
  match fs.arrive false p with
  | .reached location =>
    if (fs.root.get? location).any Node.isDirectory then .error .isDirectory
    else .ok { fs with root := fs.root.erase location }
  | .absent .. => .error .notFound
  | .link .. => .error .tooManyLinks
  | .failed e => .error e

end LogGuard.FileSystem
