import LogGuard.FileSystem.Resolve
import LogGuard.Path.Quoted

/-!
# Replacing files

`FileSystem.replace` gives a path new content in one step: the content is written to a temporary
file in the same directory, which gets the permission bits of the file that the path leads to and is
then renamed. A link at the path is replaced, its target is not touched. The stages are functions of
their own: `createTemp`, `fillTemp`, `copyMode` and `rename`. Files may be created, renamed and
removed in every directory, whatever its permission bits are.
-/

namespace LogGuard

/-- What went wrong with a temporary file, whose path a user is told as well. -/
structure TempError where
  cause : IoError
  temp : Path
  deriving DecidableEq, Repr

/-- What a user is told. -/
def TempError.message (e : TempError) : String :=
  e.cause.message ++ " at path " ++ e.temp.quoted

/-- Why a file was not replaced. -/
inductive ReplaceError where
  /-- No temporary file could be created in the directory. -/
  | notCreated (directory : Path) (cause : TempError)
  /-- The temporary file could not be filled. -/
  | notWritten (path : Path) (cause : TempError)
  /-- The temporary file could not be flushed. -/
  | notSynced (path : Path) (cause : IoError)
  /-- The permission bits could not be copied. -/
  | modeNotCopied (path : Path) (cause : IoError)
  /-- The temporary file could not be renamed. -/
  | notRenamed (path : Path) (cause : IoError)
  deriving DecidableEq, Repr

/-- What a user is told, the outermost cause first. -/
def ReplaceError.causes : ReplaceError → List String
  | .notCreated directory cause =>
    ["failed to create temp file in " ++ directory.display, cause.message]
  | .notWritten path cause => ["failed to write temp file for " ++ path.display, cause.message]
  | .notSynced path cause => ["failed to sync temp file for " ++ path.display, cause.message]
  | .modeNotCopied path cause => ["failed to copy permissions of " ++ path.display, cause.message]
  | .notRenamed path cause =>
    ["failed to replace " ++ path.display,
      "failed to persist temporary file: " ++ cause.message, cause.message]

namespace FileSystem

/-- The directory in which the temporary file for a path is created. -/
def tempDirectory (p : Path) : Path :=
  match p.parent? with
  | some parent => if parent.bytes.isEmpty then ⟨[Path.dot]⟩ else parent
  | none => ⟨[Path.dot]⟩

/-- What the name of a temporary file begins with. -/
def tempPrefix : Segment :=
  ".tmp".toByteArray.data.toList

/-- The number of bytes that are drawn at random for the name of a temporary file. -/
def drawnLength : Nat := 6

/-- A name for a temporary file that is longer than all given names. It stands for the random name
of the file, which is drawn again as long as there is a file of that name. -/
def freshName (taken : List Segment) : Segment :=
  tempPrefix ++ List.replicate ((taken.map List.length).foldr max drawnLength) 0x78

/-- The permission bits of a new temporary file. -/
def tempMode : Nat := 0o600

/-- The number of bytes of the name of a temporary file. -/
def tempNameLength : Nat :=
  tempPrefix.length + drawnLength

/-- The absolute path of the working directory. -/
def workingDirectory (fs : FileSystem) : Path :=
  ⟨Path.separator :: [Path.separator].intercalate fs.cwd⟩

/-- Whether the absolute path of a temporary file in a directory is short enough to be followed. -/
def fitsTemp (fs : FileSystem) (directory : Path) : Bool :=
  (fs.workingDirectory.join directory).bytes.length + 1 + tempNameLength ≤ maxPath

/-- What is told of a temporary file that could not be created in a directory. -/
def tempError (fs : FileSystem) (directory : Path) (cause : IoError) : TempError :=
  ⟨cause, (fs.workingDirectory.join directory).join ⟨freshName []⟩⟩

/-- The names for which a path looks in vain: its own and that to which a link at its end leads. -/
def soughtNames (fs : FileSystem) (p : Path) : List Segment :=
  [false, true].filterMap fun followLast => (fs.arrive followLast p).missing?

/-- Creates an empty temporary file in a directory, whatever the permission bits of that are. Its
name is new in the directory and not one of the names `taken`. The result is its location. -/
def createTemp (fs : FileSystem) (directory : Path) (taken : List Segment) :
    Except TempError (FileSystem × Location) :=
  if !fs.fitsTemp directory then .error (fs.tempError directory .nameTooLong)
  else
    match fs.locate directory with
    | .error e => .error (fs.tempError directory e)
    | .ok location =>
      match fs.root.get? location with
      | some (.directory _ entries) =>
        let temp := location ++ [freshName (taken ++ entries.map Prod.fst)]
        .ok ({ fs with root := fs.root.put temp (.file .empty tempMode) }, temp)
      | _ => .error (fs.tempError directory .notDirectory)

/-- Writes the content of a temporary file. -/
def fillTemp (fs : FileSystem) (temp : Location) (content : ByteArray) : FileSystem :=
  { fs with root := fs.root.put temp (.file content tempMode) }

/-- The permission bits of the node that a path leads to. -/
def mode? (fs : FileSystem) (p : Path) : Option Nat :=
  match fs.node p with
  | .ok (.file _ mode) => some mode
  | .ok (.directory mode _) => some mode
  | _ => none

/-- Gives the file at a location the permission bits of the node that a path leads to. -/
def copyMode (fs : FileSystem) (p : Path) (location : Location) : FileSystem :=
  match fs.mode? p with
  | none => fs
  | some mode =>
    let change
      | some (.file content _) => some (.file content mode)
      | other => other
    { fs with root := fs.root.alter location change }

/-- Where a file that is renamed to a path comes to stand. Links on the way are followed, a link at
the end is not; a path that ends with a separator, a dot or two dots names no file. A path with a
zero byte is no argument that a renaming takes. -/
def renameTarget (fs : FileSystem) (p : Path) : Except IoError Location :=
  match pathError? p with
  | some .zeroByte => .error .invalidArgument
  | some e => .error e
  | none =>
    let path := ((segments p).reverse.dropWhile List.isEmpty).reverse
    match path.getLast? with
    | none => .error .busy
    | some name =>
      match follow fs.root true maxLinks (origin fs.cwd p) (path.dropLast ++ [[]]) with
      | .failed e => .error e
      | .absent .. => .error .notFound
      | .link .. => .error .tooManyLinks
      | .reached directory =>
        if Path.isVoid name || name == [Path.dot, Path.dot] then .error .busy
        else if maxName < name.length then .error .nameTooLong
        else if p.bytes.getLast? == some Path.separator then .error .notDirectory
        else if (fs.root.get? (directory ++ [name])).any Node.isDirectory then .error .isDirectory
        else .ok (directory ++ [name])

/-- Moves the file at a location to a path, where it takes the place of what is there, whatever the
permission bits of the two directories are. -/
def rename (fs : FileSystem) (location : Location) (p : Path) : Except IoError FileSystem :=
  match fs.renameTarget p, fs.root.get? location with
  | .error e, _ => .error e
  | .ok _, none => .error .notFound
  | .ok target, some n => .ok { fs with root := (fs.root.erase location).put target n }

/-- Replaces what a path names by a file with the given content. If it fails, the file system is as
it was: the temporary file is removed, after a failed renaming together with the error that holds
it. -/
def replace (fs : FileSystem) (p : Path) (content : ByteArray) :
    Except ReplaceError FileSystem :=
  let directory := tempDirectory p
  match fs.createTemp directory (fs.soughtNames p) with
  | .error e => .error (.notCreated directory e)
  | .ok (created, temp) =>
    let filled := created.fillTemp temp content
    match (filled.copyMode p temp).rename temp p with
    | .error e => .error (.notRenamed p e)
    | .ok renamed => .ok renamed

end FileSystem

end LogGuard
