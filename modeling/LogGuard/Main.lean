import LogGuard.FileSystem.Edit
import LogGuard.FileSystem.Snapshot
import LogGuard.Program

/-!
# Entry point

`main` copies the files that a run can look at into a `FileSystem`, runs the program on it, and
carries out what has changed. Everything else is decided by `Program.run`.

The permission bits of a file cannot be asked for here, so the copy has those that opening the file
shows (`Entry.copyFile`). A file that has changed is replaced like in `FileSystem.replace`: a
temporary file next to it is filled and renamed (`Entry.replaceFile`).
-/

namespace LogGuard.Entry

/-! ## Copying files -/

/-- A file system without files whose working directory is that of the process. -/
def emptyHere : IO FileSystem := do
  let cwd := Path.ofString (← IO.currentDir).toString
  pure (.withWorkingDirectory ((FileSystem.segments cwd).filter fun name => !name.isEmpty))

/-- The outcome of an edit, or the file system as it was. -/
def edited (fs : FileSystem) (outcome : Except IoError FileSystem) : FileSystem :=
  outcome.toOption.getD fs

/-- Whether a file can be opened for writing, which leaves it as it is. -/
def canWrite (path : String) : IO Bool := do
  try IO.FS.withFile path .readWrite fun _ => pure true
  catch _ => pure false

/-- Copies a file. The permission bits of the copy say whether its owner can read and write it. A
file that cannot be read is there without its content, so that a run meets it and reports it. -/
def copyFile (fs : FileSystem) (path : String) : IO FileSystem := do
  let (content, mode) ←
    try
      let content ← IO.FS.readBinFile path
      pure (content, if ← canWrite path then 0o644 else 0o444)
    catch _ => pure (.empty, 0o200)
  pure (edited fs (fs.writeFile (.ofString path) content mode))

/-- Creates the directory that a path leads to. -/
def copyName (fs : FileSystem) (path : String) : FileSystem :=
  edited fs (fs.makeDirectories (.ofString path))

/-- The kind of what a path leads to, if it leads somewhere. -/
def kindAt (path : String) : IO (Option IO.FS.FileType) := do
  try pure (some (← (← IO.FS.realPath path).metadata).type)
  catch _ => pure none

/-- The kind of an entry, which may be a link, unless it is gone. -/
def kindOf (entry : IO.FS.DirEntry) : IO (Option IO.FS.FileType) := do
  try pure (some (← entry.path.symlinkMetadata).type)
  catch _ => pure none

/-- The entries of a directory, none if it cannot be read. -/
def entriesAt (path : String) : IO (Array IO.FS.DirEntry) := do
  try (← IO.FS.realPath path).readDir
  catch _ => pure #[]

/-- Copies a directory with all files below it. Links are left out, as no walk follows them. -/
partial def copyDirectory (fs : FileSystem) (path : String) : IO FileSystem := do
  let mut fs := copyName fs path
  for entry in ← entriesAt path do
    let below := path ++ "/" ++ entry.fileName
    match ← kindOf entry with
    | some .dir => fs ← copyDirectory fs below
    | some .file => fs ← copyFile fs below
    | _ => pure ()
  pure fs

/-- Copies the file of the settings. A directory in its place is copied by its name. -/
def copySettings (fs : FileSystem) (path : String) : IO FileSystem := do
  match ← kindAt path with
  | some .file => copyFile fs path
  | some .dir => pure (copyName fs path)
  | _ => pure fs

/-- Copies a directory of the settings if there is one. -/
def copyConfigured (fs : FileSystem) (path : String) : IO FileSystem := do
  match ← kindAt path with
  | some .dir => copyDirectory fs path
  | _ => pure fs

/-- Copies what a task can look at: the file of the settings and the configured directories. -/
def copyFor (task : Task) (fs : FileSystem) : IO FileSystem := do
  let fs ← copySettings fs (task.config.getD Settings.defaultFile).display
  match (Settings.load fs task.config).1 with
  | .error _ => pure fs
  | .ok settings =>
    settings.dirs.foldlM (fun fs dir => copyConfigured fs (settings.root.join dir).display) fs

/-- The files that a command line is run on. -/
def filesFor (words : List String) : IO FileSystem := do
  let fs ← emptyHere
  match Command.read words with
  | .error _ => pure fs
  | .ok invocation => copyFor invocation.task fs

/-! ## Replacing files -/

/-- What the lowest three bits of a number allow. -/
def accessOf (bits : Nat) : IO.AccessRight :=
  ⟨bits.testBit 2, bits.testBit 1, bits.testBit 0⟩

/-- What permission bits allow. -/
def rightsOf (mode : Nat) : IO.FileRight :=
  ⟨accessOf (mode >>> 6), accessOf (mode >>> 3), accessOf mode⟩

/-- The characters of which the name of a temporary file is drawn. -/
def drawnFrom : List Char :=
  "ABCDEFGHIJKLMNOPQRSTUVWXYZabcdefghijklmnopqrstuvwxyz0123456789".toList

/-- A random name for a temporary file. -/
def drawName : IO String := do
  let bytes ← IO.getRandomBytes (USize.ofNat FileSystem.drawnLength)
  let drawn := bytes.toList.map fun byte => drawnFrom.getD (byte.toNat % drawnFrom.length) 'x'
  pure (Path.display ⟨FileSystem.tempPrefix⟩ ++ String.ofList drawn)

/-- How many names are drawn for a temporary file. -/
def maxDraws : Nat := 65536

/-- Creates a temporary file in a directory. A name that is taken is drawn again, at most as many
times as given. -/
def createTemp (directory : String) : Nat → IO (IO.FS.Handle × String)
  | 0 => throw (IO.userError ("no name for a temporary file in " ++ directory))
  | draws + 1 => do
    let temp := directory ++ "/" ++ (← drawName)
    try pure (← IO.FS.Handle.mk temp .writeNew, temp)
    catch
      | .alreadyExists .. => createTemp directory draws
      | e => throw e

/-- Replaces a file by one with the given content and permission bits, in one step. If it fails,
the temporary file is removed. -/
def replaceFile (path : Path) (content : ByteArray) (mode : Nat) : IO Unit := do
  let (handle, temp) ← createTemp (FileSystem.tempDirectory path).display maxDraws
  try
    IO.setAccessRights temp (rightsOf FileSystem.tempMode)
    handle.write content
    handle.flush
    IO.setAccessRights temp (rightsOf mode)
    IO.FS.rename temp path.display
  catch e =>
    IO.FS.removeFile temp
    throw e

/-- The files of a file system with their paths seen from the top. -/
def leaves (fs : FileSystem) : List (Path × Leaf) :=
  fs.root.leaves ⟨[Path.separator]⟩

/-- Replaces the files that have changed. -/
def writeChanges (before after : FileSystem) : IO Unit := do
  for (path, leaf) in FileSystem.changed (leaves before) (leaves after) do
    match leaf with
    | .file content mode => replaceFile path content mode
    | .link _ => pure ()

end LogGuard.Entry

open LogGuard in
/-- Runs the program on the files of the process. -/
def main (words : List String) : IO UInt32 := do
  let before ← Entry.filesFor words
  let finished := Program.run (← IO.getEnv "RUST_LOG") words before
  Entry.writeChanges before finished.files
  let stdout ← IO.getStdout
  stdout.write ⟨finished.stdout.printed.toArray⟩
  stdout.flush
  (← IO.getStderr).putStr finished.stderr
  pure finished.exitCode
