import LogGuard.Event
import LogGuard.FileSystem.Replace
import LogGuard.Import.Resolver
import LogGuard.Sanitize
import LogGuard.Settings.Basic

/-!
# Processing one file

`Run.file` reads a file, sanitises its text and, unless files are only examined, replaces it.
Whatever goes wrong is an outcome of its own. How files are replaced is a parameter (`Replacer`), so
that runs can be studied in which it fails.
-/

namespace LogGuard

/-- What a run does with the files that it finds to be changed. -/
inductive RunMode where
  /-- Files are changed. -/
  | fix
  /-- Files are only examined. -/
  | check
  deriving DecidableEq, Repr

/-- A way of giving a path new content. -/
abbrev Replacer := FileSystem → Path → ByteArray → Except ReplaceError FileSystem

/-- Why a file was not processed. -/
inductive FileError where
  | unreadable (path : Path) (cause : IoError)
  /-- There is no import for the file. -/
  | unresolved (cause : Import.ResolveError)
  | notReplaced (cause : ReplaceError)
  deriving DecidableEq, Repr

namespace FileError

/-- What a user is told, the outermost cause first. -/
def causes : FileError → List String
  | .unreadable path cause => ["failed to read " ++ path.display, cause.message]
  | .unresolved cause => [cause.message]
  | .notReplaced cause => cause.causes

/-- All causes on one line. -/
def message (e : FileError) : String :=
  ": ".intercalate e.causes

end FileError

/-- What became of a file. -/
inductive Outcome where
  /-- The file was, or would be, changed. -/
  | modified (calls : Nat) (status : ImportStatus)
  /-- The file has no call to replace. -/
  | clean
  /-- Sanitising left the text as it was. -/
  | unchanged
  | failed (e : FileError)
  deriving DecidableEq, Repr

/-- What processing a file has led to. -/
structure Processed where
  outcome : Outcome
  files : FileSystem
  log : List Event

namespace Run

/-- An event about a file. -/
def fileEvent (level : Level) (message : String) (path : Path) : Event :=
  ⟨level, message, [("file", path.display)]⟩

/-- The computation of the declaration to insert into a file, which tells how deep the file lies. -/
def declaration (settings : Settings) (path : Path) :
    ExceptT Import.ResolveError (StateM (List Event)) Text :=
  match Import.locate settings.root path with
  | .error e => throw e
  | .ok (rel, depth) => do
    modify (· ++ [⟨.trace, "resolved import depth",
      [("file", rel.display), ("depth", depth.repr)]⟩])
    pure (Import.declarationText (Import.specifier depth settings.safetyModule))

/-- The sanitised text of a file, with what was told on the way. -/
def sanitizeFile (settings : Settings) (path : Path) (t : Text) :
    Except Import.ResolveError Sanitized × List Event :=
  (sanitize settings.moduleName t (declaration settings path)).run.run []

/-- The bytes of a text. -/
def encode (t : Text) : ByteArray :=
  (String.ofList t).toByteArray

/-- Puts a sanitised text in place of a file. -/
def writeBack (replace : Replacer) (mode : RunMode) (path : Path) (s : Sanitized)
    (log : List Event) (fs : FileSystem) : Processed :=
  let modified : Outcome := .modified s.calls s.status
  let log :=
    if s.status = .unanchored then
      log ++ [fileEvent .debug "no import declaration found, import not added" path]
    else log
  match mode with
  | .check => ⟨modified, fs, log ++ [fileEvent .debug "dry-run: not writing" path]⟩
  | .fix =>
    match replace fs path (encode s.text) with
    | .ok fs => ⟨modified, fs, log⟩
    | .error e => ⟨.failed (.notReplaced e), fs, log⟩

/-- Processes a file whose text is known. -/
def processText (replace : Replacer) (settings : Settings) (mode : RunMode) (path : Path)
    (t : Text) (fs : FileSystem) : Processed :=
  if !Call.occursIn t then
    ⟨.clean, fs, [fileEvent .trace "no unsafe logging calls" path]⟩
  else
    match sanitizeFile settings path t with
    | (.error e, log) => ⟨.failed (.unresolved e), fs, log⟩
    | (.ok s, log) =>
      if s.text == t then
        ⟨.unchanged, fs, log ++ [fileEvent .debug "rewrite produced identical text" path]⟩
      else writeBack replace mode path s log fs

/-- Reads, sanitises and, unless files are only examined, replaces a file. -/
def file (replace : Replacer) (settings : Settings) (mode : RunMode) (path : Path)
    (fs : FileSystem) : Processed :=
  match fs.readText path with
  | .error e => ⟨.failed (.unreadable path e), fs, []⟩
  | .ok s => processText replace settings mode path s.toList fs

end Run

end LogGuard
