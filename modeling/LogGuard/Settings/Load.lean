import LogGuard.Event
import LogGuard.FileSystem.Resolve
import LogGuard.Settings.Decode

/-!
# Loading settings

`Settings.load` reads the settings from a given file, which has to exist, or from the default file
of the working directory, without which the defaults hold.
-/

namespace LogGuard

/-- Why settings were not loaded. -/
inductive LoadError where
  | unreadable (path : Path) (cause : IoError)
  /-- The file is no TOML document, or a setting is of the wrong kind. -/
  | malformed (path : Path)
  /-- The document has no table of settings. -/
  | noTable (path : Path)
  | refused (cause : SettingsError)
  deriving DecidableEq, Repr

/-- What a user is told, the outermost cause first. -/
def LoadError.causes : LoadError → List String
  | .unreadable path cause => ["failed to read " ++ path.display, cause.message]
  | .malformed path => ["failed to parse " ++ path.display, "TOML parse error"]
  | .noTable path => ["[safe_log_fixer] not found in " ++ path.display]
  | .refused cause => cause.causes

namespace Settings

/-- The file that is read if no other is given. -/
def defaultFile : Path := .ofString "safe-log-fixer.toml"

/-- Checks settings and supplies the defaults. -/
def build (raw : RawSettings) (base : Path) : Except LoadError Settings :=
  (ofRaw raw base).mapError .refused

/-- Loads the settings from a file. A relative root is seen from the directory of the file. -/
def loadFile (fs : FileSystem) (file : Path) : Except LoadError Settings :=
  match fs.readText file with
  | .error e => .error (.unreadable file e)
  | .ok document =>
    match decode document.toList with
    | .malformed => .error (.malformed file)
    | .absent => .error (.noTable file)
    | .found raw => build raw (file.parent?.getD ⟨[]⟩)

/-- Loads the settings from the given file or from the default one. -/
def load (fs : FileSystem) (file? : Option Path) : Except LoadError Settings × List Event :=
  match file? with
  | some file => (loadFile fs file, [])
  | none =>
    if fs.exists? defaultFile then (loadFile fs defaultFile, [])
    else
      (build {} ⟨[]⟩,
        [⟨.debug, defaultFile.display ++ " not found, using built-in defaults", []⟩])

end Settings

end LogGuard
