import LogGuard.Glob.Match
import LogGuard.Path.Extension
import LogGuard.Text.Quoted

/-!
# Settings

Which files a run looks at and where the safe functions come from (`Settings`). `Settings.ofRaw`
checks the values that a configuration gives and supplies the defaults for those it does not.
-/

namespace LogGuard

/-- A pattern for paths that are left out. -/
structure Exclusion where
  pattern : Text
  tokens : List Glob.Token
  deriving DecidableEq, Repr

/-- The checked settings of a run. -/
structure Settings where
  /-- The directory from which the depth of files is measured. -/
  root : Path
  /-- The directories to scan, relative to the root, in order. -/
  dirs : List Path
  /-- The extensions of the files to look at, without the dot. -/
  extensions : List Text
  /-- The module of the safe functions, relative to the root and without extension. -/
  safetyModule : Text
  /-- The files to leave out. -/
  exclude : List Exclusion
  deriving DecidableEq, Repr

/-- Why settings are refused. -/
inductive SettingsError where
  | noExtensions
  /-- The safety module is empty or starts at the root of the file system. -/
  | notRelative (module : Text)
  /-- The safety module has segments that name no entry. -/
  | dotSegments (module : Text)
  | badPattern (pattern : Text) (cause : Glob.PatternError)
  deriving DecidableEq, Repr

/-- What a user is told, the outermost cause first. -/
def SettingsError.causes : SettingsError → List String
  | .noExtensions => ["extensions must name at least one file extension"]
  | .notRelative module =>
    ["safety_module must be a root-relative path: " ++ String.ofList (Text.quoted module)]
  | .dotSegments module =>
    ["safety_module must not contain '.' or '..' segments: " ++
      String.ofList (Text.quoted module)]
  | .badPattern pattern cause =>
    ["invalid exclude pattern: " ++ String.ofList pattern, cause.message]

/-- The values that a configuration gives. -/
structure RawSettings where
  root : Option Text := none
  dirs : Option (List Text) := none
  extensions : Option (List Text) := none
  safetyModule : Option Text := none
  exclude : Option (List Text) := none
  deriving DecidableEq, Repr

namespace Settings

/-- The root if none is given. -/
def defaultRoot : Text := "saknew_frontend".toList

/-- The directories if none are given. -/
def defaultDirs : List Text :=
  ["services", "screens", "components", "utils", "context"].map String.toList

/-- The extensions if none are given. -/
def defaultExtensions : List Text :=
  ["ts", "tsx"].map String.toList

/-- The safety module if none is given. -/
def defaultSafetyModule : Text := "utils/securityUtils".toList

/-- A text as a path. -/
def path (t : Text) : Path :=
  .ofString (String.ofList t)

/-- Extensions without their leading dots; those that are nothing but dots are dropped. -/
def trimExtensions (extensions : List Text) : List Text :=
  (extensions.map (List.dropWhile (· == '.'))).filter fun e => !e.isEmpty

/-- Checks that a safety module is a path below the root without dot segments. -/
def checkModule (module : Text) : Except SettingsError Unit :=
  if module.isEmpty || (path module).isAbsolute then .error (.notRelative module)
  else if (path module).components.all fun c => c matches .normal _ then .ok ()
  else .error (.dotSegments module)

/-- Reads the patterns of files to leave out. -/
def readExclusions : List Text → Except SettingsError (List Exclusion)
  | [] => .ok []
  | pattern :: rest =>
    match Glob.parse pattern with
    | .error e => .error (.badPattern pattern e)
    | .ok tokens => (readExclusions rest).map (⟨pattern, tokens⟩ :: ·)

/-- The settings that a configuration gives. A relative root is seen from the directory `base`. -/
def ofRaw (raw : RawSettings) (base : Path) : Except SettingsError Settings := do
  let root := base.join (path (raw.root.getD defaultRoot))
  let dirs := (raw.dirs.getD defaultDirs).map path
  let extensions := trimExtensions (raw.extensions.getD defaultExtensions)
  if extensions.isEmpty then throw .noExtensions
  let safetyModule := raw.safetyModule.getD defaultSafetyModule
  checkModule safetyModule
  let exclude ← readExclusions (raw.exclude.getD [])
  pure { root, dirs, extensions, safetyModule, exclude }

/-- The name that marks a text as importing the safety module: what follows the last separator. -/
def moduleName (s : Settings) : Text :=
  (s.safetyModule.splitOn '/').getLastD s.safetyModule

/-- Whether files with an extension are looked at. -/
def hasExtension (s : Settings) (extension : Text) : Bool :=
  s.extensions.contains extension

/-- Whether a file is looked at for its extension. -/
def accepts (s : Settings) (p : Path) : Bool :=
  match p.extension?.bind fun e => Path.toString? ⟨e⟩ with
  | some extension => s.hasExtension extension.toList
  | none => false

/-- Whether a root-relative path leads to the source of the safety module. -/
def isSafetyModule (s : Settings) (p : Path) : Bool :=
  p.withoutExtension.same (path s.safetyModule) && s.accepts p

/-- Whether a root-relative path is left out. -/
def isExcluded (s : Settings) (p : Path) : Bool :=
  s.exclude.any fun e => Glob.matchesPath e.tokens p

end Settings

end LogGuard
