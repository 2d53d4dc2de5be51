import LogGuard.Import.Specifier
import LogGuard.Path.Basic

/-!
# The import for a file

The specifier of the safety module follows from where the file lies below the root: `Import.depth`
counts the directories between the two, and `Import.forFile` gives the declaration to insert
into a file.
-/

namespace LogGuard.Import

/-- Why there is no import for a file. -/
inductive ResolveError where
  /-- The file does not lie below the root. -/
  | outsideRoot (file root : Path)
  /-- The path climbs out of a directory or starts at the root of the file system. -/
  | notRootRelative (path : Path)
  /-- The path names no file. -/
  | emptyPath
  deriving DecidableEq, Repr

/-- What a user is told. -/
def ResolveError.message : ResolveError → String
  | .outsideRoot file root => file.display ++ " is outside of root " ++ root.display
  | .notRootRelative path => "not a root-relative path: " ++ path.display
  | .emptyPath => "empty relative path"

/-- A component that a root-relative path may have. -/
def isRootRelative : Component → Bool
  | .normal _ => true
  | .current => true
  | .root => false
  | .parent => false

/-- A component that names an entry. -/
def isNormal : Component → Bool
  | .normal _ => true
  | _ => false

/-- The number of directories between the root and the file at the root-relative path `path`. -/
def depth (path : Path) : Except ResolveError Nat :=
  if path.components.all isRootRelative then
    match path.components.countP isNormal with
    | 0 => .error .emptyPath
    | n + 1 => .ok n
  else .error (.notRootRelative path)

/-- The root-relative path of a file and its depth. -/
def locate (root file : Path) : Except ResolveError (Path × Nat) :=
  match Path.stripPrefix? root file with
  | none => .error (.outsideRoot file root)
  | some path => (depth path).map (path, ·)

/-- The declaration that imports the safe functions from `safetyModule` into `file`. -/
def forFile (root : Path) (safetyModule : Text) (file : Path) : Except ResolveError Text :=
  (locate root file).map fun (_, depth) => declarationText (specifier depth safetyModule)

end LogGuard.Import
