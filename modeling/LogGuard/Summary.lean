import LogGuard.Path.Basic

/-!
# The summary of a run

Counters and results for each file of one run over the configured directories.
-/

namespace LogGuard

/-- A file that could not be processed, and why. -/
structure FileFailure where
  path : Path
  message : String
  deriving DecidableEq, Repr

/-- What a run has done. -/
structure Summary where
  /-- Whether files are only examined. The counters then tell what would be done. -/
  dryRun : Bool
  filesProcessed : Nat := 0
  filesModified : Nat := 0
  filesErrored : Nat := 0
  /-- The number of calls replaced in all modified files. -/
  callsReplaced : Nat := 0
  /-- The root-relative paths of the modified files in the order of the visits. -/
  modified : List Path := []
  /-- The files that could not be processed in the order of the visits. -/
  failures : List FileFailure := []
  /-- The configured directories that do not exist. -/
  missingDirs : List Path := []
  deriving DecidableEq, Repr

end LogGuard
