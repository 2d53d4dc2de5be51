import LogGuard.Run.File

/-!
# Tasks

A task says what is to be done with the files, where the settings come from, how the result is
reported and when it counts as a failure.
-/

namespace LogGuard

/-- What the program is to do. -/
structure Task where
  /-- Whether the files are changed (`fix`) or only examined (`check`). -/
  mode : RunMode
  /-- The file of the settings, if one is named. -/
  config : Option Path := none
  /-- Whether the task fails if files could not be processed or, when they are only examined, have
  calls left to replace. -/
  strict : Bool := false
  /-- Whether the report is a JSON document that stands alone. -/
  json : Bool := false
  deriving DecidableEq, Repr

end LogGuard
