import LogGuard.Text.Basic

/-!
# Logging methods

The three console methods that write user data unfiltered, each with the sanitising function that
takes its place.
-/

namespace LogGuard.Call

/-- A console method that is not to be called directly. -/
inductive Method where
  | log
  | error
  | warn
  deriving DecidableEq, Repr

namespace Method

/-- All methods, in the order in which the safe functions are imported. -/
def all : List Method := [.log, .error, .warn]

/-- The name of the console method. -/
def name : Method → Text
  | .log => "log".toList
  | .error => "error".toList
  | .warn => "warn".toList

/-- The name of the sanitising function that replaces the method. -/
def safeName : Method → Text
  | .log => "safeLog".toList
  | .error => "safeError".toList
  | .warn => "safeWarn".toList

end Method

end LogGuard.Call
