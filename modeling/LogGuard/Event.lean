import LogGuard.Text.Terminal

/-!
# Log events

What a run tells about its progress. An event is shown on one line, the level first, with its fields
after the message. Messages may quote what was read, so they are shown as for a terminal; the fields
are shown as they are.
-/

namespace LogGuard

/-- How important an event is, the most important first. -/
inductive Level where
  | error
  | warn
  | info
  | debug
  | trace
  deriving DecidableEq, Repr

namespace Level

/-- The level as a number that grows with detail. -/
def detail : Level → Nat
  | .error => 1
  | .warn => 2
  | .info => 3
  | .debug => 4
  | .trace => 5

/-- The level as it is shown, five columns wide. -/
def label : Level → String
  | .error => "ERROR"
  | .warn => " WARN"
  | .info => " INFO"
  | .debug => "DEBUG"
  | .trace => "TRACE"

end Level

/-- Something that happened during a run. -/
structure Event where
  level : Level
  message : String
  /-- Names and values in the order in which they are shown. -/
  fields : List (String × String) := []
  deriving DecidableEq, Repr

/-- The event as a line of the log. -/
def Event.line (e : Event) : String :=
  e.level.label ++ " " ++ String.ofList (Text.forTerminal e.message.toList) ++
    String.join (e.fields.map fun (name, value) => " " ++ name ++ "=" ++ value)

end LogGuard
