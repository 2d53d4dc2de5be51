import LogGuard.Command.Execution
import LogGuard.Command.Help

/-!
# The program

`Program.run` maps a command line and a file system to what the user sees: an exit code, two streams
of text and the changed file system. It takes the wish for a level of detail that the environment
expresses, which counts more than the one of the command line.
-/

namespace LogGuard.Program

/-- What a run of the program has led to. -/
structure Finished where
  /-- 0 for success, 1 for a task that failed, 2 for a refused command line. -/
  exitCode : UInt32
  stdout : Output
  stderr : String
  files : FileSystem

/-- The detail that a word asks for. No word asks for errors only, and an unknown one for nothing.
-/
def detailNamed (word : String) : Nat :=
  match word with
  | "" => Level.error.detail
  | "error" => Level.error.detail
  | "warn" => Level.warn.detail
  | "info" => Level.info.detail
  | "debug" => Level.debug.detail
  | "trace" => Level.trace.detail
  | _ => 0

/-- The detail that is shown. -/
def shownDetail (wish : Option String) (verbosity : Nat) : Nat :=
  match wish, verbosity with
  | some word, _ => detailNamed word
  | none, 0 => Level.info.detail
  | none, 1 => Level.debug.detail
  | none, _ => Level.trace.detail

/-- The lines of the events up to a level of detail. -/
def logText (detail : Nat) (log : List Event) : String :=
  Command.lines ((log.filter fun e => e.level.detail ≤ detail).map Event.line)

/-- A text whose lines after the first are indented. -/
def hanging (indent : String) (s : String) : String :=
  String.ofList (s.toList.flatMap fun c => if c == '\n' then c :: indent.toList else [c])

/-- The causes of an error below the outermost one. Several causes are numbered. -/
def causesText : List String → String
  | [] => ""
  | [cause] => "\nCaused by:\n    " ++ hanging "    " cause ++ "\n"
  | causes =>
    "\nCaused by:\n" ++ Command.lines (causes.zipIdx.map fun (cause, i) =>
      "    " ++ i.repr ++ ": " ++ hanging "       " cause)

/-- An error with its causes, the outermost first. -/
def errorText : List String → String
  | [] => ""
  | outermost :: causes => "Error: " ++ outermost ++ "\n" ++ causesText causes

/-- What the user sees of an executed task. -/
def finish (detail : Nat) (executed : Executed) : Finished :=
  let log := logText detail executed.log
  match executed.result with
  | .ok () => ⟨0, executed.output, log, executed.files⟩
  | .error e => ⟨1, executed.output, log ++ errorText e.causes, executed.files⟩

/-- What the user sees in place of a run. -/
def answer (reply : Command.Reply) (fs : FileSystem) : Finished :=
  match reply with
  | .help topic => ⟨0, Output.print {} topic.text, "", fs⟩
  | .version => ⟨0, Output.print {} Command.versionText, "", fs⟩
  | .refusal .noWords => ⟨2, {}, Command.Topic.program.text, fs⟩
  | .refusal e => ⟨2, {}, "error: " ++ e.message ++ "\n", fs⟩

/-- Runs the program with the words of a command line after its name. -/
def run (wish : Option String) (words : List String) (fs : FileSystem) : Finished :=
  match Command.read words with
  | .error reply => answer reply fs
  | .ok ⟨verbosity, task⟩ =>
    finish (shownDetail wish verbosity) (task.execute FileSystem.replace fs {})

end LogGuard.Program
