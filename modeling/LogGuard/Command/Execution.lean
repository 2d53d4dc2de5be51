import LogGuard.Command.Task
import LogGuard.Report
import LogGuard.Run.Tree
import LogGuard.Settings.Load

/-!
# Executing a task

`Task.execute` loads the settings, runs over the configured directories, prints the report and
judges the result. A strict task fails over what its run leaves to be done (`Task.judge`); any other
fails only if its settings cannot be loaded or its output cannot be printed.
-/

namespace LogGuard

/-- Why a task failed. -/
inductive TaskError where
  | notLoaded (cause : LoadError)
  | notPrinted (cause : ReportError)
  /-- Files have calls left to replace or could not be processed. -/
  | callsRemain (modified errored : Nat)
  /-- Files could not be processed. -/
  | notProcessed (errored processed : Nat)
  deriving DecidableEq, Repr

/-- What a user is told, the outermost cause first. -/
def TaskError.causes : TaskError → List String
  | .notLoaded cause => "failed to load config" :: cause.causes
  | .notPrinted cause => cause.causes
  | .callsRemain modified errored =>
    ["unsafe logging calls remain in " ++ modified.repr ++ " files (" ++ errored.repr ++
      " errored)"]
  | .notProcessed errored processed =>
    [errored.repr ++ " of " ++ processed.repr ++ " files could not be processed"]

/-- What executing a task has led to. -/
structure Executed where
  result : Except TaskError Unit
  files : FileSystem
  output : Output
  log : List Event

namespace Task

/-- The event that opens a run. -/
def startEvent (task : Task) (settings : Settings) : Event :=
  let root := ("root", settings.root.display)
  match task.mode with
  | .fix => ⟨.info, "fix start", [root, ("dirs", settings.dirs.length.repr)]⟩
  | .check => ⟨.info, "check start (dry-run)", [root]⟩

/-- Whether the task has succeeded with a run that ended with the given summary. -/
def judge (task : Task) (s : Summary) : Except TaskError Unit :=
  if !task.strict then .ok ()
  else
    match task.mode with
    | .fix =>
      if s.filesErrored = 0 then .ok () else .error (.notProcessed s.filesErrored s.filesProcessed)
    | .check =>
      if s.filesModified = 0 ∧ s.filesErrored = 0 then .ok ()
      else .error (.callsRemain s.filesModified s.filesErrored)

/-- Prints the report in the form that the task asks for. -/
def print (task : Task) (s : Summary) (o : Output) : Output × Except ReportError Unit :=
  if task.json then Report.printJson s o else Report.printText s o

/-- Reports a run that is complete and judges it. -/
def conclude (task : Task) (st : Run.State) (output : Output) : Output × Except TaskError Unit :=
  match task.print st.summary output with
  | (output, .error e) => (output, .error (.notPrinted e))
  | (output, .ok ()) => (output, task.judge st.summary)

/-- Executes the task with known settings. If the report is a JSON document, what the run prints is
dropped. -/
def executeWith (replace : Replacer) (task : Task) (settings : Settings) (fs : FileSystem)
    (output : Output) : Executed :=
  let st := Run.tree replace settings task.mode fs (if task.json then {} else output)
  let log := task.startEvent settings :: st.log
  if st.output.failed then ⟨.error (.notPrinted .outputFull), st.files, st.output, log⟩
  else
    let (output, result) := task.conclude st (if task.json then output else st.output)
    ⟨result, st.files, output, log⟩

/-- Executes the task. -/
def execute (replace : Replacer) (task : Task) (fs : FileSystem) (output : Output) : Executed :=
  match Settings.load fs task.config with
  | (.error e, log) => ⟨.error (.notLoaded e), fs, output, log⟩
  | (.ok settings, log) =>
    let executed := task.executeWith replace settings fs output
    { executed with log := log ++ executed.log }

end Task

end LogGuard
