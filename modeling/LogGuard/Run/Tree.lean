import LogGuard.FileSystem.Walk
import LogGuard.Output
import LogGuard.Run.File
import LogGuard.Summary

/-!
# Processing the configured directories

`Run.tree` visits the configured directories in order and processes each candidate file once. The
state of a run (`Run.State`) holds the file system, the summary, what was printed and what was told.
A run goes on after a file that could not be processed and stops only when its output takes no more.
-/

namespace LogGuard.Run

/-- The state of a run between two visits. -/
structure State where
  files : FileSystem
  summary : Summary
  /-- The paths of the files that were processed. -/
  seen : List Path
  output : Output
  log : List Event

namespace State

/-- Adds events to the log. -/
def tell (st : State) (events : List Event) : State :=
  { st with log := st.log ++ events }

/-- Prints a line and goes on with `next` unless the output took no more. -/
def printing (st : State) (line : String) (next : State → State) : State :=
  let st := { st with output := st.output.printLine line }
  if st.output.failed then st else next st

end State

/-- The word for a changed file on its printed line. -/
def modifiedLabel : RunMode → String
  | .fix => "[OK] Modified"
  | .check => "[DRY-RUN] Would modify"

/-- The name of what became of an import. -/
def statusName : ImportStatus → String
  | .present => "AlreadyPresent"
  | .inserted => "Inserted"
  | .unanchored => "NoAnchor"

/-- Enters a changed file into the summary. -/
def recordModified (rel : Path) (calls : Nat) (status : ImportStatus) (st : State) : State :=
  { st with
    summary := { st.summary with
      filesModified := st.summary.filesModified + 1
      callsReplaced := st.summary.callsReplaced + calls
      modified := st.summary.modified ++ [rel] }
    log := st.log ++ [⟨.debug, "rewritten",
      [("file", rel.display), ("calls", calls.repr), ("import", statusName status)]⟩] }

/-- Enters a file that could not be processed into the summary. -/
def recordFailure (path : Path) (e : FileError) (st : State) : State :=
  { st with
    summary := { st.summary with
      filesErrored := st.summary.filesErrored + 1
      failures := st.summary.failures ++ [⟨path, e.message⟩] }
    log := st.log ++ [fileEvent .warn e.message path] }

/-- Prints and records what became of a file. -/
def record (mode : RunMode) (path rel : Path) (outcome : Outcome) (st : State) : State :=
  match outcome with
  | .modified calls status =>
    st.printing (modifiedLabel mode ++ ": " ++ rel.display) (recordModified rel calls status)
  | .clean => st
  | .unchanged => st
  | .failed e =>
    st.printing ("Error processing " ++ path.display ++ ": " ++ e.message) (recordFailure path e)

/-- The path of a visited file as the settings see it. -/
def relative (settings : Settings) (path : Path) : Path :=
  (Path.stripPrefix? settings.root path).getD path

/-- Visits a candidate file, which is processed unless the settings leave it out or it was processed
before. -/
def visit (replace : Replacer) (settings : Settings) (mode : RunMode) (st : State)
    (path : Path) : State :=
  let rel := relative settings path
  if settings.isExcluded rel then st.tell [fileEvent .trace "excluded" rel]
  else if settings.isSafetyModule rel then
    st.tell [fileEvent .debug "skipping the safety module itself" rel]
  else if st.seen.any path.same then st
  else
    let processed := file replace settings mode path st.files
    record mode path rel processed.outcome
      { st with
        files := processed.files
        seen := path :: st.seen
        summary := { st.summary with filesProcessed := st.summary.filesProcessed + 1 }
        log := st.log ++ processed.log }

/-- Visits files one after the other until the output takes no more. -/
def visitAll (replace : Replacer) (settings : Settings) (mode : RunMode) (st : State) :
    List Path → State
  | [] => st
  | path :: rest =>
    if st.output.failed then st
    else visitAll replace settings mode (visit replace settings mode st path) rest

/-- The candidate files that a walk has met. -/
def candidates (settings : Settings) (visits : List Visit) : List Path :=
  visits.filterMap fun
    | .file path => if settings.accepts path then some path else none
    | .unreadable .. => none

/-- What is told about directories below `dir` that could not be read. -/
def walkEvents (dir : Path) (visits : List Visit) : List Event :=
  visits.filterMap fun
    | .file _ => none
    | .unreadable path e =>
      some ⟨.warn, "skipping unreadable entry under " ++ dir.display ++
        ": IO error for operation on " ++ path.display ++ ": " ++ e.message, []⟩

/-- The candidate files below a directory. -/
def filesBelow (settings : Settings) (fs : FileSystem) (dir : Path) : List Path :=
  candidates settings (fs.walk dir)

/-- Enters a configured directory that does not exist into the summary. -/
def recordMissing (dir : Path) (st : State) : State :=
  { st with
    summary := { st.summary with missingDirs := st.summary.missingDirs ++ [dir] }
    log := st.log ++ [⟨.warn, "configured directory missing", [("dir", dir.display)]⟩] }

/-- Visits the candidate files below a configured directory. -/
def scan (replace : Replacer) (settings : Settings) (mode : RunMode) (st : State)
    (dir : Path) : State :=
  let path := settings.root.join dir
  if st.files.isDirectory path then
    let visits := st.files.walk path
    let told := ⟨.debug, "scanning", [("dir", path.display)]⟩ :: walkEvents path visits
    visitAll replace settings mode (st.tell told) (candidates settings visits)
  else
    st.printing ("Directory not found: " ++ path.display) (recordMissing path)

/-- Scans directories one after the other until the output takes no more. -/
def scanAll (replace : Replacer) (settings : Settings) (mode : RunMode) (st : State) :
    List Path → State
  | [] => st
  | dir :: rest =>
    if st.output.failed then st
    else scanAll replace settings mode (scan replace settings mode st dir) rest

/-- The state before the first visit. -/
def start (mode : RunMode) (fs : FileSystem) (output : Output) : State :=
  ⟨fs, { dryRun := mode == .check }, [], output, []⟩

/-- Tells the counters at the end of a run. -/
def finish (st : State) : State :=
  if st.output.failed then st
  else
    st.tell [⟨.info, "processed=" ++ st.summary.filesProcessed.repr ++ ", modified=" ++
      st.summary.filesModified.repr ++ ", errored=" ++ st.summary.filesErrored.repr, []⟩]

/-- Runs over all configured directories. The run is complete unless the output has failed. -/
def tree (replace : Replacer) (settings : Settings) (mode : RunMode) (fs : FileSystem)
    (output : Output) : State :=
  finish (scanAll replace settings mode (start mode fs output) settings.dirs)

end LogGuard.Run
