import LogGuard.Json.Printer
import LogGuard.Output
import LogGuard.Summary

/-!
# Reports

A summary is reported as a block of text (`Report.text`) or as a JSON document (`Report.json`).
`Report.printText` and `Report.printJson` print one and tell what went wrong.
-/

namespace LogGuard

/-- Why a report was not printed to its end. -/
inductive ReportError where
  /-- The output took no more. -/
  | outputFull
  /-- The output took no more while the document was being written. -/
  | documentCut
  /-- A path cannot be written because it is not UTF-8. -/
  | unreadablePath
  deriving DecidableEq, Repr

/-- What a user is told, the outermost cause first. -/
def ReportError.causes : ReportError → List String
  | .outputFull => ["out full"]
  | .documentCut => ["failed to serialize summary", "out full"]
  | .unreadablePath =>
    ["failed to serialize summary", "path contains invalid UTF-8 characters"]

namespace Report

/-- The line that frames the text report. -/
def banner : String :=
  String.ofList (List.replicate 60 '-')

/-- The report as a block of text. -/
def text (s : Summary) : String :=
  let label := if s.dryRun then "Files to modify" else "Files modified"
  "\n" ++ banner ++ "\n" ++
    "Files processed: " ++ s.filesProcessed.repr ++ "\n" ++
    label ++ ": " ++ s.filesModified.repr ++ "\n" ++
    "Files with errors: " ++ s.filesErrored.repr ++ "\n" ++
    banner ++ "\n"

/-- A path as a JSON text, if it can be written. -/
def jsonPath (p : Path) : Json :=
  match p.toString? with
  | some s => .text s.toList
  | none => .unreadable

/-- A failure as a JSON object. -/
def jsonFailure (f : FileFailure) : Json :=
  .object [("path".toList, jsonPath f.path), ("message".toList, .text f.message.toList)]

/-- The report as a JSON document. -/
def json (s : Summary) : Json :=
  .object [
    ("dry_run".toList, .bool s.dryRun),
    ("files_processed".toList, .number s.filesProcessed),
    ("files_modified".toList, .number s.filesModified),
    ("files_errored".toList, .number s.filesErrored),
    ("calls_rewritten".toList, .number s.callsReplaced),
    ("modified".toList, .array (s.modified.map jsonPath)),
    ("errors".toList, .array (s.failures.map jsonFailure)),
    ("missing_dirs".toList, .array (s.missingDirs.map jsonPath))]

/-- Prints the report as a block of text. -/
def printText (s : Summary) (o : Output) : Output × Except ReportError Unit :=
  let o := o.print (text s)
  (o, if o.failed then .error .outputFull else .ok ())

/-- Prints the report as a JSON document on lines of its own. -/
def printJson (s : Summary) (o : Output) : Output × Except ReportError Unit :=
  let written := (json s).render 0
  let o := o.print (String.ofList written.text)
  if o.failed then (o, .error .documentCut)
  else if !written.complete then (o, .error .unreadablePath)
  else
    let o := o.print "\n"
    (o, if o.failed then .error .outputFull else .ok ())

end Report

end LogGuard
