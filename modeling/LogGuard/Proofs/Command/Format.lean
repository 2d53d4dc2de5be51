import LogGuard.Proofs.Command.Execution
import LogGuard.Proofs.Report
import LogGuard.Proofs.Run.Record
import LogGuard.Proofs.Run.Unbounded

/-!
# The form of the report

Which form the report of a task has does not change what the task does to the files. With a report
in text a task on an output that takes everything has the result that its run is judged to have. It
has the same result with a JSON document, which is then all that it prints, exactly if the paths in
the summary are UTF-8. Otherwise it fails when the files have been changed, and leaves a part of a
document (`execute_format`).
-/

namespace LogGuard.Task

variable {task : Task} {settings : Settings} {fs : FileSystem} {output : Output}

/-- A task whose settings cannot be loaded does nothing. -/
theorem execute_of_not_loaded {e : LoadError} (replace : Replacer) (output : Output)
    (h : (Settings.load fs task.config).1 = .error e) :
    (task.execute replace fs output).result = .error (.notLoaded e) ∧
      (task.execute replace fs output).files = fs ∧
      (task.execute replace fs output).output = output := by
  rcases hload : Settings.load fs task.config with ⟨loaded, log⟩
  obtain rfl : loaded = .error e := by rw [← h, hload]
  unfold execute
  rw [hload]
  exact ⟨rfl, rfl, rfl⟩

/-- A task whose report is a document leaves the files as a run does that prints nothing. Its
result is the judgement on that run unless the report cannot be printed. -/
theorem execute_json (replace : Replacer) (output : Output) (hjson : task.json = true)
    (h : (Settings.load fs task.config).1 = .ok settings) :
    let st := Run.tree replace settings task.mode fs {}
    (task.execute replace fs output).files = st.files ∧
      (task.execute replace fs output).output = (Report.printJson st.summary output).1 ∧
      (task.execute replace fs output).result =
        match (Report.printJson st.summary output).2 with
        | .ok () => task.judge st.summary
        | .error e => .error (.notPrinted e) := by
  intro st
  rcases hload : Settings.load fs task.config with ⟨loaded, log⟩
  obtain rfl : loaded = .ok settings := by rw [← h, hload]
  have hopen : st.output.failed = false :=
    (Run.unbounded_tree .empty replace settings task.mode fs).failed
  have hst : Run.tree replace settings task.mode fs {} = st := rfl
  unfold execute
  rw [hload]
  simp only [executeWith, hjson, if_true, hst, hopen, Bool.false_eq_true, if_false, conclude, print]
  rcases Report.printJson st.summary output with ⟨printed, _ | _⟩ <;> simp

/-- The form of the report does not matter to the files. If the settings cannot be loaded, a task
fails with either form and prints nothing. Otherwise the result with a report in text is the
judgement on the run. With a document it is the same if the paths in the summary are UTF-8, and a
document for the report is printed as a whole, with a line end after it. If they are not, the task
fails, and what is printed does not end a line. -/
theorem execute_format (replace : Replacer) (task : Task) (fs : FileSystem) :
    let inText := ({ task with json := false } : Task).execute replace fs {}
    let inJson := ({ task with json := true } : Task).execute replace fs {}
    inJson.files = inText.files ∧
      match (Settings.load fs task.config).1 with
      | .error e =>
        inText.result = .error (.notLoaded e) ∧ inJson.result = .error (.notLoaded e) ∧
          inText.output = {} ∧ inJson.output = {}
      | .ok settings =>
        let s := (Run.tree replace settings task.mode fs {}).summary
        inText.result = task.judge s ∧
          (s.Readable → inJson.result = inText.result ∧
            ∃ document, Json.Spells (Report.json s) document ∧
              inJson.output.printed = Output.lineBytes (String.ofList document)) ∧
          (¬s.Readable → inJson.result = .error (.notPrinted .unreadablePath) ∧
            ∀ t, inJson.output.printed ≠ Output.lineBytes t) := by
  intro inText inJson
  cases hload : (Settings.load fs task.config).1 with
  | error e =>
    obtain ⟨htext, htextFiles, htextOutput⟩ :=
      @execute_of_not_loaded { task with json := false } fs e replace {} hload
    obtain ⟨hjson, hjsonFiles, hjsonOutput⟩ :=
      @execute_of_not_loaded { task with json := true } fs e replace {} hload
    exact ⟨hjsonFiles.trans htextFiles.symm, htext, hjson, htextOutput, hjsonOutput⟩
  | ok settings =>
    -- Both runs print on an empty output, one of which is dropped, and so they are the same.
    have hopen := Run.unbounded_tree .empty replace settings task.mode fs
    obtain ⟨htextFiles, -, hjudged⟩ :=
      @execute_spec { task with json := false } settings fs replace {} hload
    have htext : inText.result = task.judge (Run.tree replace settings task.mode fs {}).summary :=
      hjudged rfl hopen
    obtain ⟨hjsonFiles, hjsonOutput, hjson⟩ :=
      @execute_json { task with json := true } settings fs replace {} rfl hload
    refine ⟨hjsonFiles.trans htextFiles.symm, htext, fun hreadable => ?_, fun hunreadable => ?_⟩
    · obtain ⟨document, hspells, hprint⟩ := Report.printJson_of_readable hreadable
      rw [hprint] at hjson hjsonOutput
      exact ⟨hjson.trans htext.symm, document, hspells, congrArg Output.printed hjsonOutput⟩
    · obtain ⟨part, hpart, hprint⟩ := Report.printJson_of_unreadable hunreadable
      rw [hprint] at hjson hjsonOutput
      refine ⟨hjson, fun t => ?_⟩
      rw [show inJson.output.printed = part from congrArg Output.printed hjsonOutput]
      exact hpart t

/-- A working directory with one file below `src`, which has the given name. -/
def namedFileTree (name : Segment) (text : String) : FileSystem :=
  let config := "[safe_log_fixer]\nroot = ''\ndirs = ['src']\n"
  ⟨.directory FileSystem.directoryMode [
    (Settings.defaultFile.bytes, .file (Run.encode config.toList) 0o644),
    ((Path.ofString "src").bytes, .directory FileSystem.directoryMode
      [(name, .file (Run.encode text.toList) 0o644)])], []⟩

/-- Checking strictly fails in both forms over a file with a call, and the document is printed. -/
theorem execute_format_of_call :
    let fs := namedFileTree (Path.ofString "a.ts").bytes "console.log(1);\n"
    let task : Task := { mode := .check, strict := true }
    let inText := ({ task with json := false } : Task).execute FileSystem.replace fs {}
    let inJson := ({ task with json := true } : Task).execute FileSystem.replace fs {}
    inText.result = .error (.callsRemain 1 0) ∧ inJson.result = inText.result ∧
      inJson.files = inText.files ∧
      ∃ j document, Json.Spells j document ∧
        inJson.output.printed = Output.lineBytes (String.ofList document) := by
  intro fs task inText inJson
  have hload : (Settings.load fs task.config).1 = .ok (Run.sampleSettings "" ["src"] []) := by
    decide +kernel
  have h := execute_format FileSystem.replace task fs
  rw [hload] at h
  obtain ⟨hfiles, -, hreadable, -⟩ := h
  obtain ⟨hresult, document, hspells, hprinted⟩ := hreadable (by decide +kernel)
  exact ⟨by decide +kernel, hresult, hfiles, _, document, hspells, hprinted⟩

/-- A file whose name is not UTF-8 is changed with either form of the report. Only with a document
does the task fail, and what it has printed ends within a line. -/
theorem not_printed_after_change :
    let name : Segment := 0xFF :: (Path.ofString ".ts").bytes
    let path : Path := ⟨(Path.ofString "src/").bytes ++ name⟩
    let fs := namedFileTree name "console.log(1);\n"
    let inText := ({ mode := .fix, json := false } : Task).execute FileSystem.replace fs {}
    let inJson := ({ mode := .fix, json := true } : Task).execute FileSystem.replace fs {}
    inText.result = .ok () ∧ inJson.result = .error (.notPrinted .unreadablePath) ∧
      inText.files.readText path = .ok "safeLog(1);\n" ∧
      inJson.files.readText path = .ok "safeLog(1);\n" ∧
      inJson.output.printed.getLast? = some 0x20 := by
  decide +kernel

end LogGuard.Task
