import LogGuard.Command.Execution
import LogGuard.Proofs.Output

/-!
# What a task does with a run

Executing a task leaves the files as its run does, and it fails only if something cannot be printed
or if the summary of the run is judged so (`execute_spec`). On an output that takes everything a
text report is always printed, so that the judgement decides.
-/

namespace LogGuard

variable {task : Task} {settings : Settings} {fs : FileSystem} {output : Output}

/-- A text report is printed as a whole on an output that takes everything. -/
theorem Report.printText_of_unbounded (h : output.Unbounded) (s : Summary) :
    (Report.printText s output).2 = .ok () := by
  unfold Report.printText
  dsimp only
  rw [(h.print _).failed]
  rfl

namespace Task

/-- The run of a task over the configured directories. -/
def run (replace : Replacer) (task : Task) (settings : Settings) (fs : FileSystem)
    (output : Output) : Run.State :=
  Run.tree replace settings task.mode fs (if task.json then {} else output)

/-- A task succeeds with a run that has left nothing to be done. -/
theorem judge_of_settled {s : Summary} (hmodified : s.filesModified = 0)
    (herrored : s.filesErrored = 0) : task.judge s = .ok () := by
  unfold judge
  cases task.strict <;> cases task.mode <;> simp [hmodified, herrored]

/-- The result of a run that was printed is the judgement on it. -/
theorem conclude_cases (st : Run.State) (o : Output) :
    (∃ cause, (task.conclude st o).2 = .error (.notPrinted cause)) ∨
      (task.conclude st o).2 = task.judge st.summary := by
  unfold conclude
  split
  · exact .inl ⟨_, rfl⟩
  · exact .inr rfl

/-- With its settings loaded, a task leaves the files as its run does. It fails because something
cannot be printed, or its run is complete and the judgement on it is the result. A text report that
is printed on an output that takes everything leaves only the second. -/
theorem execute_spec (replace : Replacer) (output : Output)
    (h : (Settings.load fs task.config).1 = .ok settings) :
    (task.execute replace fs output).files = (task.run replace settings fs output).files ∧
      ((∃ cause, (task.execute replace fs output).result = .error (.notPrinted cause)) ∨
        (task.run replace settings fs output).output.failed = false ∧
          (task.execute replace fs output).result =
            task.judge (task.run replace settings fs output).summary) ∧
      (task.json = false → (task.run replace settings fs output).output.Unbounded →
        (task.execute replace fs output).result =
          task.judge (task.run replace settings fs output).summary) := by
  rcases hload : Settings.load fs task.config with ⟨loaded, log⟩
  obtain rfl : loaded = .ok settings := by rw [← h, hload]
  have hrun : Run.tree replace settings task.mode fs (if task.json then {} else output) =
      task.run replace settings fs output := rfl
  unfold execute
  rw [hload]
  simp only [executeWith, hrun]
  generalize task.run replace settings fs output = st
  cases hfailed : st.output.failed with
  | true =>
    refine ⟨rfl, .inl ⟨_, rfl⟩, fun _ hopen => ?_⟩
    rw [hopen.failed] at hfailed
    contradiction
  | false =>
    refine ⟨rfl, (conclude_cases st _).imp_right fun hresult => ⟨rfl, hresult⟩,
      fun hjson hopen => ?_⟩
    simp only [conclude, print, hjson, Bool.false_eq_true, if_false]
    have hprinted := Report.printText_of_unbounded hopen st.summary
    split
    · rename_i heq
      rw [heq] at hprinted
      contradiction
    · rfl

end Task

end LogGuard
