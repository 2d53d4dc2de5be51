import LogGuard.Proofs.Output
import LogGuard.Run.Tree

/-!
# Runs on an output that takes everything

Each step of a run leaves an output that takes everything as such (`unbounded_tree`), so that the
run comes to its end.
-/

namespace LogGuard.Run

variable {replace : Replacer} {settings : Settings} {mode : RunMode} {st : State}

theorem unbounded_printing (h : st.output.Unbounded) (line : String) {next : State → State}
    (hnext : ∀ st, (next st).output = st.output) : (st.printing line next).output.Unbounded := by
  unfold State.printing
  dsimp only
  split
  · exact h.printLine line
  · rw [hnext]
    exact h.printLine line

theorem unbounded_record (h : st.output.Unbounded) (path rel : Path) (outcome : Outcome) :
    (record mode path rel outcome st).output.Unbounded := by
  cases outcome with
  | modified calls status => exact unbounded_printing h _ fun _ => rfl
  | clean => exact h
  | unchanged => exact h
  | failed e => exact unbounded_printing h _ fun _ => rfl

theorem unbounded_visit (h : st.output.Unbounded) (path : Path) :
    (visit replace settings mode st path).output.Unbounded := by
  unfold visit
  dsimp only
  split
  · exact h
  · split
    · exact h
    · split
      · exact h
      · refine unbounded_record ?_ path _ _
        exact h

theorem unbounded_visitAll (h : st.output.Unbounded) (paths : List Path) :
    (visitAll replace settings mode st paths).output.Unbounded := by
  induction paths generalizing st with
  | nil => exact h
  | cons path rest ih =>
    rw [visitAll, h.failed, if_neg (by decide)]
    exact ih (unbounded_visit h path)

theorem unbounded_scan (h : st.output.Unbounded) (dir : Path) :
    (scan replace settings mode st dir).output.Unbounded := by
  unfold scan
  dsimp only
  split
  · refine unbounded_visitAll ?_ _
    exact h
  · exact unbounded_printing h _ fun _ => rfl

theorem unbounded_scanAll (h : st.output.Unbounded) (dirs : List Path) :
    (scanAll replace settings mode st dirs).output.Unbounded := by
  induction dirs generalizing st with
  | nil => exact h
  | cons dir rest ih =>
    rw [scanAll, h.failed, if_neg (by decide)]
    exact ih (unbounded_scan h dir)

/-- A run on an output that takes everything leaves one. -/
theorem unbounded_tree {output : Output} (h : output.Unbounded) (replace : Replacer)
    (settings : Settings) (mode : RunMode) (fs : FileSystem) :
    (tree replace settings mode fs output).output.Unbounded := by
  unfold tree finish
  split <;> exact unbounded_scanAll h settings.dirs

end LogGuard.Run
