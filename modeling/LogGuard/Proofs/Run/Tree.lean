import LogGuard.Proofs.Run.Candidate

/-!
# Runs as sequences of visits

A visit does one of two things (`VisitStep`): it skips the file or processes it. A run makes visits
one after the other (`Reaches`); what it prints and tells in between changes neither the files nor
the paths that were seen. It visits the candidates that the tree has at the start, as far as the
output takes what is printed (`tree_reaches`).
-/

namespace LogGuard.Run

open FileSystem (SamePlaces)

variable (replace : Replacer) (settings : Settings) (mode : RunMode)

/-- The candidates of a run in the order in which they are visited. -/
def visited (fs : FileSystem) : List Path :=
  settings.dirs.flatMap fun dir => filesBelow settings fs (settings.root.join dir)

/-- What visiting `path` does to the files and to the paths seen. -/
inductive VisitStep (path : Path) (st : State) : State → Prop where
  /-- The settings leave the file out, or it was processed before. -/
  | skipped {st'}
    (hskip : settings.isExcluded (relative settings path) = true ∨
      settings.isSafetyModule (relative settings path) = true ∨ st.seen.any path.same = true)
    (hfiles : st'.files = st.files) (hseen : st'.seen = st.seen) : VisitStep path st st'
  /-- The file is processed. -/
  | processed {st'} (hexcluded : settings.isExcluded (relative settings path) = false)
    (hmodule : settings.isSafetyModule (relative settings path) = false)
    (hnew : st.seen.any path.same = false)
    (hfiles : st'.files = (file replace settings mode path st.files).files)
    (hseen : st'.seen = path :: st.seen) : VisitStep path st st'

/-- A run from a state to another one that visits the given paths one after the other. -/
inductive Reaches (st : State) : List Path → State → Prop where
  | start {st'} (hfiles : st'.files = st.files) (hseen : st'.seen = st.seen) : Reaches st [] st'
  | visit {done path between st'} (h : Reaches st done between)
    (hstep : VisitStep replace settings mode path between st') : Reaches st (done ++ [path]) st'

variable {replace settings mode} {st between st' : State} {done : List Path} {path : Path}
  {fs : FileSystem}

/-! ## Visits -/

/-- Printing leaves the files and the paths seen to what comes after it. -/
theorem printing_spec (next : State → State)
    (hnext : ∀ st, (next st).files = st.files ∧ (next st).seen = st.seen) (st : State)
    (line : String) :
    (st.printing line next).files = st.files ∧ (st.printing line next).seen = st.seen := by
  unfold State.printing
  dsimp only
  split
  · exact ⟨rfl, rfl⟩
  · exact hnext _

/-- Recording what became of a file leaves the files and the paths seen as they are. -/
theorem record_spec (path rel : Path) (outcome : Outcome) (st : State) :
    (record mode path rel outcome st).files = st.files ∧
      (record mode path rel outcome st).seen = st.seen := by
  cases outcome with
  | modified calls status =>
    exact printing_spec (recordModified rel calls status) (fun _ => ⟨rfl, rfl⟩) st _
  | clean => exact ⟨rfl, rfl⟩
  | unchanged => exact ⟨rfl, rfl⟩
  | failed e => exact printing_spec (recordFailure path e) (fun _ => ⟨rfl, rfl⟩) st _

/-- A visit does nothing else. -/
theorem visit_step (st : State) (path : Path) :
    VisitStep replace settings mode path st (visit replace settings mode st path) := by
  unfold visit
  dsimp only
  split
  · rename_i hexcluded
    exact .skipped (.inl hexcluded) rfl rfl
  · rename_i hexcluded
    split
    · rename_i hmodule
      exact .skipped (.inr (.inl hmodule)) rfl rfl
    · rename_i hmodule
      split
      · rename_i hseen
        exact .skipped (.inr (.inr hseen)) rfl rfl
      · rename_i hnew
        obtain ⟨hfiles, hseen⟩ := record_spec path _ _ _
        exact .processed (by simpa using hexcluded) (by simpa using hmodule) (by simpa using hnew)
          hfiles hseen

/-! ## Runs -/

/-- Only the files and the paths seen count. -/
theorem Reaches.congr (h : Reaches replace settings mode st done between)
    (hfiles : st'.files = between.files) (hseen : st'.seen = between.seen) :
    Reaches replace settings mode st done st' := by
  cases h with
  | start hfiles' hseen' => exact .start (hfiles.trans hfiles') (hseen.trans hseen')
  | visit h hstep =>
    refine .visit h ?_
    cases hstep with
    | skipped hskip hfiles' hseen' =>
      exact .skipped hskip (hfiles.trans hfiles') (hseen.trans hseen')
    | processed hexcluded hmodule hnew hfiles' hseen' =>
      exact .processed hexcluded hmodule hnew (hfiles.trans hfiles') (hseen.trans hseen')

/-- A run that goes on visits more paths. -/
theorem Reaches.trans {more : List Path} (h : Reaches replace settings mode st done between)
    (hmore : Reaches replace settings mode between more st') :
    Reaches replace settings mode st (done ++ more) st' := by
  induction hmore with
  | start hfiles hseen =>
    rw [List.append_nil]
    exact h.congr hfiles hseen
  | visit _ hstep ih =>
    rw [← List.append_assoc]
    exact .visit ih hstep

/-- The paths still lead where they led before the run, if all that were visited are candidates. -/
theorem Reaches.samePlaces (h : Reaches replace settings mode st done st')
    (hreplace : Faithful replace) (hst : SamePlaces st.files fs)
    (hdone : ∀ p ∈ done, Candidate fs p) : SamePlaces st'.files fs := by
  -- A visit processes a candidate, which it still is as the paths lead where they led.
  induction h with
  | start hfiles => rwa [hfiles]
  | @visit done path between st' _ hstep ih =>
    have hplaces := ih fun p hp => hdone p (List.mem_append_left _ hp)
    cases hstep with
    | skipped _ hfiles => rwa [hfiles]
    | processed _ _ _ hfiles =>
      rw [hfiles]
      have hpath := (hdone path (by simp)).of_samePlaces hplaces
      exact (file_samePlaces hreplace hpath).trans hplaces

/-- Where there is no directory there are no candidates. -/
theorem filesBelow_of_not_directory {dir : Path} (h : fs.isDirectory dir = false) :
    filesBelow settings fs dir = [] := by
  have hwalk : fs.walk dir = [] := by
    unfold FileSystem.isDirectory at h
    unfold FileSystem.walk
    split
    · rename_i hnode
      rw [hnode] at h
      contradiction
    · rfl
  rw [filesBelow, hwalk]
  rfl

variable (replace settings mode)

/-- Visiting files one after the other visits all of them unless the output takes no more. -/
theorem visitAll_reaches (st : State) (paths : List Path) :
    ∃ done, done <+: paths ∧
      Reaches replace settings mode st done (visitAll replace settings mode st paths) ∧
      ((visitAll replace settings mode st paths).output.failed = false → done = paths) := by
  induction paths generalizing st with
  | nil => exact ⟨[], List.prefix_rfl, .start rfl rfl, fun _ => rfl⟩
  | cons path rest ih =>
    rw [visitAll]
    split
    · rename_i hfailed
      exact ⟨[], List.nil_prefix, .start rfl rfl, fun h => by simp [hfailed] at h⟩
    · obtain ⟨done, hpre, hreaches, hall⟩ := ih (visit replace settings mode st path)
      refine ⟨path :: done, List.cons_prefix_cons.mpr ⟨rfl, hpre⟩, ?_,
        fun h => congrArg (path :: ·) (hall h)⟩
      exact .trans (.visit (.start rfl rfl) (visit_step st path)) hreaches

/-- Scanning a directory visits the candidates below it. -/
theorem scan_reaches (st : State) (dir : Path) :
    ∃ done, done <+: filesBelow settings st.files (settings.root.join dir) ∧
      Reaches replace settings mode st done (scan replace settings mode st dir) ∧
      ((scan replace settings mode st dir).output.failed = false →
        done = filesBelow settings st.files (settings.root.join dir)) := by
  unfold scan
  dsimp only
  split
  · have htold (events : List Event) : Reaches replace settings mode st [] (st.tell events) :=
      .start rfl rfl
    obtain ⟨done, hpre, hreaches, hall⟩ := visitAll_reaches replace settings mode _ _
    exact ⟨done, hpre, (htold _).trans hreaches, hall⟩
  · rename_i hdirectory
    rw [filesBelow_of_not_directory (by simpa using hdirectory)]
    obtain ⟨hfiles, hseen⟩ := printing_spec (recordMissing _) (fun _ => ⟨rfl, rfl⟩) st _
    exact ⟨[], List.prefix_rfl, .start hfiles hseen, fun _ => rfl⟩

/-- An output that takes no more ends the scans. -/
theorem scanAll_of_failed {st : State} (h : st.output.failed = true) (dirs : List Path) :
    scanAll replace settings mode st dirs = st := by
  cases dirs with
  | nil => rfl
  | cons dir rest => rw [scanAll, if_pos h]

/-- Scanning directories visits the candidates below them that the tree has before the scans. -/
theorem scanAll_reaches (hreplace : Faithful replace) (hfs : fs.root.WellFormed) (dirs : List Path)
    (st : State) (hst : SamePlaces st.files fs) :
    ∃ done,
      done <+: dirs.flatMap (fun dir => filesBelow settings fs (settings.root.join dir)) ∧
      Reaches replace settings mode st done (scanAll replace settings mode st dirs) ∧
      ((scanAll replace settings mode st dirs).output.failed = false →
        done = dirs.flatMap fun dir => filesBelow settings fs (settings.root.join dir)) := by
  induction dirs generalizing st with
  | nil => exact ⟨[], List.prefix_rfl, .start rfl rfl, fun _ => rfl⟩
  | cons dir rest ih =>
    rw [scanAll, List.flatMap_cons]
    split
    · rename_i hfailed
      exact ⟨[], List.nil_prefix, .start rfl rfl, fun h => by simp [hfailed] at h⟩
    · obtain ⟨done, hpre, hreaches, hall⟩ := scan_reaches replace settings mode st dir
      have hfiles : filesBelow settings st.files (settings.root.join dir) =
          filesBelow settings fs (settings.root.join dir) := by
        rw [filesBelow, hst.walk, filesBelow]
      rw [hfiles] at hpre hall
      cases hfailed : (scan replace settings mode st dir).output.failed with
      | true =>
        rw [scanAll_of_failed replace settings mode hfailed]
        exact ⟨done, hpre.trans (List.prefix_append _ _), hreaches,
          fun h => by simp [hfailed] at h⟩
      | false =>
        -- The next scan finds the candidates of the original tree: processing moves no file.
        have hdone := hall hfailed
        have hplaces : SamePlaces (scan replace settings mode st dir).files fs :=
          hreaches.samePlaces hreplace hst fun p hp => candidate_of_mem hfs (hdone ▸ hp)
        obtain ⟨more, hpre', hreaches', hall'⟩ := ih _ hplaces
        refine ⟨done ++ more, ?_, hreaches.trans hreaches', fun h => by rw [hdone, hall' h]⟩
        rw [hdone]
        exact (List.prefix_append_right_inj _).mpr hpre'

/-- A run visits the candidates in order, all of them unless the output takes no more. -/
theorem tree_reaches (hreplace : Faithful replace) (hfs : fs.root.WellFormed) (output : Output) :
    ∃ done, done <+: visited settings fs ∧
      Reaches replace settings mode (start mode fs output) done
        (tree replace settings mode fs output) ∧
      ((tree replace settings mode fs output).output.failed = false →
        done = visited settings fs) := by
  obtain ⟨done, hpre, hreaches, hall⟩ :=
    scanAll_reaches replace settings mode hreplace hfs settings.dirs (start mode fs output)
      (SamePlaces.refl fs)
  unfold tree finish
  split
  · exact ⟨done, hpre, hreaches, hall⟩
  · exact ⟨done, hpre, hreaches.congr rfl rfl, hall⟩

end LogGuard.Run
