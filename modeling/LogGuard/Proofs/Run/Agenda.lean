import LogGuard.Proofs.Output
import LogGuard.Proofs.Run.Tree

/-!
# The agenda of a run

A run comes to configured directories that do not exist and to candidate files (`stopsAt`). Which of
the files it processes is decided by the paths alone: it passes by those that the settings leave out
and those that take the steps of an earlier one (`unseen`). What is left is the agenda of the run.

Each stop of the agenda makes an entry in the record of the run and may change the files
(`Stop.carryOut`). The files after a run, what it printed and its summary are those of the stops
that were carried out before the output took no more (`tree_carriesOut`). The files that it has
processed are the first of the agenda, and in a complete run all of them (`seen_spec`).
-/

namespace LogGuard.Run

open FileSystem (SamePlaces)

/-- Something that a run comes to. -/
inductive Stop where
  /-- A configured directory that does not exist. -/
  | missing (dir : Path)
  /-- A candidate file. -/
  | file (path : Path)
  deriving DecidableEq, Repr

/-- The path of the file to which a run comes. -/
def Stop.path? : Stop → Option Path
  | .missing _ => none
  | .file path => some path

/-- The paths of the files among stops. -/
def paths (stops : List Stop) : List Path :=
  stops.filterMap Stop.path?

/-- What a run comes to at a configured directory. -/
def stopsAt (settings : Settings) (fs : FileSystem) (dir : Path) : List Stop :=
  let path := settings.root.join dir
  if fs.isDirectory path then (filesBelow settings fs path).map .file else [.missing path]

/-- Whether the settings do not leave a file out. -/
def selects (settings : Settings) (path : Path) : Bool :=
  !settings.isExcluded (relative settings path) && !settings.isSafetyModule (relative settings path)

/-- The stops without the files that the settings leave out or whose steps were taken before. The
paths `seen` are those of the files before the stops. -/
def unseen (settings : Settings) (seen : List Path) : List Stop → List Stop
  | [] => []
  | .missing dir :: rest => .missing dir :: unseen settings seen rest
  | .file path :: rest =>
    if selects settings path && !seen.any path.same then
      .file path :: unseen settings (path :: seen) rest
    else unseen settings seen rest

/-- The directories that a run reports missing and the files that it processes, in order. -/
def agenda (settings : Settings) (fs : FileSystem) : List Stop :=
  unseen settings [] (settings.dirs.flatMap (stopsAt settings fs))

/-- Visited paths that are not left out and denote the same file take the same steps. -/
def SpelledAlike (settings : Settings) (fs : FileSystem) : Prop :=
  ∀ p ∈ visited settings fs, ∀ q ∈ visited settings fs,
    selects settings p = true → selects settings q = true →
      ∀ location, fs.Denotes p location → fs.Denotes q location → p.same q = true

/-- An entry in the record of a run. -/
inductive Entry where
  /-- A configured directory does not exist. -/
  | missing (dir : Path)
  /-- A file was processed. -/
  | processed (path : Path) (outcome : Outcome)
  deriving DecidableEq, Repr

namespace Entry

/-- The line that is printed for an entry. -/
def line? (settings : Settings) (mode : RunMode) : Entry → Option String
  | missing dir => some ("Directory not found: " ++ dir.display)
  | processed path (.modified ..) =>
    some (modifiedLabel mode ++ ": " ++ (relative settings path).display)
  | processed path (.failed e) =>
    some ("Error processing " ++ path.display ++ ": " ++ e.message)
  | processed _ .clean => none
  | processed _ .unchanged => none

/-- Prints the line for an entry. -/
def print (settings : Settings) (mode : RunMode) (o : Output) (e : Entry) : Output :=
  match e.line? settings mode with
  | some line => o.printLine line
  | none => o

/-- Counts and lists an entry in the summary. -/
def enter (settings : Settings) (s : Summary) : Entry → Summary
  | missing dir => { s with missingDirs := s.missingDirs ++ [dir] }
  | processed path (.modified calls _) =>
    { s with
      filesProcessed := s.filesProcessed + 1
      filesModified := s.filesModified + 1
      callsReplaced := s.callsReplaced + calls
      modified := s.modified ++ [relative settings path] }
  | processed path (.failed e) =>
    { s with
      filesProcessed := s.filesProcessed + 1
      filesErrored := s.filesErrored + 1
      failures := s.failures ++ [⟨path, e.message⟩] }
  | processed _ .clean => { s with filesProcessed := s.filesProcessed + 1 }
  | processed _ .unchanged => { s with filesProcessed := s.filesProcessed + 1 }

end Entry

variable (replace : Replacer) (settings : Settings) (mode : RunMode)

/-- What a run makes of a stop: the entry in its record and the files afterwards. -/
def Stop.carryOut (fs : FileSystem) : Stop → Entry × FileSystem
  | .missing dir => (.missing dir, fs)
  | .file path =>
    let processed := Run.file replace settings mode path fs
    (.processed path processed.outcome, processed.files)

/-- The record of carrying out stops one after the other. -/
def entries (fs : FileSystem) : List Stop → List Entry
  | [] => []
  | stop :: rest =>
    let (entry, fs) := stop.carryOut replace settings mode fs
    entry :: entries fs rest

/-- The files after stops were carried out one after the other. -/
def filesAfter (fs : FileSystem) (stops : List Stop) : FileSystem :=
  stops.foldl (fun fs stop => (stop.carryOut replace settings mode fs).2) fs

/-- The stops that are carried out before the output takes no more. -/
def reached (o : Output) (fs : FileSystem) : List Stop → List Stop
  | [] => []
  | stop :: rest =>
    if o.failed then []
    else
      let (entry, fs) := stop.carryOut replace settings mode fs
      stop :: reached (entry.print settings mode o) fs rest

/-- A run from a state to another one has carried out stops, as far as the output took what it
printed. -/
structure CarriesOut (st : State) (stops : List Stop) (st' : State) : Prop where
  files : st'.files =
    filesAfter replace settings mode st.files
      (reached replace settings mode st.output st.files stops)
  seen : st'.seen =
    (paths (reached replace settings mode st.output st.files stops)).reverse ++ st.seen
  output : st'.output =
    (entries replace settings mode st.files stops).foldl (Entry.print settings mode) st.output
  summary : st'.output.failed = false → st'.summary =
    (entries replace settings mode st.files stops).foldl (Entry.enter settings) st.summary

variable {replace settings mode} {st between st' : State} {stops more : List Stop} {path : Path}
  {fs : FileSystem} {o : Output}

/-! ## Lists of stops -/

@[simp]
theorem paths_nil : paths [] = [] :=
  rfl

@[simp]
theorem paths_missing (dir : Path) (rest : List Stop) :
    paths (.missing dir :: rest) = paths rest :=
  rfl

@[simp]
theorem paths_file (path : Path) (rest : List Stop) :
    paths (.file path :: rest) = path :: paths rest :=
  rfl

@[simp]
theorem paths_append (stops more : List Stop) : paths (stops ++ more) = paths stops ++ paths more :=
  List.filterMap_append

theorem forall_paths_cons {P : Path → Prop} {stop : Stop} {stops : List Stop} :
    (∀ p ∈ paths (stop :: stops), P p) ↔
      (∀ p, stop = .file p → P p) ∧ ∀ p ∈ paths stops, P p := by
  cases stop with
  | missing dir => simp
  | file path => simp

theorem forall_paths_append {P : Path → Prop} {stops more : List Stop} :
    (∀ p ∈ paths (stops ++ more), P p) ↔ (∀ p ∈ paths stops, P p) ∧ ∀ p ∈ paths more, P p := by
  rw [paths_append, List.forall_mem_append]

theorem entries_cons (fs : FileSystem) (stop : Stop) (rest : List Stop) :
    entries replace settings mode fs (stop :: rest) =
      (stop.carryOut replace settings mode fs).1 ::
        entries replace settings mode (stop.carryOut replace settings mode fs).2 rest :=
  rfl

theorem filesAfter_cons (fs : FileSystem) (stop : Stop) (rest : List Stop) :
    filesAfter replace settings mode fs (stop :: rest) =
      filesAfter replace settings mode (stop.carryOut replace settings mode fs).2 rest :=
  rfl

theorem entries_append (fs : FileSystem) (stops more : List Stop) :
    entries replace settings mode fs (stops ++ more) =
      entries replace settings mode fs stops ++
        entries replace settings mode (filesAfter replace settings mode fs stops) more := by
  induction stops generalizing fs with
  | nil => rfl
  | cons stop rest ih => exact congrArg _ (ih _)

theorem filesAfter_append (fs : FileSystem) (stops more : List Stop) :
    filesAfter replace settings mode fs (stops ++ more) =
      filesAfter replace settings mode (filesAfter replace settings mode fs stops) more :=
  List.foldl_append

/-- Files that were seen before the stops leave only others. -/
theorem unseen_append (seen : List Path) (stops more : List Stop) :
    unseen settings seen (stops ++ more) =
      unseen settings seen stops ++
        unseen settings ((paths (unseen settings seen stops)).reverse ++ seen) more := by
  induction stops generalizing seen with
  | nil => rfl
  | cons stop rest ih =>
    cases stop with
    | missing dir => exact congrArg (Stop.missing dir :: ·) (ih seen)
    | file path =>
      rw [List.cons_append, unseen, unseen]
      split
      · rw [ih, paths_file, List.reverse_cons, List.append_assoc]
        rfl
      · exact ih seen

/-- What is on an agenda is selected and takes other steps than the files seen before. -/
theorem of_mem_unseen {seen : List Path} (h : path ∈ paths (unseen settings seen stops)) :
    path ∈ paths stops ∧ selects settings path = true ∧ seen.any path.same = false := by
  induction stops generalizing seen with
  | nil => contradiction
  | cons stop rest ih =>
    cases stop with
    | missing dir => exact ih h
    | file first =>
      rw [unseen] at h
      rw [paths_file, List.mem_cons]
      split at h
      · rename_i hselects
        rw [Bool.and_eq_true, Bool.not_eq_true'] at hselects
        rw [paths_file, List.mem_cons] at h
        rcases h with rfl | hrest
        · exact ⟨.inl rfl, hselects⟩
        · obtain ⟨hmem, hpath, hseen⟩ := ih hrest
          rw [List.any_cons, Bool.or_eq_false_iff] at hseen
          exact ⟨.inr hmem, hpath, hseen.2⟩
      · obtain ⟨hmem, hpath⟩ := ih h
        exact ⟨.inr hmem, hpath⟩

/-- No two files on an agenda take the same steps. -/
theorem pairwise_unseen (settings : Settings) (seen : List Path) (stops : List Stop) :
    (paths (unseen settings seen stops)).Pairwise fun p q => q.same p = false := by
  induction stops generalizing seen with
  | nil => exact List.Pairwise.nil
  | cons stop rest ih =>
    cases stop with
    | missing dir => exact ih seen
    | file path =>
      rw [unseen]
      split
      · refine List.pairwise_cons.mpr ⟨fun q hq => ?_, ih _⟩
        have hseen := (of_mem_unseen hq).2.2
        rw [List.any_cons, Bool.or_eq_false_iff] at hseen
        exact hseen.1
      · exact ih seen

/-- A selected file is on the agenda, or one with its steps is, or one was seen before. -/
theorem exists_of_mem_stops (seen : List Path) (h : path ∈ paths stops)
    (hselects : selects settings path = true) :
    seen.any path.same = true ∨ ∃ q ∈ paths (unseen settings seen stops), path.same q = true := by
  induction stops generalizing seen with
  | nil => contradiction
  | cons stop rest ih =>
    cases stop with
    | missing dir => exact ih _ h
    | file first =>
      rw [unseen]
      rcases List.mem_cons.mp h with rfl | hrest
      · cases hseen : seen.any path.same with
        | true => exact .inl rfl
        | false =>
          rw [if_pos (by simp [hselects])]
          exact .inr ⟨path, List.mem_cons_self, beq_self_eq_true _⟩
      · split
        · rcases ih (first :: seen) hrest with hseen | ⟨q, hq, hsame⟩
          · rw [List.any_cons, Bool.or_eq_true] at hseen
            rcases hseen with hfirst | hseen
            · exact .inr ⟨first, List.mem_cons_self, hfirst⟩
            · exact .inl hseen
          · exact .inr ⟨q, List.mem_cons_of_mem _ hq, hsame⟩
        · exact ih _ hrest

/-! ## The output -/

/-- An output that has failed stays as it is. -/
theorem print_of_failed (h : o.failed = true) (e : Entry) : e.print settings mode o = o := by
  unfold Entry.print
  split
  · exact Output.printLine_of_failed h _
  · rfl

theorem foldl_print_of_failed (h : o.failed = true) (record : List Entry) :
    record.foldl (Entry.print settings mode) o = o := by
  induction record with
  | nil => rfl
  | cons e record ih => rw [List.foldl_cons, print_of_failed h, ih]

/-- Nothing is carried out once the output has failed. -/
theorem reached_of_failed (h : o.failed = true) (fs : FileSystem) (stops : List Stop) :
    reached replace settings mode o fs stops = [] := by
  cases stops with
  | nil => rfl
  | cons stop rest => rw [reached, if_pos h]

/-- Everything is carried out if the output takes all that is printed. -/
theorem reached_eq_self
    (h : ((entries replace settings mode fs stops).foldl (Entry.print settings mode) o).failed =
      false) : reached replace settings mode o fs stops = stops := by
  induction stops generalizing fs o with
  | nil => rfl
  | cons stop rest ih =>
    cases hfailed : o.failed with
    | true =>
      rw [foldl_print_of_failed hfailed, hfailed] at h
      contradiction
    | false =>
      rw [reached, hfailed, if_neg (by decide)]
      exact congrArg (stop :: ·) (ih h)

theorem reached_append (o : Output) (fs : FileSystem) (stops more : List Stop) :
    reached replace settings mode o fs (stops ++ more) =
      reached replace settings mode o fs stops ++
        reached replace settings mode
          ((entries replace settings mode fs stops).foldl (Entry.print settings mode) o)
          (filesAfter replace settings mode fs stops) more := by
  induction stops generalizing fs o with
  | nil => rfl
  | cons stop rest ih =>
    rw [List.cons_append, reached, reached]
    split
    · rename_i hfailed
      rw [foldl_print_of_failed hfailed, reached_of_failed hfailed, List.nil_append]
    · exact congrArg (stop :: ·) (ih _ _)

/-- What is carried out are the first of the stops. -/
theorem prefix_of_reached (replace : Replacer) (settings : Settings) (mode : RunMode) (o : Output)
    (fs : FileSystem) (stops : List Stop) : reached replace settings mode o fs stops <+: stops := by
  induction stops generalizing fs o with
  | nil => exact List.prefix_rfl
  | cons stop rest ih =>
    rw [reached]
    split
    · exact List.nil_prefix
    · exact List.cons_prefix_cons.mpr ⟨rfl, ih _ _⟩

/-! ## Runs -/

namespace CarriesOut

/-- A run whose output has failed stays where it is. -/
theorem of_failed (h : st.output.failed = true) (stops : List Stop) :
    CarriesOut replace settings mode st stops st where
  files := by rw [reached_of_failed h]; rfl
  seen := by rw [reached_of_failed h]; rfl
  output := (foldl_print_of_failed h _).symm
  summary hopen := by rw [h] at hopen; contradiction

/-- A run that has carried out nothing stays where it is. -/
theorem refl (st : State) : CarriesOut replace settings mode st [] st :=
  ⟨rfl, rfl, rfl, fun _ => rfl⟩

/-- Where the output takes nothing, it does not matter what else there is to carry out. -/
theorem congr_of_failed (h : CarriesOut replace settings mode st stops st')
    (hfailed : st.output.failed = true) (more : List Stop) :
    CarriesOut replace settings mode st more st' where
  files := by rw [h.files, reached_of_failed hfailed, reached_of_failed hfailed]
  seen := by rw [h.seen, reached_of_failed hfailed, reached_of_failed hfailed]
  output := by rw [h.output, foldl_print_of_failed hfailed, foldl_print_of_failed hfailed]
  summary hopen := by
    rw [h.output, foldl_print_of_failed hfailed, hfailed] at hopen
    contradiction

/-- A run whose output has not failed has carried out all stops. -/
theorem reached_eq (h : CarriesOut replace settings mode st stops st')
    (hopen : st'.output.failed = false) :
    reached replace settings mode st.output st.files stops = stops :=
  reached_eq_self (h.output ▸ hopen)

/-- A run that goes on carries out more stops. -/
theorem trans (h : CarriesOut replace settings mode st stops between)
    (hmore : CarriesOut replace settings mode between more st') :
    CarriesOut replace settings mode st (stops ++ more) st' := by
  cases hfailed : between.output.failed with
  | true =>
    -- Nothing has happened since the output failed.
    have hend := hmore.congr_of_failed hfailed []
    have houtput : st'.output = between.output := hend.output
    refine ⟨?_, ?_, ?_, fun hopen => ?_⟩
    · rw [hend.files, reached_append, ← h.output, reached_of_failed hfailed,
        reached_of_failed hfailed, List.append_nil, ← h.files]
      rfl
    · rw [hend.seen, reached_append, ← h.output, reached_of_failed hfailed,
        reached_of_failed hfailed, List.append_nil, ← h.seen]
      rfl
    · rw [houtput, entries_append, List.foldl_append, ← h.output, foldl_print_of_failed hfailed]
    · rw [houtput, hfailed] at hopen
      contradiction
  | false =>
    have hall := h.reached_eq hfailed
    have hfiles := h.files
    have hseen := h.seen
    rw [hall] at hfiles hseen
    refine ⟨?_, ?_, ?_, fun hopen => ?_⟩
    · rw [hmore.files, reached_append, hall, filesAfter_append, ← h.output, ← hfiles]
    · rw [hmore.seen, reached_append, hall, paths_append, List.reverse_append, List.append_assoc,
        ← h.output, ← hfiles, ← hseen]
    · rw [hmore.output, entries_append, List.foldl_append, ← h.output, ← hfiles]
    · rw [hmore.summary hopen, entries_append, List.foldl_append, ← h.summary hfailed, ← hfiles]

/-- A run that goes on passes by the files that it has seen. -/
theorem trans_unseen
    (h : CarriesOut replace settings mode st (unseen settings st.seen stops) between)
    (hmore : CarriesOut replace settings mode between (unseen settings between.seen more) st') :
    CarriesOut replace settings mode st (unseen settings st.seen (stops ++ more)) st' := by
  rw [unseen_append]
  refine h.trans ?_
  cases hfailed : between.output.failed with
  | true => exact hmore.congr_of_failed hfailed _
  | false =>
    have hseen := h.seen
    rw [h.reached_eq hfailed] at hseen
    rwa [← hseen]

end CarriesOut

/-- Printing goes to the output before anything else is done. -/
theorem printing_output (next : State → State) (hnext : ∀ st, (next st).output = st.output)
    (st : State) (line : String) : (st.printing line next).output = st.output.printLine line := by
  unfold State.printing
  dsimp only
  split
  · rfl
  · exact hnext _

/-- What comes after printing is done unless the output has failed. -/
theorem printing_of_open {next : State → State} {line : String}
    (h : (st.output.printLine line).failed = false) :
    st.printing line next = next { st with output := st.output.printLine line } := by
  unfold State.printing
  dsimp only
  rw [h, if_neg (by decide)]

/-- What became of a file is printed as its entry. -/
theorem record_output (path : Path) (outcome : Outcome) (st : State) :
    (record mode path (relative settings path) outcome st).output =
      (Entry.processed path outcome).print settings mode st.output := by
  cases outcome with
  | modified calls status =>
    exact printing_output (recordModified _ calls status) (fun _ => rfl) st _
  | clean => rfl
  | unchanged => rfl
  | failed e => exact printing_output (recordFailure path e) (fun _ => rfl) st _

/-- What became of a file that was counted is listed as its entry. -/
theorem record_summary {before : Summary} (path : Path) (outcome : Outcome) (st : State)
    (hst : st.summary = { before with filesProcessed := before.filesProcessed + 1 })
    (h : ((Entry.processed path outcome).print settings mode st.output).failed = false) :
    (record mode path (relative settings path) outcome st).summary =
      (Entry.processed path outcome).enter settings before := by
  cases outcome with
  | modified calls status =>
    rw [record, printing_of_open h, recordModified, hst]
    rfl
  | clean => exact hst
  | unchanged => exact hst
  | failed e =>
    rw [record, printing_of_open h, recordFailure, hst]
    rfl

variable (replace settings mode)

/-- A visit carries out the file unless it is passed by. -/
theorem visit_carriesOut (hopen : st.output.failed = false) (path : Path) :
    CarriesOut replace settings mode st (unseen settings st.seen [.file path])
      (visit replace settings mode st path) := by
  have hreached : reached replace settings mode st.output st.files [.file path] =
      [.file path] := by
    rw [reached, hopen, if_neg (by decide)]
    rfl
  unfold visit
  dsimp only
  split
  · rename_i hexcluded
    rw [unseen, if_neg (by simp [selects, hexcluded])]
    exact ⟨rfl, rfl, rfl, fun _ => rfl⟩
  · rename_i hexcluded
    split
    · rename_i hmodule
      rw [unseen, if_neg (by simp [selects, hmodule])]
      exact ⟨rfl, rfl, rfl, fun _ => rfl⟩
    · rename_i hmodule
      split
      · rename_i hseen
        rw [unseen, if_neg (by simp [hseen])]
        exact .refl st
      · rename_i hnew
        rw [unseen, if_pos (by simp [selects, hexcluded, hmodule, hnew]), unseen]
        obtain ⟨hfiles, hseen⟩ := record_spec path (relative settings path)
          (file replace settings mode path st.files).outcome _
        refine ⟨?_, ?_, record_output path _ _, fun h => record_summary path _ _ rfl ?_⟩
        · exact hfiles.trans (by rw [hreached]; rfl)
        · exact hseen.trans (by rw [hreached]; rfl)
        · rwa [← record_output]

/-- Visiting files carries out those that are not passed by. -/
theorem visitAll_carriesOut (st : State) (files : List Path) :
    CarriesOut replace settings mode st (unseen settings st.seen (files.map .file))
      (visitAll replace settings mode st files) := by
  induction files generalizing st with
  | nil => exact .refl st
  | cons path rest ih =>
    rw [visitAll]
    cases hfailed : st.output.failed with
    | true => exact .of_failed hfailed _
    | false => exact (visit_carriesOut replace settings mode hfailed path).trans_unseen (ih _)

/-- Scanning a directory carries out what the run comes to there. -/
theorem scan_carriesOut (hopen : st.output.failed = false) (dir : Path) :
    CarriesOut replace settings mode st (unseen settings st.seen (stopsAt settings st.files dir))
      (scan replace settings mode st dir) := by
  unfold scan stopsAt
  dsimp only
  split
  · obtain ⟨hfiles, hseen, houtput, hsummary⟩ := visitAll_carriesOut replace settings mode
      (st.tell _) (filesBelow settings st.files (settings.root.join dir))
    exact ⟨hfiles, hseen, houtput, hsummary⟩
  · have hreached (path : Path) : reached replace settings mode st.output st.files
        (unseen settings st.seen [.missing path]) = [.missing path] := by
      rw [unseen, unseen, reached, hopen, if_neg (by decide)]
      rfl
    obtain ⟨hfiles, hseen⟩ :=
      printing_spec (recordMissing (settings.root.join dir)) (fun _ => ⟨rfl, rfl⟩) st _
    have houtput := printing_output (recordMissing (settings.root.join dir)) (fun _ => rfl) st
    refine ⟨?_, ?_, houtput _, fun h => ?_⟩
    · exact hfiles.trans (by rw [hreached]; rfl)
    · exact hseen.trans (by rw [hreached]; rfl)
    · rw [houtput] at h
      rw [printing_of_open h]
      rfl

variable {settings}

/-- What a run comes to does not depend on the content of files. -/
theorem stopsAt_congr {fs' : FileSystem} (h : SamePlaces fs' fs) (dir : Path) :
    stopsAt settings fs' dir = stopsAt settings fs dir := by
  simp only [stopsAt, filesBelow, h.isDirectory, h.walk]

variable (settings)

/-- Scanning directories carries out what a run comes to there before the scans. -/
theorem scanAll_carriesOut (hreplace : Faithful replace) (hfs : fs.root.WellFormed)
    (dirs : List Path) (st : State) (hst : SamePlaces st.files fs) :
    CarriesOut replace settings mode st
      (unseen settings st.seen (dirs.flatMap (stopsAt settings fs)))
      (scanAll replace settings mode st dirs) := by
  induction dirs generalizing st with
  | nil => exact .refl st
  | cons dir rest ih =>
    rw [scanAll, List.flatMap_cons]
    cases hfailed : st.output.failed with
    | true => exact .of_failed hfailed _
    | false =>
      obtain ⟨done, hpre, hreaches, -⟩ := scan_reaches replace settings mode st dir
      rw [filesBelow, hst.walk, ← filesBelow] at hpre
      have hplaces : SamePlaces (scan replace settings mode st dir).files fs :=
        hreaches.samePlaces hreplace hst fun p hp => candidate_of_mem hfs (hpre.subset hp)
      rw [← stopsAt_congr hst dir]
      exact (scan_carriesOut replace settings mode hfailed dir).trans_unseen (ih _ hplaces)

/-- A run carries out its agenda, as far as the output takes what is printed. -/
theorem tree_carriesOut (hreplace : Faithful replace) (hfs : fs.root.WellFormed)
    (output : Output) :
    CarriesOut replace settings mode (start mode fs output) (agenda settings fs)
      (tree replace settings mode fs output) := by
  have hscans := scanAll_carriesOut replace settings mode hreplace hfs settings.dirs
    (start mode fs output) (SamePlaces.refl fs)
  unfold tree finish
  split
  · exact hscans
  · exact ⟨hscans.files, hscans.seen, hscans.output, hscans.summary⟩

/-! ## The files on an agenda -/

variable {replace settings mode} {output : Output}

/-- The files that a run comes to are its candidates. -/
theorem paths_stopsAt (settings : Settings) (fs : FileSystem) :
    paths (settings.dirs.flatMap (stopsAt settings fs)) = visited settings fs := by
  unfold visited
  induction settings.dirs with
  | nil => rfl
  | cons dir rest ih =>
    rw [List.flatMap_cons, List.flatMap_cons, paths_append, ih]
    congr 1
    simp only [stopsAt]
    split
    · induction filesBelow settings fs (settings.root.join dir) with
      | nil => rfl
      | cons path rest ih => exact congrArg (path :: ·) ih
    · rename_i hdirectory
      exact (filesBelow_of_not_directory (by simpa using hdirectory)).symm

/-- The agenda does not depend on the content of files. -/
theorem agenda_congr {fs' : FileSystem} (h : SamePlaces fs' fs) :
    agenda settings fs' = agenda settings fs := by
  unfold agenda
  rw [funext (stopsAt_congr h)]

/-- A file on the agenda is a selected candidate. -/
theorem of_mem_agenda (h : path ∈ paths (agenda settings fs)) :
    path ∈ visited settings fs ∧ selects settings path = true := by
  obtain ⟨hmem, hselects, -⟩ := of_mem_unseen h
  exact ⟨paths_stopsAt settings fs ▸ hmem, hselects⟩

/-- A selected file that a run comes to is on the agenda, or another spelling of it is. -/
theorem exists_mem_agenda (h : path ∈ visited settings fs)
    (hselects : selects settings path = true) :
    ∃ q ∈ paths (agenda settings fs), path.same q = true := by
  rw [← paths_stopsAt] at h
  rcases exists_of_mem_stops [] h hselects with hseen | hmem
  · contradiction
  · exact hmem

/-- What a run comes to below a configured directory is a candidate. -/
theorem candidate_of_mem_visited (hfs : fs.root.WellFormed) (h : path ∈ visited settings fs) :
    Candidate fs path := by
  obtain ⟨dir, -, hpath⟩ := List.mem_flatMap.mp h
  exact candidate_of_mem hfs hpath

/-- The files on an agenda are apart from each other if they are spelled alike. -/
theorem pairwise_apart (h : SpelledAlike settings fs) :
    (paths (agenda settings fs)).Pairwise fs.Apart := by
  have hnew := pairwise_unseen settings [] (settings.dirs.flatMap (stopsAt settings fs))
  refine hnew.imp_of_mem fun {p q} hp hq hne location hdenotes hdenotes' => ?_
  obtain ⟨hp, hselects⟩ := of_mem_agenda hp
  obtain ⟨hq, hselects'⟩ := of_mem_agenda hq
  have hsame := h q hq p hp hselects' hselects location hdenotes' hdenotes
  rw [hsame] at hne
  contradiction

/-- A visited path is that of a regular file below a configured directory. -/
theorem exists_of_mem_visited (hfs : fs.root.WellFormed) (h : path ∈ visited settings fs) :
    ∃ dir ∈ settings.dirs, ∃ directory names content bits,
      path = below (settings.root.join dir) names ∧
        fs.locate (settings.root.join dir) = .ok directory ∧ names ≠ [] ∧
        (∀ name ∈ names, ValidName name) ∧
        fs.root.get? (directory ++ names) = some (.file content bits) := by
  obtain ⟨dir, hdir, hbelow⟩ := List.mem_flatMap.mp h
  exact ⟨dir, hdir, exists_of_mem_walk hfs (mem_filesBelow.mp hbelow).1⟩

/-- A visited path denotes a regular file. -/
theorem exists_denotes_of_mem_visited (hfs : fs.root.WellFormed) (h : path ∈ visited settings fs) :
    ∃ location content bits, fs.Denotes path location ∧
      fs.root.get? location = some (.file content bits) := by
  obtain ⟨dir, -, directory, names, content, bits, rfl, hlocate, hne, hnames, hfile⟩ :=
    exists_of_mem_visited hfs h
  exact ⟨_, content, bits, FileSystem.denotes_below hlocate hne hnames hfile, hfile⟩

/-- A visited path that is not left out has a path on the agenda that denotes the same file. -/
theorem exists_denotes_of_agenda (hfs : fs.root.WellFormed) (h : path ∈ visited settings fs)
    (hselects : selects settings path = true) {location : Location}
    (hp : fs.Denotes path location) :
    ∃ q ∈ paths (agenda settings fs), path.same q = true ∧ fs.Denotes q location := by
  obtain ⟨q, hq, hsame⟩ := exists_mem_agenda h hselects
  obtain ⟨location', content, bits, hp', hfile⟩ := exists_denotes_of_mem_visited hfs h
  obtain rfl := hp.unique hp'
  exact ⟨q, hq, hsame,
    hp.of_same hfile (candidate_of_mem_visited hfs (of_mem_agenda hq).1).name hsame⟩

/-- The paths that a run processes are the first on its agenda, latest first, and all of them if the
run is complete. -/
theorem seen_spec (hreplace : Faithful replace) (hfs : fs.root.WellFormed) :
    ∃ done, done <+: paths (agenda settings fs) ∧
      (tree replace settings mode fs output).seen = done.reverse ∧
      ((tree replace settings mode fs output).output.failed = false →
        done = paths (agenda settings fs)) := by
  have hrun := tree_carriesOut replace settings mode hreplace hfs output
  refine ⟨_, (prefix_of_reached ..).filterMap _, hrun.seen.trans (List.append_nil _), ?_⟩
  intro hopen
  exact congrArg paths (hrun.reached_eq hopen)

/-- The paths that a run processes are visited and not left out. -/
theorem of_mem_seen (hreplace : Faithful replace) (hfs : fs.root.WellFormed)
    (h : path ∈ (tree replace settings mode fs output).seen) :
    path ∈ visited settings fs ∧ selects settings path = true := by
  obtain ⟨done, hpre, hseen, -⟩ := seen_spec hreplace hfs
  rw [hseen, List.mem_reverse] at h
  exact of_mem_agenda (hpre.subset h)

end LogGuard.Run
