import LogGuard.Proofs.FileSystem.Nested
import LogGuard.Proofs.Run.Accounting
import LogGuard.Proofs.Run.Exclusion
import LogGuard.Proofs.Run.Prediction

/-!
# Directories in another order

A run comes to the same files and finds the same directories missing if its directories are put in
another order, repeated or listed together with directories below them (`Rearranged.mem_stops`).
Where directories are spelled name by name, no file that it comes to has two spellings
(`eq_of_same`), so that the files on its agenda are the same up to order. What is done to one of
them cannot be seen at another one. So the record has the same entries for files
(`entries_agenda_eq_found`), the figures are the same (`sameAccounts_foldl`), and each file of the
tree is kept or is sanitised by the same path (`filesAfter_eq_of_perm`).
-/

namespace LogGuard.Run

open FileSystem (SamePlaces HasDirectory)
open LogGuard.Path (IsName ofParts)

variable {replace : Replacer} {settings settings' : Settings} {mode : RunMode} {fs : FileSystem}
  {output output' : Output} {stop : Stop} {stops stops' : List Stop} {record record' : List Entry}
  {dirs dirs' : List Path} {p q : Path}

/-- Directories that come from others by putting them in another order, by repeating one of them or
by adding one that exists below one of them and is not behind a link there. -/
inductive Rearranged (root : Path) (fs : FileSystem) : List Path → List Path → Prop where
  | permuted {dirs dirs' : List Path} (h : dirs'.Perm dirs) : Rearranged root fs dirs dirs'
  | repeated {dirs : List Path} {dir : Path} (h : dir ∈ dirs) :
    Rearranged root fs dirs (dir :: dirs)
  | nested {dirs : List Path} {names more : List Segment} {place : Location}
    (h : ofParts [] names ∈ dirs) (hnames : ∀ name ∈ names, IsName name)
    (hplace : fs.locate (root.join (ofParts [] names)) = .ok place)
    (hdirectory : HasDirectory fs.root (place ++ more))
    (hexists : fs.isDirectory (root.join (ofParts [] (names ++ more))) = true) :
    Rearranged root fs dirs (ofParts [] (names ++ more) :: dirs)
  | trans {dirs between dirs' : List Path} (h : Rearranged root fs dirs between)
    (h' : Rearranged root fs between dirs') : Rearranged root fs dirs dirs'

/-! ## What is visited -/

/-- If a projection is defined on what `build` gives and on nothing else, a list of projections has
an element if the list has what is built from it. -/
theorem mem_filterMap_iff_build {α β : Type} {part : α → Option β} {build : β → α}
    (h : ∀ a b, part a = some b ↔ a = build b) {as : List α} {b : β} :
    b ∈ as.filterMap part ↔ build b ∈ as := by
  simp only [List.mem_filterMap, h, exists_eq_right]

theorem mem_paths : p ∈ paths stops ↔ .file p ∈ stops :=
  mem_filterMap_iff_build fun stop p => by cases stop <;> simp [Stop.path?]

theorem mem_filterMap_stop_missing? {dir : Path} :
    dir ∈ stops.filterMap Stop.missing? ↔ .missing dir ∈ stops :=
  mem_filterMap_iff_build fun stop dir => by cases stop <;> simp [Stop.missing?]

theorem mem_filterMap_entry_missing? {dir : Path} :
    dir ∈ record.filterMap Entry.missing? ↔ .missing dir ∈ record :=
  mem_filterMap_iff_build fun e dir => by cases e <;> simp [Entry.missing?]

/-- A run comes to the files below a configured directory. -/
theorem file_mem_stopsAt {dir : Path} :
    .file p ∈ stopsAt settings fs dir ↔ p ∈ filesBelow settings fs (settings.root.join dir) := by
  unfold stopsAt
  dsimp only
  split
  · simp
  · rename_i hdirectory
    rw [filesBelow_of_not_directory (by simpa using hdirectory)]
    simp

/-- At a directory below another one a run comes to nothing that it does not come to at that one. -/
theorem stopsAt_nested_subset (hfs : fs.root.WellFormed) {names more : List Segment}
    {place : Location} (hnames : ∀ name ∈ names, IsName name)
    (hplace : fs.locate (settings.root.join (ofParts [] names)) = .ok place)
    (hdirectory : HasDirectory fs.root (place ++ more))
    (hexists : fs.isDirectory (settings.root.join (ofParts [] (names ++ more))) = true) :
    stopsAt settings fs (ofParts [] (names ++ more)) ⊆ stopsAt settings fs (ofParts [] names) := by
  obtain ⟨bits, entries, hget⟩ := FileSystem.hasDirectory_iff.mp hdirectory
  have hmore : ∀ name ∈ more, ValidName name := fun name hname =>
    hfs.names hget name (List.mem_append_right _ hname)
  have hwalk := walk_below_subset hfs hplace hdirectory
  rw [below_join settings.root hnames hmore] at hwalk
  intro stop hstop
  cases stop with
  | missing dir =>
    rw [stopsAt, if_pos hexists] at hstop
    simp at hstop
  | file p =>
    rw [file_mem_stopsAt, mem_filesBelow] at hstop ⊢
    exact ⟨hwalk hexists hstop.1, hstop.2⟩

/-- A run comes to the same files and missing directories, whichever order they have. -/
theorem Rearranged.mem_stops (h : Rearranged settings.root fs dirs dirs')
    (hfs : fs.root.WellFormed) :
    stop ∈ dirs'.flatMap (stopsAt settings fs) ↔ stop ∈ dirs.flatMap (stopsAt settings fs) := by
  induction h with
  | permuted h => exact (h.flatMap_right _).mem_iff
  | repeated h =>
    rw [List.flatMap_cons, List.mem_append, or_iff_right_iff_imp]
    exact fun hstop => List.mem_flatMap.mpr ⟨_, h, hstop⟩
  | nested h hnames hplace hdirectory hexists =>
    rw [List.flatMap_cons, List.mem_append, or_iff_right_iff_imp]
    exact fun hstop => List.mem_flatMap.mpr
      ⟨_, h, stopsAt_nested_subset hfs hnames hplace hdirectory hexists hstop⟩
  | trans _ _ ih ih' => exact ih'.trans ih

/-- A run visits the same paths. -/
theorem Rearranged.mem_visited (h : Rearranged settings.root fs settings.dirs dirs')
    (hfs : fs.root.WellFormed) :
    p ∈ visited { settings with dirs := dirs' } fs ↔ p ∈ visited settings fs := by
  rw [← paths_stopsAt, ← paths_stopsAt, mem_paths, mem_paths]
  exact h.mem_stops hfs

/-- Files that are spelled alike still are. -/
theorem Rearranged.spelledAlike (h : Rearranged settings.root fs settings.dirs dirs')
    (hfs : fs.root.WellFormed) (halike : SpelledAlike settings fs) :
    SpelledAlike { settings with dirs := dirs' } fs :=
  fun p hp q hq => halike p ((h.mem_visited hfs).mp hp) q ((h.mem_visited hfs).mp hq)

/-- Directories that are spelled name by name still are. -/
theorem Rearranged.byNames (h : Rearranged settings.root fs dirs dirs')
    (hfs : fs.root.WellFormed) (hdirs : ∀ dir ∈ dirs, ByNames dir) :
    ∀ dir ∈ dirs', ByNames dir := by
  induction h with
  | permuted h => exact fun dir hdir => hdirs dir (h.mem_iff.mp hdir)
  | repeated h => exact List.forall_mem_cons.mpr ⟨hdirs _ h, hdirs⟩
  | nested h hnames hplace hdirectory hexists =>
    obtain ⟨bits, entries, hget⟩ := FileSystem.hasDirectory_iff.mp hdirectory
    refine List.forall_mem_cons.mpr ⟨⟨_, isName_append hnames fun name hname => ?_, rfl⟩, hdirs⟩
    exact hfs.names hget name (List.mem_append_right _ hname)
  | trans _ _ ih ih' => exact ih' (ih hdirs)

/-- If the directories are spelled name by name, visited paths that take the same steps are the
same. -/
theorem eq_of_same (hfs : fs.root.WellFormed) (hdirs : ∀ dir ∈ settings.dirs, ByNames dir)
    (hp : p ∈ visited settings fs) (hq : q ∈ visited settings fs) (h : p.same q = true) :
    p = q := by
  have hspelled {p : Path} (hp : p ∈ visited settings fs) :
      ∃ names, (∀ name ∈ names, IsName name) ∧ p = settings.root.join (ofParts [] names) := by
    obtain ⟨dir, hdir, place, walked, content, bits, rfl, -, -, hwalked, -⟩ :=
      exists_of_mem_visited hfs hp
    obtain ⟨start, hstart, rfl⟩ := hdirs dir hdir
    exact ⟨start ++ walked, isName_append hstart hwalked, below_join settings.root hstart hwalked⟩
  obtain ⟨names, hnames, rfl⟩ := hspelled hp
  obtain ⟨names', hnames', rfl⟩ := hspelled hq
  rw [Path.same, beq_iff_eq, Path.components_join _ hnames, Path.components_join _ hnames'] at h
  rw [Path.names_eq_of_append h]

/-- The agenda has every visited path that is not left out. -/
theorem mem_agenda_iff (hfs : fs.root.WellFormed) (hdirs : ∀ dir ∈ settings.dirs, ByNames dir) :
    p ∈ paths (agenda settings fs) ↔ p ∈ visited settings fs ∧ selects settings p = true := by
  refine ⟨of_mem_agenda, fun ⟨hvisited, hselects⟩ => ?_⟩
  obtain ⟨q, hq, hsame⟩ := exists_mem_agenda hvisited hselects
  rwa [eq_of_same hfs hdirs hvisited (of_mem_agenda hq).1 hsame]

/-- Paths on the agenda that denote the same file are the same. -/
theorem eq_of_denotes (hfs : fs.root.WellFormed) (hdirs : ∀ dir ∈ settings.dirs, ByNames dir)
    (halike : SpelledAlike settings fs) {location : Location} (hp : p ∈ paths (agenda settings fs))
    (hq : q ∈ paths (agenda settings fs)) (hdenotes : fs.Denotes p location)
    (hdenotes' : fs.Denotes q location) : p = q := by
  obtain ⟨hvisited, hselects⟩ := of_mem_agenda hp
  obtain ⟨hvisited', hselects'⟩ := of_mem_agenda hq
  exact eq_of_same hfs hdirs hvisited hvisited'
    (halike p hvisited q hvisited' hselects hselects' location hdenotes hdenotes')

/-- The agenda has no path twice. -/
theorem nodup_agenda (settings : Settings) (fs : FileSystem) :
    (paths (agenda settings fs)).Nodup := by
  refine (pairwise_unseen settings [] _).imp fun hne heq => ?_
  rw [heq, Path.same, beq_self_eq_true] at hne
  contradiction

/-- The files on the agenda are the same. -/
theorem Rearranged.perm_agenda (h : Rearranged settings.root fs settings.dirs dirs')
    (hfs : fs.root.WellFormed) (hdirs : ∀ dir ∈ settings.dirs, ByNames dir) :
    (paths (agenda { settings with dirs := dirs' } fs)).Perm (paths (agenda settings fs)) := by
  refine (List.perm_ext_iff_of_nodup (nodup_agenda _ fs) (nodup_agenda settings fs)).mpr fun p => ?_
  rw [mem_agenda_iff hfs (h.byNames hfs hdirs), mem_agenda_iff hfs hdirs]
  exact and_congr_left' (h.mem_visited hfs)

/-- The agenda has the directories that a run comes to and finds missing. -/
theorem missing_mem_agenda {dir : Path} :
    .missing dir ∈ agenda settings fs ↔
      .missing dir ∈ settings.dirs.flatMap (stopsAt settings fs) := by
  rw [← mem_filterMap_stop_missing?, agenda, filterMap_missing?_unseen,
    mem_filterMap_stop_missing?]

/-! ## The record -/

/-- If files are spelled alike and what is to be replaced is replaced, a run records what was to be
found at the start. -/
theorem entries_agenda_eq_found (hreplace : Faithful replace) (hfs : fs.root.WellFormed)
    (halike : SpelledAlike settings fs) (mode : RunMode)
    (hwrites : mode = .fix → WritesSucceed replace settings fs) :
    entries replace settings mode fs (agenda settings fs) =
      (agenda settings fs).map (Stop.found settings fs) := by
  cases mode with
  | check => exact entries_check fs (agenda settings fs)
  | fix =>
    exact entries_fix hreplace (candidates_agenda hfs) (pairwise_apart halike) (hwrites rfl)

/-- The files in the record of what is found at stops are the files among the stops. -/
theorem filter_isProcessed_found (settings : Settings) (fs : FileSystem) (stops : List Stop) :
    (stops.map (Stop.found settings fs)).filter Entry.isProcessed =
      (paths stops).map fun p => (Stop.file p).found settings fs := by
  induction stops with
  | nil => rfl
  | cons stop rest ih =>
    cases stop with
    | missing dir => exact ih
    | file p => exact congrArg ((Stop.file p).found settings fs :: ·) ih

/-- A directory is recorded as missing where it is among the stops. -/
theorem missing_mem_map_found {dir : Path} :
    .missing dir ∈ stops.map (Stop.found settings fs) ↔ .missing dir ∈ stops := by
  rw [List.mem_map]
  constructor
  · rintro ⟨stop, hstop, hfound⟩
    cases stop with
    | missing other =>
      obtain rfl := Entry.missing.inj hfound
      exact hstop
    | file => contradiction
  · exact fun h => ⟨_, h, rfl⟩

/-- Entries are counted among those for files. -/
theorem countP_filter_isProcessed {counts : Entry → Bool}
    (h : ∀ e, counts e = true → e.isProcessed = true) (record : List Entry) :
    (record.filter Entry.isProcessed).countP counts = record.countP counts := by
  rw [List.countP_filter]
  refine List.countP_congr fun e _ => ?_
  rw [Bool.and_eq_true, and_iff_left_iff_imp]
  exact h e

/-- What is listed are entries for files. -/
theorem filterMap_filter_isProcessed {α : Type} {part : Entry → Option α}
    (h : ∀ dir, part (.missing dir) = none) (record : List Entry) :
    (record.filter Entry.isProcessed).filterMap part = record.filterMap part := by
  rw [List.filterMap_filter]
  refine congrArg (List.filterMap · record) (funext fun e => ?_)
  cases e with
  | missing dir => exact (h dir).symm
  | processed => rfl

/-- The calls that are added up are those of entries for files. -/
theorem sum_calls_filter_isProcessed (record : List Entry) :
    ((record.filter Entry.isProcessed).map Entry.calls).sum = (record.map Entry.calls).sum := by
  induction record with
  | nil => rfl
  | cons e rest ih =>
    cases e with
    | missing dir =>
      rw [List.filter_cons_of_neg Bool.false_ne_true, ih, List.map_cons, List.sum_cons]
      exact (Nat.zero_add _).symm
    | processed p outcome =>
      rw [List.filter_cons_of_pos rfl, List.map_cons, List.sum_cons, ih, List.map_cons,
        List.sum_cons]

/-- Two summaries list the same files and directories and have the same figures, but for the order
of the files and for the order and repetition of the directories. -/
structure SameAccounts (s s' : Summary) : Prop where
  filesProcessed : s.filesProcessed = s'.filesProcessed
  filesModified : s.filesModified = s'.filesModified
  filesErrored : s.filesErrored = s'.filesErrored
  callsReplaced : s.callsReplaced = s'.callsReplaced
  modified : s.modified.Perm s'.modified
  failures : s.failures.Perm s'.failures
  missingDirs : ∀ dir, dir ∈ s.missingDirs ↔ dir ∈ s'.missingDirs

/-- Summaries of records that differ in the order of the files and in the order and repetition of
the missing directories. -/
theorem sameAccounts_foldl (s : Summary)
    (hfiles : (record'.filter Entry.isProcessed).Perm (record.filter Entry.isProcessed))
    (hmissing : ∀ dir, .missing dir ∈ record' ↔ .missing dir ∈ record) :
    SameAccounts (record'.foldl (Entry.enter settings) s)
      (record.foldl (Entry.enter settings) s) := by
  have hcount {counts : Entry → Bool} (h : ∀ e, counts e = true → e.isProcessed = true) :
      record'.countP counts = record.countP counts := by
    rw [← countP_filter_isProcessed h record', hfiles.countP_eq, countP_filter_isProcessed h]
  have hlist {α : Type} {part : Entry → Option α} (h : ∀ dir, part (.missing dir) = none) :
      (record'.filterMap part).Perm (record.filterMap part) := by
    rw [← filterMap_filter_isProcessed h record', ← filterMap_filter_isProcessed h record]
    exact hfiles.filterMap part
  have hsum : (record'.map Entry.calls).sum = (record.map Entry.calls).sum := by
    rw [← sum_calls_filter_isProcessed record', (hfiles.map Entry.calls).sum_nat,
      sum_calls_filter_isProcessed]
  exact {
    filesProcessed := by rw [filesProcessed_foldl, filesProcessed_foldl, hcount fun _ => id]
    filesModified := by
      rw [filesModified_foldl, filesModified_foldl, hcount]
      rintro (_ | _) h
      · contradiction
      · rfl
    filesErrored := by
      rw [filesErrored_foldl, filesErrored_foldl, hcount]
      rintro (_ | _) h
      · contradiction
      · rfl
    callsReplaced := by rw [callsReplaced_foldl, callsReplaced_foldl, hsum]
    modified := by
      rw [modified_foldl, modified_foldl]
      exact (hlist fun _ => rfl).append_left _
    failures := by
      rw [failures_foldl, failures_foldl]
      exact (hlist fun _ => rfl).append_left _
    missingDirs := fun dir => by
      rw [missingDirs_foldl, missingDirs_foldl, List.mem_append, List.mem_append,
        mem_filterMap_entry_missing?, mem_filterMap_entry_missing?, hmissing] }

/-! ## The files -/

/-- Runs with the same record of files, none of which is recorded by two paths, leave the same
files. -/
theorem filesAfter_eq_of_perm (hreplace : Faithful replace) (hfs : fs.root.WellFormed)
    (hstops : Candidates fs stops) (hstops' : Candidates fs stops')
    (honce : ∀ p ∈ paths stops, ∀ q ∈ paths stops, ∀ location, fs.Denotes p location →
      fs.Denotes q location → p = q)
    (hfiles : ∀ p outcome, .processed p outcome ∈ entries replace settings .fix fs stops' ↔
      .processed p outcome ∈ entries replace settings .fix fs stops) :
    filesAfter replace settings .fix fs stops' = filesAfter replace settings .fix fs stops := by
  have hplaces : SamePlaces (filesAfter replace settings .fix fs stops) fs :=
    filesAfter_samePlaces hreplace hstops
  have hplaces' : SamePlaces (filesAfter replace settings .fix fs stops') fs :=
    filesAfter_samePlaces hreplace hstops'
  have hmem {p : Path} {outcome : Outcome}
      (h : .processed p outcome ∈ entries replace settings .fix fs stops) : p ∈ paths stops := by
    have hpath : p ∈ (entries replace settings .fix fs stops).filterMap Entry.path? :=
      List.mem_filterMap.mpr ⟨_, h, rfl⟩
    rwa [filterMap_path?_entries] at hpath
  have hroot : (filesAfter replace settings .fix fs stops').root =
      (filesAfter replace settings .fix fs stops).root := by
    refine Node.eq_of_blank _ _ (hfs.of_blank hplaces'.blank) (hfs.of_blank hplaces.blank)
      (hplaces'.blank.trans hplaces.blank.symm) ?_
    intro location after bits hafter
    obtain ⟨content, hcontent⟩ := hplaces'.symm.exists_file hafter
    obtain ⟨new, hnew, heffect⟩ := filesAfter_effect settings hreplace hstops hcontent
    obtain ⟨new', hnew', heffect'⟩ := filesAfter_effect settings hreplace hstops' hcontent
    obtain ⟨rfl, -⟩ := Node.file.inj (Option.some.inj (hafter.symm.trans hnew'))
    suffices hsame : after = new from hsame ▸ hnew
    cases heffect with
    | kept hkept =>
      cases heffect' with
      | kept => rfl
      | sanitized p s hby hentry =>
        have := hkept p _ ((hfiles _ _).mp hentry) hby.denotes
        contradiction
    | sanitized p s hby hentry =>
      cases heffect' with
      | kept hkept =>
        have := hkept p _ ((hfiles _ _).mpr hentry) hby.denotes
        contradiction
      | sanitized q s' hby' hentry' =>
        -- The file was sanitised by one path in both runs.
        obtain rfl := honce p (hmem hentry) q (hmem ((hfiles _ _).mp hentry')) location
          hby.denotes hby'.denotes
        obtain ⟨t, ht, -, hs⟩ := hby.text
        obtain ⟨t', ht', -, hs'⟩ := hby'.text
        obtain rfl := encode_injective (ht.symm.trans ht')
        rw [Except.ok.inj (hs.symm.trans hs')]
  have hcwd := hplaces'.cwd.trans hplaces.cwd.symm
  generalize filesAfter replace settings .fix fs stops' = after' at hroot hcwd
  generalize filesAfter replace settings .fix fs stops = after at hroot hcwd
  obtain ⟨root, cwd⟩ := after
  obtain ⟨root', cwd'⟩ := after'
  dsimp only at hroot hcwd
  rw [hroot, hcwd]

/-! ## Whole runs -/

/-- What is carried out at a stop does not depend on the configured directories. -/
theorem carryOut_with_dirs (replace : Replacer) (settings : Settings) (mode : RunMode)
    (dirs' : List Path) :
    Stop.carryOut replace { settings with dirs := dirs' } mode =
      Stop.carryOut replace settings mode := by
  funext fs stop
  cases stop <;> rfl

theorem entries_with_dirs (dirs' : List Path) (fs : FileSystem) (stops : List Stop) :
    entries replace { settings with dirs := dirs' } mode fs stops =
      entries replace settings mode fs stops := by
  induction stops generalizing fs with
  | nil => rfl
  | cons stop rest ih => rw [entries_cons, entries_cons, ih, carryOut_with_dirs]

theorem filesAfter_with_dirs (dirs' : List Path) (fs : FileSystem) (stops : List Stop) :
    filesAfter replace { settings with dirs := dirs' } mode fs stops =
      filesAfter replace settings mode fs stops := by
  unfold filesAfter
  rw [carryOut_with_dirs]

theorem found_with_dirs (dirs' : List Path) (fs : FileSystem) :
    Stop.found { settings with dirs := dirs' } fs = Stop.found settings fs :=
  funext fun stop => by cases stop <;> rfl

theorem enter_with_dirs (dirs' : List Path) :
    Entry.enter { settings with dirs := dirs' } = Entry.enter settings :=
  funext fun s => funext fun e => by rcases e with _ | ⟨_, _ | _ | _ | _⟩ <;> rfl

/-- Let the configured directories be spelled name by name and no file be visited by two paths, and
let every file that is to be replaced be replaced. If directories are put in another order,
repeated or listed together with directories below them, a complete run leaves the same files and
has the same figures, and it lists the same files and missing directories. -/
theorem tree_rearranged (hreplace : Faithful replace) (hfs : fs.root.WellFormed)
    (hdirs : ∀ dir ∈ settings.dirs, ByNames dir) (halike : SpelledAlike settings fs)
    (hrearranged : Rearranged settings.root fs settings.dirs dirs') (mode : RunMode)
    (hwrites : mode = .fix → WritesSucceed replace settings fs)
    (hwrites' : mode = .fix → WritesSucceed replace { settings with dirs := dirs' } fs)
    (hopen : (tree replace settings mode fs output).output.failed = false)
    (hopen' : (tree replace { settings with dirs := dirs' } mode fs output').output.failed =
      false) :
    let run := tree replace settings mode fs output
    let run' := tree replace { settings with dirs := dirs' } mode fs output'
    run'.files = run.files ∧ SameAccounts run'.summary run.summary := by
  intro run run'
  have hagenda := hrearranged.perm_agenda hfs hdirs
  -- Both runs record what is found at the start.
  have hrecord := entries_agenda_eq_found hreplace hfs halike mode hwrites
  have hrecord' := entries_agenda_eq_found hreplace hfs (hrearranged.spelledAlike hfs halike) mode
    hwrites'
  rw [entries_with_dirs, found_with_dirs] at hrecord'
  have hperm : (((agenda { settings with dirs := dirs' } fs).map
        (Stop.found settings fs)).filter Entry.isProcessed).Perm
      (((agenda settings fs).map (Stop.found settings fs)).filter Entry.isProcessed) := by
    rw [filter_isProcessed_found, filter_isProcessed_found]
    exact hagenda.map _
  obtain ⟨hhistory, hfiles, hsummary⟩ := of_complete hreplace hfs hopen
  obtain ⟨hhistory', hfiles', hsummary'⟩ := of_complete hreplace hfs hopen'
  rw [entries_with_dirs, hrecord'] at hhistory'
  rw [hrecord] at hhistory
  rw [filesAfter_with_dirs] at hfiles'
  rw [hhistory] at hsummary
  rw [hhistory', enter_with_dirs] at hsummary'
  constructor
  · rw [hfiles, hfiles']
    cases mode with
    | check => rw [(entries_eq_found (.inl rfl)).2, (entries_eq_found (.inl rfl)).2]
    | fix =>
      refine filesAfter_eq_of_perm hreplace hfs (candidates_agenda hfs) (candidates_agenda hfs)
        (fun p hp q hq location => eq_of_denotes hfs hdirs halike hp hq) fun p outcome => ?_
      rw [hrecord, hrecord']
      simpa [Entry.isProcessed] using hperm.mem_iff (a := .processed p outcome)
  · rw [hsummary, hsummary']
    refine sameAccounts_foldl _ hperm fun dir => ?_
    rw [missing_mem_map_found, missing_mem_map_found, missing_mem_agenda, missing_mem_agenda]
    exact hrearranged.mem_stops hfs

/-- A working directory with two directories of one file each, the first of which is in a directory
of its own. -/
def nestedTree : FileSystem :=
  let directory (name : String) (below : Segment × Node) : Segment × Node :=
    ((Path.ofString name).bytes, .directory FileSystem.directoryMode [below])
  let calling (name : String) : Segment × Node :=
    ((Path.ofString name).bytes, .file (encode "console.log(1);\n".toList) 0o644)
  ⟨.directory FileSystem.directoryMode [directory "one" (directory "x" (calling "a.ts")),
    directory "two" (calling "b.ts")], []⟩

/-- The directories come the other way round, the missing one is listed twice, and the inner one is
scanned before the outer one. -/
theorem tree_rearranged_of_nested :
    let settings := sampleSettings "" ["one", "lost", "two"] []
    let dirs' := ["lost", "two", "one/x", "one", "lost"].map Path.ofString
    let run := tree FileSystem.replace settings .fix nestedTree {}
    let run' := tree FileSystem.replace { settings with dirs := dirs' } .fix nestedTree {}
    run'.files = run.files ∧ SameAccounts run'.summary run.summary ∧
      run.summary.modified = [.ofString "one/x/a.ts", .ofString "two/b.ts"] ∧
      run'.summary.modified = [.ofString "two/b.ts", .ofString "one/x/a.ts"] ∧
      run'.summary.missingDirs = [.ofString "lost", .ofString "lost"] := by
  intro settings dirs' run run'
  have hfs : nestedTree.root.WellFormed := Node.wellFormed_of_all (by decide +kernel)
  have hdirs : ∀ dir ∈ settings.dirs, ByNames dir := by
    have hname {s : String} (h : ValidName (Path.ofString s).bytes)
        (hspelled : Path.ofString s = ofParts [] [(Path.ofString s).bytes]) :
        ByNames (.ofString s) :=
      ⟨_, List.forall_mem_singleton.mpr h.isName, hspelled⟩
    intro dir hdir
    obtain rfl | rfl | rfl : dir = .ofString "one" ∨ dir = .ofString "lost" ∨
        dir = .ofString "two" := by
      simpa [settings, sampleSettings] using hdir
    · exact hname (by decide) (by decide)
    · exact hname (by decide) (by decide)
    · exact hname (by decide) (by decide)
  have halike : SpelledAlike settings nestedTree := by
    have hvisited : visited settings nestedTree =
        [.ofString "one/x/a.ts", .ofString "two/b.ts"] := by
      decide +kernel
    have hfirst : nestedTree.Denotes (.ofString "one/x/a.ts")
        (["one", "x", "a.ts"].map fun name => (Path.ofString name).bytes) := rfl
    have hsecond : nestedTree.Denotes (.ofString "two/b.ts") (filePlace "two" "b.ts") := rfl
    have hne : (["one", "x", "a.ts"].map fun name => (Path.ofString name).bytes) ≠
        filePlace "two" "b.ts" := by decide
    intro p hp q hq _ _ location hdenotes hdenotes'
    rw [hvisited, List.mem_pair] at hp hq
    rcases hp with rfl | rfl <;> rcases hq with rfl | rfl
    · exact beq_self_eq_true _
    · exact absurd ((hfirst.unique hdenotes).trans (hdenotes'.unique hsecond)) hne
    · exact absurd ((hfirst.unique hdenotes').trans (hdenotes.unique hsecond)) hne
    · exact beq_self_eq_true _
  have hrearranged : Rearranged settings.root nestedTree settings.dirs dirs' := by
    let one : List Segment := [(Path.ofString "one").bytes]
    let inner : List Segment := [(Path.ofString "x").bytes]
    have hone : ∀ name ∈ one, IsName name :=
      List.forall_mem_singleton.mpr (ValidName.isName (by decide))
    have hplace : nestedTree.locate (settings.root.join (ofParts [] one)) = .ok one := rfl
    have hdirectory : HasDirectory nestedTree.root (one ++ inner) :=
      FileSystem.hasDirectory_iff.mpr ⟨_, _, rfl⟩
    have hinner : Rearranged settings.root nestedTree settings.dirs
        (ofParts [] (one ++ inner) :: settings.dirs) :=
      .nested (by decide) hone hplace hdirectory (by decide)
    have hagain : Rearranged settings.root nestedTree (ofParts [] (one ++ inner) :: settings.dirs)
        (.ofString "lost" :: ofParts [] (one ++ inner) :: settings.dirs) :=
      .repeated (by decide)
    exact (hinner.trans hagain).trans (.permuted (by decide))
  have hwrites : WritesSucceed FileSystem.replace settings nestedTree := by
    have hrecord : entries FileSystem.replace settings .fix nestedTree
        (agenda settings nestedTree) =
          [.processed (.ofString "one/x/a.ts") (.modified 1 .unanchored),
            .missing (.ofString "lost"),
            .processed (.ofString "two/b.ts") (.modified 1 .unanchored)] := by
      decide +kernel
    intro path e
    rw [hrecord]
    simp
  have hwrites' : WritesSucceed FileSystem.replace { settings with dirs := dirs' } nestedTree := by
    have hrecord : entries FileSystem.replace { settings with dirs := dirs' } .fix nestedTree
        (agenda { settings with dirs := dirs' } nestedTree) =
          [.missing (.ofString "lost"),
            .processed (.ofString "two/b.ts") (.modified 1 .unanchored),
            .processed (.ofString "one/x/a.ts") (.modified 1 .unanchored),
            .missing (.ofString "lost")] := by
      decide +kernel
    intro path e
    rw [hrecord]
    simp
  have hopen : run.output.failed = false := by decide +kernel
  have hopen' : run'.output.failed = false := by decide +kernel
  obtain ⟨hfiles, hsame⟩ := tree_rearranged faithful_replace hfs hdirs halike hrearranged .fix
    (fun _ => hwrites) (fun _ => hwrites') hopen hopen'
  exact ⟨hfiles, hsame, by decide +kernel, by decide +kernel, by decide +kernel⟩

end LogGuard.Run
