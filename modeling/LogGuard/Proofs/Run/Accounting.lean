import LogGuard.Proofs.Run.Deduplication
import LogGuard.Proofs.Run.Interruption
import Mathlib.Data.List.Dedup

/-!
# The accounts of a run

What the summary of a complete run says and what the run has printed are two readings of one record,
whose entries are those for the agenda in its order (`map_stop_entries`). The files processed are
the visited ones that are not left out, each spelling of a path being counted once
(`length_agenda`). Each of them was changed, has failed or is clean (`countP_isProcessed_eq`). No
file is listed twice: the agenda has no two paths with the same steps, and seen from the root
different visited paths stay different (`same_of_relative`).
-/

namespace LogGuard.Run

variable {replace : Replacer} {settings : Settings} {mode : RunMode} {fs : FileSystem}
  {output : Output} {stops : List Stop} {record : List Entry} {p q : Path}

/-- The directory that a run reports missing at a stop. -/
def Stop.missing? : Stop → Option Path
  | missing dir => some dir
  | file _ => none

namespace Entry

/-- The stop that an entry is about. -/
def stop : Entry → Stop
  | missing dir => .missing dir
  | processed path _ => .file path

/-- Whether a file was found to have no call. -/
def isClean : Entry → Bool
  | processed _ .clean => true
  | _ => false

/-- Two entries are not about paths with the same steps. -/
def Apart (e e' : Entry) : Prop :=
  ∀ p, e.path? = some p → ∀ q, e'.path? = some q → p.same q = false

theorem Apart.symm {e e' : Entry} (h : e.Apart e') : e'.Apart e := fun p hp q hq => by
  rw [← h q hq p hp]
  exact Bool.beq_comm

instance : Std.Symm Apart :=
  ⟨fun _ _ => Apart.symm⟩

end Entry

/-! ## Paths seen from the root -/

/-- A visited path takes the steps of the root and then those by which it is seen from there, or it
is absolute and seen as it is. -/
theorem components_relative (hfs : fs.root.WellFormed) (h : p ∈ visited settings fs) :
    p.components = settings.root.components ++ (relative settings p).components ∨
      settings.root.components ≠ [] ∧ relative settings p = p ∧
        ∃ rest, p.components = .root :: rest := by
  unfold relative
  rcases hstrip : Path.stripPrefix? settings.root p with _ | q
  · refine .inr ?_
    have hprefix := Path.stripPrefix?_eq_none_iff.mp hstrip
    have hroot : settings.root.components ≠ [] := fun hnil => hprefix (hnil ▸ List.nil_prefix)
    have hbytes : settings.root.bytes ≠ [] := fun hnil => hroot (Path.components_of_nil hnil)
    obtain ⟨dir, -, directory, names, content, bits, rfl, hlocate, -, hnames, -⟩ :=
      exists_of_mem_visited hfs h
    obtain ⟨hzero, hne, -⟩ := FileSystem.pathError?_eq_none.mp (follow_of_locate hlocate).1
    rw [components_below hne hzero hnames] at hprefix ⊢
    -- Only an absolute directory leads out of the root.
    cases habsolute : dir.isAbsolute with
    | true =>
      have hjoin : settings.root.join dir = dir := by
        rw [Path.join, habsolute, Bool.true_or, if_pos rfl]
      exact ⟨hroot, rfl, _, by rw [hjoin, Path.components_of_isAbsolute habsolute]; rfl⟩
    | false =>
      rw [Path.components_join_of_relative hbytes habsolute, List.append_assoc] at hprefix
      exact absurd (List.prefix_append _ _) hprefix
  · exact .inl (Path.components_of_stripPrefix? hstrip)

/-- Visited paths that take the same steps seen from the root take the same steps. -/
theorem same_of_relative (hfs : fs.root.WellFormed) (hp : p ∈ visited settings fs)
    (hq : q ∈ visited settings fs)
    (h : (relative settings p).same (relative settings q) = true) : p.same q = true := by
  -- After the steps of the root, none leads to the root of the file system.
  have hmixed {p q : Path} (hroot : settings.root.components ≠ [])
      (hp : p.components = settings.root.components ++ (relative settings p).components)
      (hq : ∃ rest, (relative settings q).components = .root :: rest) :
      (relative settings p).components ≠ (relative settings q).components := by
    intro hsame
    obtain ⟨rest, hrest⟩ := hq
    rw [hsame, hrest] at hp
    exact hroot (Path.eq_nil_of_components_root hp)
  unfold Path.same at h ⊢
  rw [beq_iff_eq] at h ⊢
  rcases components_relative hfs hp with hp' | ⟨hroot, hp_self, hp_root⟩ <;>
    rcases components_relative hfs hq with hq' | ⟨hroot', hq_self, hq_root⟩
  · rw [hp', hq', h]
  · exact absurd h (hmixed hroot' hp' (hq_self.symm ▸ hq_root))
  · exact absurd h.symm (hmixed hroot hq' (hp_self.symm ▸ hp_root))
  · rwa [hp_self, hq_self] at h

/-! ## The agenda -/

/-- Passing by files keeps the directories that are missing. -/
theorem filterMap_missing?_unseen (seen : List Path) (stops : List Stop) :
    (unseen settings seen stops).filterMap Stop.missing? = stops.filterMap Stop.missing? := by
  induction stops generalizing seen with
  | nil => rfl
  | cons stop rest ih =>
    cases stop with
    | missing dir => exact congrArg (dir :: ·) (ih seen)
    | file path =>
      rw [unseen]
      split
      · exact ih (path :: seen)
      · exact ih seen

/-- What a run reports missing are the configured directories that are none. -/
theorem filterMap_missing?_agenda (settings : Settings) (fs : FileSystem) :
    (agenda settings fs).filterMap Stop.missing? =
      (settings.dirs.map settings.root.join).filter fun dir => !fs.isDirectory dir := by
  rw [agenda, filterMap_missing?_unseen]
  induction settings.dirs with
  | nil => rfl
  | cons dir rest ih =>
    rw [List.flatMap_cons, List.filterMap_append, ih, List.map_cons]
    cases hdirectory : fs.isDirectory (settings.root.join dir) with
    | true =>
      have hnone : (stopsAt settings fs dir).filterMap Stop.missing? = [] := by
        simp [stopsAt, hdirectory, Stop.missing?]
      rw [hnone, List.filter_cons_of_neg (by simp [hdirectory]), List.nil_append]
    | false =>
      rw [stopsAt, hdirectory, List.filter_cons_of_pos (by simp [hdirectory])]
      rfl

/-- The agenda has as many files as there are visited ones that are not left out, where paths with
the same steps are counted once. -/
theorem length_agenda (settings : Settings) (fs : FileSystem) :
    (paths (agenda settings fs)).length =
      (((visited settings fs).filter (selects settings)).map Path.components).dedup.length := by
  have hnodup : ((paths (agenda settings fs)).map Path.components).Nodup := by
    rw [List.Nodup, List.pairwise_map]
    exact (pairwise_unseen settings [] _).imp fun hne => Ne.symm (beq_eq_false_iff_ne.mp hne)
  have hmem (steps : List Component) :
      steps ∈ (paths (agenda settings fs)).map Path.components ↔
        steps ∈ (((visited settings fs).filter (selects settings)).map Path.components).dedup := by
    rw [List.mem_dedup, List.mem_map, List.mem_map]
    constructor
    · rintro ⟨p, hp, rfl⟩
      exact ⟨p, List.mem_filter.mpr (of_mem_agenda hp), rfl⟩
    · rintro ⟨p, hp, rfl⟩
      obtain ⟨hvisited, hselects⟩ := List.mem_filter.mp hp
      obtain ⟨q, hq, hsame⟩ := exists_mem_agenda hvisited hselects
      exact ⟨q, hq, (beq_iff_eq.mp hsame).symm⟩
  rw [← ((List.perm_ext_iff_of_nodup hnodup (List.nodup_dedup _)).mpr hmem).length_eq,
    List.length_map]

/-! ## The record -/

/-- The entries of a record are about the stops, in order. -/
theorem map_stop_entries (fs : FileSystem) (stops : List Stop) :
    (entries replace settings mode fs stops).map Entry.stop = stops := by
  induction stops generalizing fs with
  | nil => rfl
  | cons stop rest ih =>
    rw [entries_cons, List.map_cons, ih]
    cases stop <;> rfl

/-- The directories recorded as missing are those among the stops. -/
theorem filterMap_missing?_entries (fs : FileSystem) (stops : List Stop) :
    (entries replace settings mode fs stops).filterMap Entry.missing? =
      stops.filterMap Stop.missing? := by
  have hpart : Entry.missing? = Stop.missing? ∘ Entry.stop := funext fun e => by cases e <;> rfl
  rw [hpart, ← List.filterMap_map, map_stop_entries]

/-- A file that was processed was changed, has failed or is clean. -/
theorem countP_isProcessed_eq (fs : FileSystem) (stops : List Stop) :
    (entries replace settings mode fs stops).countP Entry.isProcessed =
      (entries replace settings mode fs stops).countP Entry.isModified +
        (entries replace settings mode fs stops).countP Entry.isFailed +
          (entries replace settings mode fs stops).countP Entry.isClean := by
  induction stops generalizing fs with
  | nil => rfl
  | cons stop rest ih =>
    rw [entries_cons]
    simp only [List.countP_cons, ih]
    cases stop with
    | missing dir =>
      simp [Stop.carryOut, Entry.isProcessed, Entry.isModified, Entry.isFailed, Entry.isClean]
    | file path =>
      have hstep := file_step replace settings mode path fs
      rw [Stop.carryOut]
      generalize (file replace settings mode path fs).outcome = outcome at hstep ⊢
      generalize (file replace settings mode path fs).files = after at hstep ⊢
      cases hstep <;> simp [Entry.isProcessed, Entry.isModified, Entry.isFailed, Entry.isClean,
        isModified] <;> omega

/-- As many files are listed as changed as there are entries for them. -/
theorem length_filterMap_modified? (settings : Settings) (record : List Entry) :
    (record.filterMap (Entry.modified? settings)).length = record.countP Entry.isModified := by
  rw [List.length_filterMap_eq_countP]
  refine List.countP_congr fun e _ => ?_
  rcases e with _ | ⟨_, _ | _ | _ | _⟩ <;>
    simp [Entry.modified?, Entry.isModified, isModified]

/-- As many files are listed as failed as there are entries for them. -/
theorem length_filterMap_failure? (record : List Entry) :
    (record.filterMap Entry.failure?).length = record.countP Entry.isFailed := by
  rw [List.length_filterMap_eq_countP]
  refine List.countP_congr fun e _ => ?_
  rcases e with _ | ⟨_, _ | _ | _ | _⟩ <;> simp [Entry.failure?, Entry.isFailed]

/-- The lines that are printed for a record are those for missing directories, changed files and
failures. -/
theorem length_filterMap_line? (settings : Settings) (mode : RunMode) (record : List Entry) :
    (record.filterMap (Entry.line? settings mode)).length =
      (record.filterMap Entry.missing?).length + record.countP Entry.isModified +
        record.countP Entry.isFailed := by
  simp only [List.length_filterMap_eq_countP]
  induction record with
  | nil => rfl
  | cons e rest ih =>
    simp only [List.countP_cons, ih]
    rcases e with _ | ⟨_, _ | _ | _ | _⟩ <;>
      simp [Entry.line?, Entry.missing?, Entry.isModified, Entry.isFailed, isModified] <;> omega

/-- No two entries of a complete record are about paths with the same steps. -/
theorem pairwise_entries (replace : Replacer) (settings : Settings) (mode : RunMode)
    (fs : FileSystem) :
    (entries replace settings mode fs (agenda settings fs)).Pairwise Entry.Apart := by
  have hpaths : ((entries replace settings mode fs (agenda settings fs)).filterMap
      Entry.path?).Pairwise fun p q => q.same p = false := by
    rw [filterMap_path?_entries]
    exact pairwise_unseen settings [] _
  exact (List.pairwise_filterMap.mp hpaths).imp fun {e e'} hne =>
    Entry.Apart.symm fun p hp q hq => hne q hq p hp

/-- The files in a complete record are visited. -/
theorem mem_visited_of_mem_entries {e : Entry}
    (h : e ∈ entries replace settings mode fs (agenda settings fs)) (hp : e.path? = some p) :
    p ∈ visited settings fs := by
  have hpath : p ∈ (entries replace settings mode fs (agenda settings fs)).filterMap Entry.path? :=
    List.mem_filterMap.mpr ⟨e, h, hp⟩
  rw [filterMap_path?_entries] at hpath
  exact (of_mem_agenda hpath).1

/-- A path is listed as changed for an entry that says so. -/
theorem exists_of_modified? {e : Entry} (h : e.modified? settings = some q) :
    ∃ p calls status, e = .processed p (.modified calls status) ∧ relative settings p = q := by
  unfold Entry.modified? at h
  split at h
  · exact ⟨_, _, _, rfl, Option.some.inj h⟩
  · contradiction

/-- A path is listed with a failure for an entry that says so. -/
theorem exists_of_failure? {e : Entry} {failure : FileFailure} (h : e.failure? = some failure) :
    ∃ cause, e = .processed failure.path (.failed cause) := by
  unfold Entry.failure? at h
  split at h
  · obtain rfl := Option.some.inj h
    exact ⟨_, rfl⟩
  · contradiction

/-- Different files of a complete record are different when they are seen from the root. -/
theorem relative_same_of_mem_entries (hfs : fs.root.WellFormed) {e e' : Entry}
    (he : e ∈ entries replace settings mode fs (agenda settings fs))
    (he' : e' ∈ entries replace settings mode fs (agenda settings fs)) (hp : e.path? = some p)
    (hq : e'.path? = some q) (hne : p.same q = false) :
    (relative settings p).same (relative settings q) = false := by
  by_contra hsame
  rw [same_of_relative hfs (mem_visited_of_mem_entries he hp) (mem_visited_of_mem_entries he' hq)
    (by simpa using hsame)] at hne
  contradiction

/-- No file is listed twice as changed. -/
theorem pairwise_modified (replace : Replacer) (settings : Settings) (mode : RunMode)
    (hfs : fs.root.WellFormed) :
    ((entries replace settings mode fs (agenda settings fs)).filterMap
      (Entry.modified? settings)).Pairwise fun p q => p.same q = false := by
  rw [List.pairwise_filterMap]
  refine (pairwise_entries replace settings mode fs).imp_of_mem ?_
  intro e e' he he' hne rel hrel rel' hrel'
  obtain ⟨p, calls, status, rfl, rfl⟩ := exists_of_modified? hrel
  obtain ⟨q, calls', status', rfl, rfl⟩ := exists_of_modified? hrel'
  exact relative_same_of_mem_entries hfs he he' rfl rfl (hne p rfl q rfl)

/-- No file is listed twice as failed. -/
theorem pairwise_failures (replace : Replacer) (settings : Settings) (mode : RunMode)
    (fs : FileSystem) :
    ((entries replace settings mode fs (agenda settings fs)).filterMap Entry.failure?).Pairwise
      fun failure other => failure.path.same other.path = false := by
  rw [List.pairwise_filterMap]
  refine (pairwise_entries replace settings mode fs).imp ?_
  intro e e' hne failure hfailure other hother
  obtain ⟨cause, rfl⟩ := exists_of_failure? hfailure
  obtain ⟨cause', rfl⟩ := exists_of_failure? hother
  exact hne _ rfl _ rfl

/-- No file is listed both as changed and as failed. -/
theorem modified_ne_failure (hfs : fs.root.WellFormed) {failure : FileFailure}
    (hq : q ∈ (entries replace settings mode fs (agenda settings fs)).filterMap
      (Entry.modified? settings))
    (hfailure : failure ∈ (entries replace settings mode fs (agenda settings fs)).filterMap
      Entry.failure?) : q.same (relative settings failure.path) = false := by
  obtain ⟨e, he, hmodified⟩ := List.mem_filterMap.mp hq
  obtain ⟨e', he', hfailed⟩ := List.mem_filterMap.mp hfailure
  obtain ⟨p, calls, status, rfl, rfl⟩ := exists_of_modified? hmodified
  obtain ⟨cause, rfl⟩ := exists_of_failure? hfailed
  refine relative_same_of_mem_entries hfs he he' rfl rfl ?_
  exact (pairwise_entries replace settings mode fs).forall he he' (by simp) p rfl _ rfl

/-! ## The summary and what is printed -/

/-- What a run has reported, its summary and what it has printed after what was on its output
before, accounts for a record. -/
structure Accounts (settings : Settings) (mode : RunMode) (fs : FileSystem) (output : Output)
    (record : List Entry) (run : State) : Prop where
  /-- There is one entry for each stop, in the order in which the run comes to them. -/
  stops : record.map Entry.stop = agenda settings fs
  /-- Files are counted that are visited and not left out, and paths with the same steps once. -/
  processed : run.summary.filesProcessed =
    (((visited settings fs).filter (selects settings)).map Path.components).dedup.length
  modified : run.summary.filesModified = run.summary.modified.length
  errored : run.summary.filesErrored = run.summary.failures.length
  /-- A file that was neither changed nor has failed is clean. -/
  clean : run.summary.filesProcessed =
    run.summary.filesModified + run.summary.filesErrored + record.countP Entry.isClean
  calls : run.summary.callsReplaced = (record.map Entry.calls).sum
  listed_modified : run.summary.modified = record.filterMap (Entry.modified? settings)
  listed_failures : run.summary.failures = record.filterMap Entry.failure?
  modified_once : run.summary.modified.Pairwise fun p q => p.same q = false
  failed_once : run.summary.failures.Pairwise fun failure other =>
    failure.path.same other.path = false
  /-- No file is listed both as changed and as failed. -/
  not_both : ∀ p ∈ run.summary.modified, ∀ failure ∈ run.summary.failures,
    p.same (relative settings failure.path) = false
  /-- The missing directories are the configured ones that are none, in order. -/
  missing : run.summary.missingDirs =
    (settings.dirs.map settings.root.join).filter fun dir => !fs.isDirectory dir
  /-- The lines for the entries are printed in order. -/
  printed : run.output.printed =
    output.printed ++ (record.filterMap (Entry.line? settings mode)).flatMap Output.lineBytes
  /-- There is one line for each missing directory, changed file and failure. -/
  lines : (record.filterMap (Entry.line? settings mode)).length =
    run.summary.missingDirs.length + run.summary.modified.length + run.summary.failures.length

/-- A complete run accounts for its record. -/
theorem tree_accounts (settings : Settings) (hreplace : Faithful replace)
    (hfs : fs.root.WellFormed) (mode : RunMode) (output : Output)
    (hopen : (tree replace settings mode fs output).output.failed = false) :
    Accounts settings mode fs output (history replace settings mode fs output)
      (tree replace settings mode fs output) := by
  obtain ⟨hrecord, -, hsummary⟩ := of_complete hreplace hfs hopen
  have houtput := (tree_carriesOut replace settings mode hreplace hfs output).output
  rw [hrecord] at hsummary ⊢
  generalize tree replace settings mode fs output = run at hopen hsummary houtput ⊢
  have hprocessed : run.summary.filesProcessed =
      (entries replace settings mode fs (agenda settings fs)).countP Entry.isProcessed := by
    rw [hsummary, filesProcessed_foldl, Nat.zero_add]
  have hchanged : run.summary.filesModified =
      (entries replace settings mode fs (agenda settings fs)).countP Entry.isModified := by
    rw [hsummary, filesModified_foldl, Nat.zero_add]
  have hfailed : run.summary.filesErrored =
      (entries replace settings mode fs (agenda settings fs)).countP Entry.isFailed := by
    rw [hsummary, filesErrored_foldl, Nat.zero_add]
  have hmodified : run.summary.modified =
      (entries replace settings mode fs (agenda settings fs)).filterMap
        (Entry.modified? settings) := by
    rw [hsummary, modified_foldl, List.nil_append]
  have hfailures : run.summary.failures =
      (entries replace settings mode fs (agenda settings fs)).filterMap Entry.failure? := by
    rw [hsummary, failures_foldl, List.nil_append]
  have hmissing : run.summary.missingDirs =
      (entries replace settings mode fs (agenda settings fs)).filterMap Entry.missing? := by
    rw [hsummary, missingDirs_foldl, List.nil_append]
  exact {
    stops := map_stop_entries fs _
    processed := by rw [hprocessed, countP_isProcessed, length_agenda]
    modified := by rw [hchanged, hmodified, length_filterMap_modified?]
    errored := by rw [hfailed, hfailures, length_filterMap_failure?]
    clean := by rw [hprocessed, hchanged, hfailed, countP_isProcessed_eq]
    calls := by rw [hsummary, callsReplaced_foldl, Nat.zero_add]
    listed_modified := hmodified
    listed_failures := hfailures
    modified_once := hmodified ▸ pairwise_modified replace settings mode hfs
    failed_once := hfailures ▸ pairwise_failures replace settings mode fs
    not_both := by
      rw [hmodified, hfailures]
      exact fun p hp failure hfailure => modified_ne_failure hfs hp hfailure
    missing := by rw [hmissing, filterMap_missing?_entries, filterMap_missing?_agenda]
    printed := by
      rw [houtput] at hopen ⊢
      rw [printed_foldl_print hopen, recordBytes_eq_flatMap]
      rfl
    lines := by
      rw [length_filterMap_line?, hmissing, hmodified, hfailures, length_filterMap_modified?,
        length_filterMap_failure?] }

/-- One file is changed, one is not UTF-8, and a directory between them is missing. The first
directory is listed twice, and what is below it is processed once. -/
theorem tree_accounts_of_failure :
    let settings := sampleSettings "" ["one", "lost", "two", "one//"] []
    let fs := twoFileTree (encode "console.log(1);\n".toList) ⟨#[0xC3, 0x28]⟩
    let run := tree FileSystem.replace settings .fix fs {}
    Accounts settings .fix fs {} (history FileSystem.replace settings .fix fs {}) run ∧
      run.summary.filesProcessed = 2 ∧ run.summary.modified = [.ofString "one/a.ts"] ∧
      run.summary.failures.map FileFailure.path = [.ofString "two/b.ts"] ∧
      run.summary.missingDirs = [.ofString "lost"] := by
  intro settings fs run
  have hfs : fs.root.WellFormed := Node.wellFormed_of_all (by decide +kernel)
  exact ⟨tree_accounts settings faithful_replace hfs .fix {} (by decide +kernel),
    by decide +kernel, by decide +kernel, by decide +kernel, by decide +kernel⟩

end LogGuard.Run
