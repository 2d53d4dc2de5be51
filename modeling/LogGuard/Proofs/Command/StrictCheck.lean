import LogGuard.Proofs.Command.Execution
import LogGuard.Proofs.Run.Record
import LogGuard.Proofs.Run.Unbounded
import Mathlib.Data.List.Pairwise

/-!
# Strict checks

A strict check succeeds exactly if every file that a run comes to (`Target`) can be read and has no
call (`strict_check_iff`). Nothing else can become of a file: one with a call is recorded as changed
or as failed, and one that cannot be read as failed (`isSettled_file`). A run that changes files has
nothing to do under the same condition, since it changes nothing before it comes to a file that
violates it (`forall_isSettled`). A file is read by the first of the paths that lead to it; by the
others it reads the same unless they are too long to be followed (`forall_callFree_iff`).
-/

namespace LogGuard

namespace Run

variable {replace : Replacer} {settings : Settings} {mode : RunMode} {fs : FileSystem}
  {output : Output} {stop : Stop} {stops : List Stop} {record : List Entry} {p : Path}

/-- The path can be read, and the text has no call. -/
def CallFree (fs : FileSystem) (p : Path) : Prop :=
  ∃ t, fs.readText p = .ok t ∧ Call.occursIn t.toList = false

/-- A regular file below a configured directory that has an accepted extension and is neither
excluded nor the safety module, by a path by which a run comes to it. -/
structure Target (settings : Settings) (fs : FileSystem) (p : Path) : Prop where
  walked : ∃ dir ∈ settings.dirs, .file p ∈ fs.walk (settings.root.join dir)
  accepted : settings.accepts p = true
  not_excluded : settings.isExcluded (relative settings p) = false
  not_module : settings.isSafetyModule (relative settings p) = false

/-- No file was changed or could not be processed. -/
def Entry.IsSettled (e : Entry) : Prop :=
  e.isModified = false ∧ e.isFailed = false

/-! ## The record -/

/-- Neither a change nor a failure is recorded for a file exactly if it can be read and has no
call. -/
theorem isSettled_file :
    (Entry.processed p (file replace settings mode p fs).outcome).IsSettled ↔ CallFree fs p := by
  have hcalling {t : String} (hread : fs.readText p = .ok t)
      (hcall : Call.occursIn t.toList = true) : ¬CallFree fs p := by
    rintro ⟨t', hread', hfree⟩
    obtain rfl := Except.ok.inj (hread.symm.trans hread')
    rw [hfree] at hcall
    contradiction
  -- Each way in which processing a file can end is a change or a failure, or the file has no call.
  have hstep := file_step replace settings mode p fs
  generalize (file replace settings mode p fs).outcome = outcome at hstep ⊢
  generalize (file replace settings mode p fs).files = after at hstep
  cases hstep with
  | clean hread hcall => exact iff_of_true ⟨rfl, rfl⟩ ⟨_, hread, hcall⟩
  | unreadable hread =>
    refine iff_of_false (fun h => Bool.noConfusion h.2) ?_
    rintro ⟨t, hread', -⟩
    rw [hread] at hread'
    contradiction
  | unresolved hread hcall =>
    exact iff_of_false (fun h => Bool.noConfusion h.2) (hcalling hread hcall)
  | notReplaced hread hcall =>
    exact iff_of_false (fun h => Bool.noConfusion h.2) (hcalling hread hcall)
  | examined hread hcall =>
    exact iff_of_false (fun h => Bool.noConfusion h.1) (hcalling hread hcall)
  | replaced hread hcall =>
    exact iff_of_false (fun h => Bool.noConfusion h.1) (hcalling hread hcall)

/-- The same for any stop. -/
theorem isSettled_carryOut :
    (stop.carryOut replace settings mode fs).1.IsSettled ↔
      ∀ q, stop = .file q → CallFree fs q := by
  cases stop with
  | missing dir => exact iff_of_true ⟨rfl, rfl⟩ fun q heq => by contradiction
  | file path =>
    refine isSettled_file.trans ⟨fun h q heq => ?_, fun h => h path rfl⟩
    exact Stop.file.inj heq ▸ h

/-- A stop at which no change is recorded changes nothing. -/
theorem carryOut_snd_of_isSettled (h : (stop.carryOut replace settings mode fs).1.IsSettled) :
    (stop.carryOut replace settings mode fs).2 = fs := by
  cases stop with
  | missing dir => rfl
  | file path => exact (file_step replace settings mode path fs).files_eq (.inr h.1)

/-- Neither changes nor failures are recorded at stops exactly if the files there can be read and
have no call. -/
theorem forall_isSettled :
    (∀ e ∈ entries replace settings mode fs stops, e.IsSettled) ↔
      ∀ p ∈ paths stops, CallFree fs p := by
  -- As long as all entries are settled, the file system is the one at the start.
  induction stops with
  | nil => exact iff_of_true (fun e he => by contradiction) (fun p hp => by contradiction)
  | cons stop rest ih =>
    rw [entries_cons, List.forall_mem_cons, forall_paths_cons, isSettled_carryOut]
    refine and_congr_right fun hfirst => ?_
    rw [carryOut_snd_of_isSettled (isSettled_carryOut.mpr hfirst), ih]

/-! ## The summary -/

variable (settings)

/-- Nothing is counted as changed or as failed exactly if all entries are settled. -/
theorem counters_eq_zero_iff (record : List Entry) (b : Bool) :
    let s := record.foldl (Entry.enter settings) { dryRun := b }
    s.filesModified = 0 ∧ s.filesErrored = 0 ↔ ∀ e ∈ record, e.IsSettled := by
  intro s
  have hmodified : s.filesModified = 0 + record.countP Entry.isModified :=
    filesModified_foldl record _
  have herrored : s.filesErrored = 0 + record.countP Entry.isFailed :=
    filesErrored_foldl record _
  rw [hmodified, herrored, Nat.zero_add, Nat.zero_add, List.countP_eq_zero, List.countP_eq_zero,
    ← forall₂_and]
  simp only [Bool.not_eq_true, Entry.IsSettled]

/-- Nothing is listed as changed or as failed exactly if all entries are settled. -/
theorem lists_eq_nil_iff (record : List Entry) (b : Bool) :
    let s := record.foldl (Entry.enter settings) { dryRun := b }
    s.modified = [] ∧ s.failures = [] ↔ ∀ e ∈ record, e.IsSettled := by
  intro s
  have hmodified : s.modified = [] ++ record.filterMap (Entry.modified? settings) :=
    modified_foldl record _
  have hfailures : s.failures = [] ++ record.filterMap Entry.failure? :=
    failures_foldl record _
  rw [hmodified, hfailures, List.nil_append, List.nil_append, List.filterMap_eq_nil_iff,
    List.filterMap_eq_nil_iff, ← forall₂_and]
  refine forall₂_congr fun e _ => ?_
  rcases e with _ | ⟨_, _ | _ | _ | _⟩ <;>
    simp [Entry.IsSettled, Entry.isModified, Entry.isFailed, Entry.modified?, Entry.failure?,
      isModified]

/-! ## The files on an agenda -/

variable {settings} {q : Path}

/-- The targets of a run are what it visits and does not leave out. -/
theorem target_iff :
    Target settings fs p ↔ p ∈ visited settings fs ∧ selects settings p = true := by
  constructor
  · rintro ⟨⟨dir, hdir, hwalk⟩, haccepts, hexcluded, hmodule⟩
    exact ⟨List.mem_flatMap.mpr ⟨dir, hdir, mem_filesBelow.mpr ⟨hwalk, haccepts⟩⟩,
      by simp [selects, hexcluded, hmodule]⟩
  · rintro ⟨hvisited, hselects⟩
    obtain ⟨dir, hdir, hbelow⟩ := List.mem_flatMap.mp hvisited
    obtain ⟨hwalk, haccepts⟩ := mem_filesBelow.mp hbelow
    obtain ⟨hexcluded, hmodule⟩ : settings.isExcluded (relative settings p) = false ∧
        settings.isSafetyModule (relative settings p) = false := by
      simpa [selects] using hselects
    exact ⟨⟨dir, hdir, hwalk⟩, haccepts, hexcluded, hmodule⟩

/-- A file has one spelling on an agenda. -/
theorem eq_of_mem_agenda (hp : p ∈ paths (agenda settings fs))
    (hq : q ∈ paths (agenda settings fs)) (hsame : p.same q = true) : p = q := by
  have hnew := pairwise_unseen settings [] (settings.dirs.flatMap (stopsAt settings fs))
  have : Std.Symm fun p q : Path => q.same p = false :=
    ⟨fun p q h => BEq.comm.trans h⟩
  by_contra hne
  have hother : p.same q = false := hnew.forall hq hp (Ne.symm hne)
  rw [hother] at hsame
  contradiction

/-- The files on an agenda are the targets, each in the spelling that comes first. -/
theorem forall_agenda_iff (P : Path → Prop) :
    (∀ q ∈ paths (agenda settings fs), P q) ↔
      ∀ p, Target settings fs p → ∃ q ∈ paths (agenda settings fs), p.same q = true ∧ P q := by
  constructor
  · intro h p htarget
    obtain ⟨hvisited, hselects⟩ := target_iff.mp htarget
    obtain ⟨q, hq, hsame⟩ := exists_mem_agenda hvisited hselects
    exact ⟨q, hq, hsame, h q hq⟩
  · intro h q hq
    obtain ⟨first, hfirst, hsame, hP⟩ := h q (target_iff.mpr (of_mem_agenda hq))
    rwa [eq_of_mem_agenda hq hfirst hsame]

/-- Spellings of one file that can be followed are read alike. -/
theorem CallFree.of_same (h : CallFree fs p) (hp : Candidate fs p) (hq : Candidate fs q)
    (hshort : q.bytes.length ≤ FileSystem.maxPath) (hsame : p.same q = true) : CallFree fs q := by
  obtain ⟨t, hread, hfree⟩ := h
  obtain ⟨location, content, bits, harrive, hfile⟩ := hp.file (short_of_readText hread)
  have harrive' := hq.arrive_of_same hshort hsame (harrive false) hfile
  refine ⟨t, (readText_eq_ok_iff (harrive' true) hfile).mpr ?_, hfree⟩
  exact (readText_eq_ok_iff (harrive true) hfile).mp hread

/-- Where all paths can be followed, the files on an agenda have no call exactly if the targets have
none. -/
theorem forall_callFree_iff (hfs : fs.root.WellFormed)
    (hshort : ∀ p, Target settings fs p → p.bytes.length ≤ FileSystem.maxPath) :
    (∀ q ∈ paths (agenda settings fs), CallFree fs q) ↔
      ∀ p, Target settings fs p → CallFree fs p := by
  have hcandidate {p : Path} (htarget : Target settings fs p) : Candidate fs p :=
    candidate_of_mem_visited hfs (target_iff.mp htarget).1
  constructor
  · intro h p htarget
    obtain ⟨hvisited, hselects⟩ := target_iff.mp htarget
    -- The file is processed by a path `q`, from which what was read is carried over to `p`.
    obtain ⟨q, hq, hsame⟩ := exists_mem_agenda hvisited hselects
    have hback : q.same p = true := BEq.comm.trans hsame
    exact (h q hq).of_same (hcandidate (target_iff.mpr (of_mem_agenda hq))) (hcandidate htarget)
      (hshort p htarget) hback
  · exact fun h q hq => h q (target_iff.mpr (of_mem_agenda hq))

/-- The entries of a complete run are settled exactly if every file on its agenda can be read and
has no call. -/
theorem tree_settled_iff (mode : RunMode) (hreplace : Faithful replace) (hfs : fs.root.WellFormed)
    (hopen : (tree replace settings mode fs output).output.failed = false) :
    let s := (tree replace settings mode fs output).summary
    (s.filesModified = 0 ∧ s.filesErrored = 0 ↔ ∀ p ∈ paths (agenda settings fs), CallFree fs p) ∧
      (s.modified = [] ∧ s.failures = [] ↔ ∀ p ∈ paths (agenda settings fs), CallFree fs p) := by
  intro s
  have hsummary : s = (entries replace settings mode fs (agenda settings fs)).foldl
      (Entry.enter settings) { dryRun := mode == .check } :=
    (tree_carriesOut replace settings mode hreplace hfs output).summary hopen
  rw [hsummary]
  exact ⟨(counters_eq_zero_iff settings _ _).trans forall_isSettled,
    (lists_eq_nil_iff settings _ _).trans forall_isSettled⟩

end Run

namespace Task

open Run

variable {replace : Replacer} {settings : Settings} {fs : FileSystem} {config : Option Path}
  {output output' : Output}

/-- A strict check with a report in text on an output that takes everything succeeds exactly if
every target can be read by the first path by which the run comes to it and has no call. If no path
is too long to be followed, this is so if every target can be read and has no call, by whatever
path. It succeeds exactly if a complete run that changes files counts none as changed and none as
failed, and exactly if it lists none as such. -/
theorem strict_check_iff (hreplace : Faithful replace) (hfs : fs.root.WellFormed)
    (hload : (Settings.load fs config).1 = .ok settings) (hopen : output.Unbounded)
    (hfix : (tree replace settings .fix fs output').output.failed = false) :
    let task : Task := { mode := .check, config := config, strict := true }
    let fixed := (tree replace settings .fix fs output').summary
    let succeeds := (task.execute replace fs output).result = .ok ()
    (succeeds ↔ ∀ p, Target settings fs p →
      ∃ q ∈ paths (agenda settings fs), p.same q = true ∧ CallFree fs q) ∧
      ((∀ p, Target settings fs p → p.bytes.length ≤ FileSystem.maxPath) →
        (succeeds ↔ ∀ p, Target settings fs p → CallFree fs p)) ∧
      (succeeds ↔ fixed.filesModified = 0 ∧ fixed.filesErrored = 0) ∧
      (succeeds ↔ fixed.modified = [] ∧ fixed.failures = []) := by
  intro task fixed succeeds
  have hchecked : (tree replace settings .check fs output).output.Unbounded :=
    unbounded_tree hopen replace settings .check fs
  have hresult : (task.execute replace fs output).result =
      task.judge (tree replace settings .check fs output).summary :=
    (execute_spec replace output hload).2.2 rfl hchecked
  have hjudged : succeeds ↔ (tree replace settings .check fs output).summary.filesModified = 0 ∧
      (tree replace settings .check fs output).summary.filesErrored = 0 := by
    change (task.execute replace fs output).result = .ok () ↔ _
    rw [hresult]
    simp [judge, task]
  -- What decides about the check decides about any run.
  have hagenda : succeeds ↔ ∀ q ∈ paths (agenda settings fs), CallFree fs q :=
    hjudged.trans (tree_settled_iff .check hreplace hfs hchecked.failed).1
  obtain ⟨hcounters, hlists⟩ := tree_settled_iff .fix hreplace hfs hfix
  exact ⟨hagenda.trans (forall_agenda_iff _),
    fun hshort => hagenda.trans (forall_callFree_iff hfs hshort),
    hagenda.trans hcounters.symm, hagenda.trans hlists.symm⟩

/-- A file that names a method without calling it, and to which two configured directories lead,
passes a strict check, and nothing is to be changed in it. -/
theorem strict_check_iff_of_mention :
    let fs := oneFileTree "root = 'app'\ndirs = ['src', 'src/']\n" "app" ["src", "a.ts"]
      "const log = console . log;\n"
    let settings := sampleSettings "app" ["src", "src/"] []
    let task : Task := { mode := .check, strict := true }
    let fixed := (tree FileSystem.replace settings .fix fs {}).summary
    (Settings.load fs none).1 = .ok settings ∧
      (task.execute FileSystem.replace fs {}).result = .ok () ∧
      CallFree fs (.ofString "app/src/a.ts") ∧
      fixed.filesModified = 0 ∧ fixed.filesErrored = 0 ∧ fixed.filesProcessed = 1 := by
  intro fs settings task fixed
  have hfs : fs.root.WellFormed := Node.wellFormed_of_all (by decide +kernel)
  have hload : (Settings.load fs none).1 = .ok settings := by decide +kernel
  have hfix : (tree FileSystem.replace settings .fix fs {}).output.failed = false := by
    decide +kernel
  obtain ⟨hfiles, -, hcounters, -⟩ :=
    strict_check_iff faithful_replace hfs hload .empty hfix
  have hsucceeds : (task.execute FileSystem.replace fs {}).result = .ok () := by decide +kernel
  obtain ⟨hmodified, herrored⟩ := hcounters.mp hsucceeds
  have hwalk : .file (.ofString "app/src/a.ts") ∈
      fs.walk (settings.root.join (.ofString "src")) := by
    decide +kernel
  have htarget : Target settings fs (.ofString "app/src/a.ts") :=
    ⟨⟨.ofString "src", by decide, hwalk⟩, by decide +kernel, by decide +kernel, by decide +kernel⟩
  obtain ⟨first, hfirst, -, hfree⟩ := hfiles.mp hsucceeds _ htarget
  have hagenda : paths (agenda settings fs) = [.ofString "app/src/a.ts"] := by decide +kernel
  obtain rfl : first = .ofString "app/src/a.ts" := by
    rwa [hagenda, List.mem_singleton] at hfirst
  exact ⟨hload, hsucceeds, hfree, hmodified, herrored, by decide +kernel⟩

end Task

end LogGuard
