import LogGuard.Proofs.Command.Execution
import LogGuard.Proofs.Run.Record
import LogGuard.Proofs.Run.Unbounded

/-!
# Running again

After a run in which every file that was to be replaced was replaced, nothing is left to be changed
at any file on its agenda: the file has no call, or it cannot be processed for the same reason as
before (`entries_settled`). Files may be reached by several paths, and what fails by one path may
succeed by another; processing a file by one path leaves no call for the others to find
(`file_verdict`). A run over the resulting tree comes to the same files, changes none of them and
reports none as changed (`tree_again`).
-/

namespace LogGuard.Run

open FileSystem (SamePlaces)

variable {replace replace' : Replacer} {settings : Settings} {mode : RunMode} {fs : FileSystem}
  {stop : Stop} {stops : List Stop} {p q : Path}

/-! ## Processing one file -/

/-- A text without a call is clean. -/
theorem verdict_of_text {t : Text} (h : Call.occursIn t = false) :
    verdict settings p (.ok (String.ofList t)) = .clean := by
  rw [verdict, String.toList_ofList, h]
  rfl

/-- Whatever is processed, a candidate is clean afterwards or it is found as before. -/
theorem file_verdict (hreplace : Faithful replace) (hq : Candidate fs q) (hp : Candidate fs p) :
    verdict settings p ((file replace settings mode q fs).files.readText p) = .clean ∨
      verdict settings p ((file replace settings mode q fs).files.readText p) =
        verdict settings p (fs.readText p) := by
  rcases readText_file hreplace hq hp with hsame | ⟨-, t, hcall, htext⟩
  · rw [hsame]
    exact .inr rfl
  · rw [htext]
    exact .inl (verdict_of_text hcall)

/-- A file that was processed is clean afterwards unless it failed. Then it is found as before. -/
theorem file_settled (hreplace : Faithful replace) (hp : Candidate fs p)
    (hwrite : ∀ e, (file replace settings .fix p fs).outcome ≠ .failed (.notReplaced e)) :
    verdict settings p ((file replace settings .fix p fs).files.readText p) = .clean ∨
      ∃ e, (file replace settings .fix p fs).outcome = .failed e ∧
        verdict settings p ((file replace settings .fix p fs).files.readText p) = .failed e := by
  have hstep := file_step replace settings .fix p fs
  generalize (file replace settings .fix p fs).outcome = outcome at hstep hwrite ⊢
  generalize (file replace settings .fix p fs).files = after at hstep ⊢
  cases hstep with
  | unreadable hread => exact .inr ⟨_, rfl, by rw [hread]; rfl⟩
  | clean hread hcall => exact .inl (by simp [hread, verdict, hcall])
  | unresolved hread hcall hsanitized =>
    exact .inr ⟨_, rfl, by simp [hread, verdict, hcall, hsanitized]⟩
  | examined _ _ _ hmode => contradiction
  | replaced hread _ hsanitized _ hdone =>
    obtain ⟨location, harrive, hsame, -⟩ := readText_replaced hreplace hp hread hdone
    rw [hsame p harrive]
    exact .inl (verdict_of_text (occursIn_of_sanitize hsanitized))
  | notReplaced => exact absurd rfl (hwrite _)

/-! ## A whole run -/

/-- Whatever is carried out, a candidate is clean afterwards or it is found as before. -/
theorem filesAfter_verdict (hreplace : Faithful replace) (hstops : Candidates fs stops)
    (hp : Candidate fs p) :
    verdict settings p ((filesAfter replace settings mode fs stops).readText p) = .clean ∨
      verdict settings p ((filesAfter replace settings mode fs stops).readText p) =
        verdict settings p (fs.readText p) := by
  induction stops generalizing fs with
  | nil => exact .inr rfl
  | cons stop rest ih =>
    obtain ⟨hstop, hplaces, hrest⟩ := hstops.of_cons settings mode hreplace
    rw [filesAfter_cons]
    rcases ih hrest (hp.of_samePlaces hplaces) with hclean | hsame
    · exact .inl hclean
    · rw [hsame]
      cases stop with
      | missing dir => exact .inr rfl
      | file path => exact file_verdict hreplace (hstop path rfl) hp

/-- A run in which no write fails leaves every file of its stops clean, or the file failed and is
found as before. -/
theorem entries_settled (hreplace : Faithful replace) (hstops : Candidates fs stops)
    (hwrites : ∀ path e, .processed path (.failed (.notReplaced e)) ∉
      entries replace settings .fix fs stops) :
    ∀ p ∈ paths stops,
      verdict settings p ((filesAfter replace settings .fix fs stops).readText p) = .clean ∨
        ∃ e, .processed p (.failed e) ∈ entries replace settings .fix fs stops ∧
          verdict settings p ((filesAfter replace settings .fix fs stops).readText p) =
            .failed e := by
  induction stops generalizing fs with
  | nil => intro p hp; contradiction
  | cons stop rest ih =>
    obtain ⟨hstop, hplaces, hrest⟩ := hstops.of_cons settings .fix hreplace
    rw [entries_cons] at hwrites
    have hlater := ih hrest fun path e hmem => hwrites path e (List.mem_cons_of_mem _ hmem)
    rw [filesAfter_cons, entries_cons]
    intro p hp
    have hmem : stop = .file p ∨ p ∈ paths rest := by
      cases stop with
      | missing dir => exact .inr hp
      | file path =>
        rw [paths_file, List.mem_cons] at hp
        exact hp.imp_left fun heq => by rw [heq]
    rcases hmem with rfl | hp
    · -- The file is settled when it has been processed, and it stays so to the end.
      have hp := hstop p rfl
      have hwrite : ∀ e, (file replace settings .fix p fs).outcome ≠ .failed (.notReplaced e) := by
        intro e heq
        refine hwrites p e (List.mem_cons.mpr (.inl ?_))
        rw [Stop.carryOut, heq]
      rcases filesAfter_verdict hreplace hrest (hp.of_samePlaces hplaces) with hclean | hsame
      · exact .inl hclean
      · rw [hsame]
        refine (file_settled hreplace hp hwrite).imp_right ?_
        rintro ⟨e, houtcome, hverdict⟩
        refine ⟨e, List.mem_cons.mpr (.inl ?_), hverdict⟩
        rw [Stop.carryOut, houtcome]
    · refine (hlater p hp).imp_right ?_
      rintro ⟨e, hentry, hverdict⟩
      exact ⟨e, List.mem_cons_of_mem _ hentry, hverdict⟩

/-- An entry for a file that is not changed leaves the figures on changed files as they are. -/
theorem enter_of_not_modified {e : Entry} (h : e.isModified = false) (s : Summary) :
    (e.enter settings s).filesModified = s.filesModified ∧
      (e.enter settings s).callsReplaced = s.callsReplaced ∧
      (e.enter settings s).modified = s.modified := by
  rcases e with _ | ⟨_, _ | _ | _ | _⟩
  · exact ⟨rfl, rfl, rfl⟩
  · contradiction
  · exact ⟨rfl, rfl, rfl⟩
  · exact ⟨rfl, rfl, rfl⟩
  · exact ⟨rfl, rfl, rfl⟩

/-- An entry for a file that did not fail leaves the figures on errors as they are. -/
theorem enter_of_not_failed {e : Entry} (h : e.isFailed = false) (s : Summary) :
    (e.enter settings s).filesErrored = s.filesErrored ∧
      (e.enter settings s).failures = s.failures := by
  rcases e with _ | ⟨_, _ | _ | _ | _⟩
  · exact ⟨rfl, rfl⟩
  · exact ⟨rfl, rfl⟩
  · exact ⟨rfl, rfl⟩
  · exact ⟨rfl, rfl⟩
  · contradiction

/-- Nothing is left to be changed at any stop of a run in which no write fails. If no file failed,
nothing fails afterwards either. -/
theorem found_settled (hreplace : Faithful replace) (hstops : Candidates fs stops)
    (hwrites : ∀ path e, .processed path (.failed (.notReplaced e)) ∉
      entries replace settings .fix fs stops) (hstop : stop ∈ stops) :
    (stop.found settings (filesAfter replace settings .fix fs stops)).isModified = false ∧
      ((∀ e ∈ entries replace settings .fix fs stops, e.isFailed = false) →
        (stop.found settings (filesAfter replace settings .fix fs stops)).isFailed = false) := by
  cases stop with
  | missing dir => exact ⟨rfl, fun _ => rfl⟩
  | file path =>
    have hpath : path ∈ paths stops := List.mem_filterMap.mpr ⟨_, hstop, rfl⟩
    rw [Stop.found]
    rcases entries_settled hreplace hstops hwrites path hpath with hclean | ⟨e, hentry, hverdict⟩
    · rw [hclean]
      exact ⟨rfl, fun _ => rfl⟩
    · rw [hverdict]
      exact ⟨rfl, fun hnone => hnone _ hentry⟩

/-! ## The following run -/

/-- A run over files at which nothing is left to be changed keeps them and reports none as changed.
If nothing fails either, it reports no error. -/
theorem tree_of_settled (hreplace : Faithful replace) (hfs : fs.root.WellFormed)
    (hkept : ∀ stop ∈ agenda settings fs, (stop.found settings fs).isModified = false)
    (mode : RunMode) (output : Output) :
    (tree replace settings mode fs output).files = fs ∧
      ((tree replace settings mode fs output).output.failed = false →
        ((tree replace settings mode fs output).summary.filesModified = 0 ∧
          (tree replace settings mode fs output).summary.callsReplaced = 0 ∧
          (tree replace settings mode fs output).summary.modified = []) ∧
        ((∀ stop ∈ agenda settings fs, (stop.found settings fs).isFailed = false) →
          (tree replace settings mode fs output).summary.filesErrored = 0 ∧
          (tree replace settings mode fs output).summary.failures = [])) := by
  have hrun := tree_carriesOut replace settings mode hreplace hfs output
  constructor
  · -- Whatever part of the agenda is carried out, nothing is changed on it.
    rw [hrun.files]
    refine (entries_eq_found (.inr fun stop hstop => hkept stop ?_)).2
    exact (prefix_of_reached ..).subset hstop
  · intro hcomplete
    have hrecord : entries replace settings mode fs (agenda settings fs) =
        (agenda settings fs).map (Stop.found settings fs) :=
      (entries_eq_found (.inr hkept)).1
    have hsummary : (tree replace settings mode fs output).summary =
        ((agenda settings fs).map (Stop.found settings fs)).foldl (Entry.enter settings)
          (start mode fs output).summary := by
      rw [hrun.summary hcomplete, ← hrecord]
      rfl
    rw [hsummary]
    refine ⟨?_, fun hnone => ?_⟩
    · have hmodified : ∀ e ∈ (agenda settings fs).map (Stop.found settings fs),
          e.isModified = false := by
        simpa using hkept
      refine ⟨?_, ?_, ?_⟩
      · exact foldl_enter_frame Summary.filesModified
          (fun e he s => (enter_of_not_modified (hmodified e he) s).1) _
      · exact foldl_enter_frame Summary.callsReplaced
          (fun e he s => (enter_of_not_modified (hmodified e he) s).2.1) _
      · exact foldl_enter_frame Summary.modified
          (fun e he s => (enter_of_not_modified (hmodified e he) s).2.2) _
    · have hfailed : ∀ e ∈ (agenda settings fs).map (Stop.found settings fs),
          e.isFailed = false := by
        simpa using hnone
      refine ⟨?_, ?_⟩
      · exact foldl_enter_frame Summary.filesErrored
          (fun e he s => (enter_of_not_failed (hfailed e he) s).1) _
      · exact foldl_enter_frame Summary.failures
          (fun e he s => (enter_of_not_failed (hfailed e he) s).2) _

/-- After a complete run in which no write failed, a run with the same settings changes no file and
reports none as changed, whether it may change files or only examines them. If the first run
reported no error, neither does the second, and every task with these settings succeeds, however
strict it is, unless its output cannot be printed. -/
theorem tree_again (hreplace : Faithful replace) (hreplace' : Faithful replace')
    (hfs : fs.root.WellFormed) {output : Output}
    (hcomplete : (tree replace settings .fix fs output).output.failed = false)
    (hwrites : WritesSucceed replace settings fs) (output' : Output) :
    let first := tree replace settings .fix fs output
    (∀ mode, let second := tree replace' settings mode first.files output'
      second.files = first.files ∧
        (second.output.failed = false →
          (second.summary.filesModified = 0 ∧ second.summary.callsReplaced = 0 ∧
            second.summary.modified = []) ∧
          (first.summary.filesErrored = 0 →
            second.summary.filesErrored = 0 ∧ second.summary.failures = []))) ∧
    ∀ task : Task, (Settings.load first.files task.config).1 = .ok settings →
      let second := task.execute replace' first.files output'
      second.files = first.files ∧
        (first.summary.filesErrored = 0 →
          ((∃ cause, second.result = .error (.notPrinted cause)) ∨ second.result = .ok ()) ∧
          (task.json = false → output'.Unbounded → second.result = .ok ())) := by
  intro first
  have hrun := tree_carriesOut replace settings .fix hreplace hfs output
  have hall := hrun.reached_eq hcomplete
  have hstops : Candidates fs (agenda settings fs) := candidates_agenda hfs
  have hfiles : first.files = filesAfter replace settings .fix fs (agenda settings fs) :=
    hrun.files.trans (by rw [hall]; rfl)
  -- The second run comes to the same files, at which everything is settled.
  have hplaces : SamePlaces first.files fs := by
    rw [hfiles]
    exact filesAfter_samePlaces hreplace hstops
  have hwf : first.files.root.WellFormed := hfs.of_blank hplaces.blank
  have hagenda : agenda settings first.files = agenda settings fs := agenda_congr hplaces
  have hkept : ∀ stop ∈ agenda settings first.files,
      (stop.found settings first.files).isModified = false := by
    rw [hagenda, hfiles]
    exact fun stop hstop => (found_settled hreplace hstops hwrites hstop).1
  have hnone (hzero : first.summary.filesErrored = 0) : ∀ stop ∈ agenda settings first.files,
      (stop.found settings first.files).isFailed = false := by
    have hcount : (entries replace settings .fix fs (agenda settings fs)).countP Entry.isFailed =
        0 := by
      have hsummary := congrArg Summary.filesErrored (hrun.summary hcomplete)
      rw [filesErrored_foldl] at hsummary
      have hle := hzero.symm.trans hsummary
      exact Nat.eq_zero_of_le_zero (by rw [hle]; exact Nat.le_add_left _ _)
    rw [hagenda, hfiles]
    intro stop hstop
    refine (found_settled hreplace hstops hwrites hstop).2 fun e he => ?_
    simpa using List.countP_eq_zero.mp hcount e he
  have hsecond (mode : RunMode) (o : Output) :=
    tree_of_settled hreplace' hwf hkept mode o
  refine ⟨fun mode => ?_, fun task hload => ?_⟩
  · obtain ⟨hsame, hreport⟩ := hsecond mode output'
    exact ⟨hsame, fun hopen => ⟨(hreport hopen).1, fun hzero => (hreport hopen).2 (hnone hzero)⟩⟩
  · obtain ⟨hsame, hreport⟩ := hsecond task.mode (if task.json then {} else output')
    obtain ⟨hend, hresult, htext⟩ := Task.execute_spec replace' output' hload
    refine ⟨hend.trans hsame, fun hzero => ?_⟩
    have hjudge (hopen : (task.run replace' settings first.files output').output.failed = false) :
        task.judge (task.run replace' settings first.files output').summary = .ok () := by
      obtain ⟨⟨hmodified, -, -⟩, herrors⟩ := hreport hopen
      exact task.judge_of_settled hmodified (herrors (hnone hzero)).1
    refine ⟨hresult.imp_right ?_, fun hjson hopen => ?_⟩
    · rintro ⟨hprinted, heq⟩
      rw [heq, hjudge hprinted]
    · have hprinted : (task.run replace' settings first.files output').output.Unbounded := by
        refine unbounded_tree ?_ replace' settings task.mode first.files
        rw [hjson]
        exact hopen
      rw [htext hjson hprinted, hjudge hprinted.failed]

/-- A tree in which two configured directories are the same. By the path through the second one
there is no import for the file. -/
def twoPathTree : FileSystem :=
  oneFileTree "root = 'app'\ndirs = ['src', 'src/../src']\n" "app" ["src", "a.ts"]
    "console.log(1);\n"

/-- The settings in `twoPathTree`. -/
def twoPathSettings : Settings :=
  sampleSettings "app" ["src", "src/../src"] []

/-- The file is sanitised by the first path and clean by the second one, so that a strict check
succeeds afterwards. -/
theorem tree_again_of_two_paths :
    let first := tree FileSystem.replace twoPathSettings .fix twoPathTree {}
    let second := Task.execute FileSystem.replace { mode := .check, strict := true } first.files {}
    first.output.failed = false ∧ WritesSucceed FileSystem.replace twoPathSettings twoPathTree ∧
      first.files.readText (.ofString "app/src/a.ts") = .ok "safeLog(1);\n" ∧
      first.summary.filesProcessed = 2 ∧ first.summary.filesErrored = 0 ∧
      second.result = .ok () ∧ second.files = first.files := by
  intro first second
  have hfs : twoPathTree.root.WellFormed :=
    Node.wellFormed_of_all (by decide +kernel)
  have hcomplete : first.output.failed = false := by decide +kernel
  have hwrites : WritesSucceed FileSystem.replace twoPathSettings twoPathTree := by
    have hrecord : entries FileSystem.replace twoPathSettings .fix twoPathTree
        (agenda twoPathSettings twoPathTree) =
          [.processed (.ofString "app/src/a.ts") (.modified 1 .unanchored),
            .processed (.ofString "app/src/../src/a.ts") .clean] := by
      decide +kernel
    intro path e
    rw [hrecord]
    simp
  have hsummary : first.summary.filesProcessed = 2 ∧ first.summary.filesErrored = 0 := by
    decide +kernel
  have hload : (Settings.load first.files none).1 = .ok twoPathSettings := by decide +kernel
  obtain ⟨-, htask⟩ :=
    tree_again faithful_replace faithful_replace hfs hcomplete hwrites {}
  obtain ⟨hfiles, hresult⟩ := htask { mode := .check, strict := true } hload
  exact ⟨hcomplete, hwrites, by decide +kernel, hsummary.1, hsummary.2,
    (hresult hsummary.2).2 rfl ⟨rfl, rfl⟩, hfiles⟩

end LogGuard.Run
