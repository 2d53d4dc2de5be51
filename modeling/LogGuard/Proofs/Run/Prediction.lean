import LogGuard.Proofs.Run.Record

/-!
# Checking as a prediction

A run that only examines files finds out what a run that changes them would do. The second one
changes the tree as it goes, and what it finds at a later file is what it would have found at the
start because no two of its files are the same: what is done to one file cannot be seen at another
one (`found_of_carryOut`). So both runs have one record (`entries_fix`) and, but for the word that
tells which run it was, one summary (`check_predicts_fix`).
-/

namespace LogGuard.Run

open FileSystem (SamePlaces)

variable {replace replace' : Replacer} {settings : Settings} {fs : FileSystem} {stop : Stop}
  {stops : List Stop} {p q : Path}

/-! ## One step of the run that changes files -/

/-- What is found at a candidate is not changed by what is done to a file elsewhere. -/
theorem verdict_of_apart (hreplace : Faithful replace) (hq : Candidate fs q) (hp : Candidate fs p)
    (hapart : fs.Apart q p) {mode : RunMode} :
    verdict settings p ((file replace settings mode q fs).files.readText p) =
      verdict settings p (fs.readText p) := by
  rcases readText_file hreplace hq hp with hsame | ⟨⟨location, hq_arrive, hp_arrive⟩, -⟩
  · rw [hsame]
  · exact absurd (hp.denotes hp_arrive) (hapart location (hq.denotes hq_arrive))

/-- Where what is to be replaced is replaced, the entry for a stop is what is found there. -/
theorem carryOut_fst (hwrite : ∀ path e,
      (stop.carryOut replace settings .fix fs).1 ≠ .processed path (.failed (.notReplaced e))) :
    (stop.carryOut replace settings .fix fs).1 = stop.found settings fs := by
  cases stop with
  | missing dir => rfl
  | file path =>
    have houtcome : (file replace settings .fix path fs).outcome =
        verdict settings path (fs.readText path) := by
      rcases (file_step replace settings .fix path fs).outcome_cases with heq | ⟨-, -, e, hfailed⟩
      · exact heq
      · exact absurd (congrArg (Entry.processed path) hfailed) (hwrite path e)
    exact congrArg (Entry.processed path) houtcome

/-- Carrying out a stop changes nothing that is found at files elsewhere. -/
theorem found_of_carryOut (hreplace : Faithful replace)
    (hstop : ∀ q, stop = .file q → Candidate fs q) (hstops : Candidates fs stops)
    (hapart : ∀ q, stop = .file q → ∀ p ∈ paths stops, fs.Apart q p) {mode : RunMode} :
    stops.map (Stop.found settings (stop.carryOut replace settings mode fs).2) =
      stops.map (Stop.found settings fs) := by
  refine List.map_congr_left fun other hother => ?_
  cases other with
  | missing dir => rfl
  | file p =>
    have hp : p ∈ paths stops := List.mem_filterMap.mpr ⟨_, hother, rfl⟩
    cases stop with
    | missing dir => rfl
    | file q =>
      exact congrArg (Entry.processed p)
        (verdict_of_apart hreplace (hstop q rfl) (hstops p hp) (hapart q rfl p hp))

/-! ## The whole run -/

/-- If the files at its stops are apart from each other and what is to be replaced is replaced, a
run that changes files records what was to be found at the start. -/
theorem entries_fix (hreplace : Faithful replace) (hstops : Candidates fs stops)
    (hapart : (paths stops).Pairwise fs.Apart)
    (hwrites : ∀ path e, .processed path (.failed (.notReplaced e)) ∉
      entries replace settings .fix fs stops) :
    entries replace settings .fix fs stops = stops.map (Stop.found settings fs) := by
  induction stops generalizing fs with
  | nil => rfl
  | cons stop rest ih =>
    obtain ⟨hstop, hplaces, hrest⟩ := hstops.of_cons settings .fix hreplace
    have hsplit : (∀ q, stop = .file q → ∀ p ∈ paths rest, fs.Apart q p) ∧
        (paths rest).Pairwise fs.Apart := by
      cases stop with
      | missing dir => exact ⟨fun q heq => by contradiction, hapart⟩
      | file path =>
        obtain ⟨hfirst, hlater⟩ := List.pairwise_cons.mp hapart
        refine ⟨fun q heq => ?_, hlater⟩
        obtain rfl := Stop.file.inj heq
        exact hfirst
    rw [entries_cons] at hwrites ⊢
    -- The rest of the run starts from a tree in which the same paths lead to the same places.
    have hlater : entries replace settings .fix (stop.carryOut replace settings .fix fs).2 rest =
        rest.map (Stop.found settings (stop.carryOut replace settings .fix fs).2) := by
      refine ih hrest ?_
        fun path e hmem => hwrites path e (List.mem_cons_of_mem _ hmem)
      exact hsplit.2.imp hplaces.apart.mpr
    have hentry : (stop.carryOut replace settings .fix fs).1 = stop.found settings fs :=
      carryOut_fst fun path e heq => hwrites path e (heq ▸ List.mem_cons_self)
    rw [List.map_cons, hlater, hentry, found_of_carryOut hreplace hstop
      (hrest.of_samePlaces hplaces.symm) hsplit.1]

/-- Entries do not ask whether files are only examined. -/
theorem foldl_enter_dryRun (record : List Entry) (s : Summary) (b : Bool) :
    record.foldl (Entry.enter settings) { s with dryRun := b } =
      { record.foldl (Entry.enter settings) s with dryRun := b } := by
  induction record generalizing s with
  | nil => rfl
  | cons e rest ih =>
    have henter : e.enter settings { s with dryRun := b } =
        { e.enter settings s with dryRun := b } := by
      rcases e with _ | ⟨_, _ | _ | _ | _⟩ <;> rfl
    rw [List.foldl_cons, List.foldl_cons, henter, ih]

/-- If visited paths that denote the same file are the same path and every file that is to be
replaced is replaced, a run that only examines the files has the summary of the run that changes
them. Only the note that it was a dry run differs. -/
theorem check_predicts_fix (hreplace : Faithful replace) (hreplace' : Faithful replace')
    (hfs : fs.root.WellFormed) (halike : SpelledAlike settings fs)
    (hwrites : WritesSucceed replace settings fs) {output output' : Output}
    (hfix : (tree replace settings .fix fs output).output.failed = false)
    (hcheck : (tree replace' settings .check fs output').output.failed = false) :
    (tree replace' settings .check fs output').summary =
      { (tree replace settings .fix fs output).summary with dryRun := true } := by
  have hrecord : entries replace settings .fix fs (agenda settings fs) =
      entries replace' settings .check fs (agenda settings fs) := by
    rw [entries_check]
    exact entries_fix hreplace (candidates_agenda hfs) (pairwise_apart halike) hwrites
  have hsummary := (tree_carriesOut replace settings .fix hreplace hfs output).summary hfix
  have hsummary' := (tree_carriesOut replace' settings .check hreplace' hfs output').summary hcheck
  rw [hsummary', hsummary, ← foldl_enter_dryRun]
  exact congrArg (List.foldl (Entry.enter settings) _) hrecord.symm

/-- A tree with a configuration that has one directory scanned twice and names another one that does
not exist. -/
def overlappingTree : FileSystem :=
  oneFileTree "root = 'app'\ndirs = ['src', 'lost', 'src']\n" "app" ["src", "a.ts"]
    "import x from 'y';\nconsole.log(x);\nconsole.warn(x);\n"

/-- The settings in `overlappingTree`. -/
def overlappingSettings : Settings :=
  sampleSettings "app" ["src", "lost", "src"] []

/-- The file is to be changed once, and one directory is missing. -/
theorem check_predicts_fix_of_overlap :
    let fixed := tree FileSystem.replace overlappingSettings .fix overlappingTree {}
    let checked := tree FileSystem.replace overlappingSettings .check overlappingTree {}
    (Settings.load overlappingTree none).1 = .ok overlappingSettings ∧
      checked.summary = { fixed.summary with dryRun := true } ∧
      checked.summary.filesProcessed = 1 ∧ checked.summary.callsReplaced = 2 ∧
      checked.summary.missingDirs = [.ofString "app/lost"] := by
  intro fixed checked
  have hfs : overlappingTree.root.WellFormed :=
    Node.wellFormed_of_all (by decide +kernel)
  have halike : SpelledAlike overlappingSettings overlappingTree := by
    have hvisited : visited overlappingSettings overlappingTree =
        [.ofString "app/src/a.ts", .ofString "app/src/a.ts"] := by
      decide +kernel
    intro p hp q hq _ _ _ _ _
    rw [hvisited, List.mem_pair, or_self] at hp hq
    rw [hp, hq]
    decide +kernel
  have hwrites : WritesSucceed FileSystem.replace overlappingSettings overlappingTree := by
    have hrecord : entries FileSystem.replace overlappingSettings .fix overlappingTree
        (agenda overlappingSettings overlappingTree) =
          [.processed (.ofString "app/src/a.ts") (.modified 2 .inserted),
            .missing (.ofString "app/lost")] := by
      decide +kernel
    intro path e
    rw [hrecord]
    simp
  have hchecked : checked.summary.filesProcessed = 1 ∧ checked.summary.callsReplaced = 2 ∧
      checked.summary.missingDirs = [.ofString "app/lost"] := by
    decide +kernel
  exact ⟨by decide +kernel, check_predicts_fix faithful_replace faithful_replace hfs halike
    hwrites (by decide +kernel) (by decide +kernel), hchecked⟩

end LogGuard.Run
