import LogGuard.Proofs.Run.Frame

/-!
# What is in one file does not matter to the others

Let two file systems be the same but for what is in one file. A path that denotes another file reads
the same in both, so processing it has the same outcome and leaves the two the same but for that
file (`file_congr`). Processing a path that denotes the file changes nothing else (`file_own`). Two
runs over them come to the same stops, since these are decided by the places alone, and go through
them side by side (`entries_congr`); at most one stop is at the file. So their records are the same
but for one entry, and so are the lists of their summaries (`tree_isolated`).
-/

namespace LogGuard.Run

open FileSystem (SamePlaces)

variable {replace : Replacer} {settings : Settings} {mode : RunMode}
  {fs fs' fs'' : FileSystem} {stop : Stop} {stops : List Stop} {p : Path}
  {location place : Location} {content new old : ByteArray} {bits : Nat}

/-- A way of replacing files in which what keeps a regular file from being replaced is not in the
content of files. -/
def Steady (replace : Replacer) : Prop :=
  ∀ fs fs' p content e location old bits, SamePlaces fs' fs →
    fs.arrive false p = .reached location → fs.root.get? location = some (.file old bits) →
      replace fs p content = .error e → replace fs' p content = .error e

/-- Replacing files as such is steady. -/
theorem steady_replace : Steady FileSystem.replace :=
  fun _ _ _ _ _ _ _ _ h hp hfile => FileSystem.replace_of_samePlaces h hp hfile

/-- File systems that are the same but for what is in the file at a location. -/
structure SameElsewhere (location : Location) (fs' fs : FileSystem) : Prop where
  places : SamePlaces fs' fs
  file : ∀ other content bits, other ≠ location →
    fs.root.get? other = some (.file content bits) → fs'.root.get? other = some (.file content bits)

/-- An entry is about the file at a location, which its visited path denotes. -/
def Entry.IsAt (settings : Settings) (fs : FileSystem) (location : Location) (e : Entry) : Prop :=
  ∃ p ∈ visited settings fs, fs.Denotes p location ∧ ∃ outcome, e = .processed p outcome

/-- Lists that are the same but for at most one element each, which stand in the same place and are
such as `own` says. -/
def SameBut {α : Type} (own : α → Prop) (xs ys : List α) : Prop :=
  ∃ (before after : List α) (x? y? : Option α), xs = before ++ x?.toList ++ after ∧
    ys = before ++ y?.toList ++ after ∧ (∀ x ∈ x?, own x) ∧ ∀ y ∈ y?, own y

variable {α β : Type}

/-- Lists that are the same but for one element each are so after a function was applied. -/
theorem SameBut.filterMap {own : α → Prop} {xs ys : List α} (h : SameBut own xs ys)
    {f : α → Option β} {own' : β → Prop} (hf : ∀ x y, own x → f x = some y → own' y) :
    SameBut own' (xs.filterMap f) (ys.filterMap f) := by
  obtain ⟨before, after, x?, y?, rfl, rfl, hx, hy⟩ := h
  have hpart (z? : Option α) : (before ++ z?.toList ++ after).filterMap f =
      before.filterMap f ++ (z?.bind f).toList ++ after.filterMap f := by
    rw [List.filterMap_append, List.filterMap_append]
    cases z? with
    | none => rfl
    | some z => cases hz : f z <;> simp [hz]
  have hown (z? : Option α) (hz : ∀ z ∈ z?, own z) : ∀ w ∈ z?.bind f, own' w := by
    intro w hw
    obtain ⟨z, rfl, hfz⟩ := Option.bind_eq_some_iff.mp hw
    exact hf z w (hz z rfl) hfz
  exact ⟨before.filterMap f, after.filterMap f, x?.bind f, y?.bind f, hpart x?, hpart y?,
    hown x? hx, hown y? hy⟩

/-- Lists are the same if there is no element in which they could differ. -/
theorem SameBut.eq {own : α → Prop} {xs ys : List α} (h : SameBut own xs ys)
    (hown : ∀ x, ¬own x) : xs = ys := by
  obtain ⟨before, after, x? | x, y? | y, rfl, rfl, hx, hy⟩ := h
  · rfl
  · exact absurd (hy y rfl) (hown y)
  · exact absurd (hx x rfl) (hown x)
  · exact absurd (hx x rfl) (hown x)

/-! ## File systems that differ in one file -/

namespace SameElsewhere

theorem symm (h : SameElsewhere location fs' fs) : SameElsewhere location fs fs' := by
  refine ⟨h.places.symm, fun other content bits hne hfile => ?_⟩
  -- There is some regular file in the other tree, and its content is kept the known way round.
  obtain ⟨content', hfile'⟩ := h.places.symm.exists_file hfile
  have hsame := h.file other content' bits hne hfile'
  obtain rfl : content = content' := by simpa [hfile] using hsame
  exact hfile'

theorem trans (h : SameElsewhere location fs'' fs') (h' : SameElsewhere location fs' fs) :
    SameElsewhere location fs'' fs :=
  ⟨h.places.trans h'.places, fun other content bits hne hfile =>
    h.file other content bits hne (h'.file other content bits hne hfile)⟩

/-- New content in the file makes no difference elsewhere. -/
theorem of_put (hfile : fs.root.get? location = some (.file content bits)) (new : ByteArray) :
    SameElsewhere location { fs with root := fs.root.put location (.file new bits) } fs :=
  ⟨⟨Node.blank_put hfile new, rfl⟩, fun _ _ _ hne hother =>
    Node.get?_put_file hfile hother rfl hne _⟩

/-- The same new content in another file makes no difference. -/
theorem put (h : SameElsewhere location fs' fs) (hne : place ≠ location)
    (hfile : fs.root.get? place = some (.file old bits)) (new : ByteArray) :
    SameElsewhere location { fs' with root := fs'.root.put place (.file new bits) }
      { fs with root := fs.root.put place (.file new bits) } := by
  have hfile' := h.file place old bits hne hfile
  have hput := of_put hfile new
  have hput' := of_put hfile' new
  refine ⟨hput'.places.trans (h.places.trans hput.places.symm), ?_⟩
  intro other content bits' hother hget
  by_cases hplace : other = place
  · subst hplace
    have hself : (fs.root.put other (.file new bits)).get? other = some (.file new bits) :=
      Node.get?_put_self hfile
    rw [← hget, hself]
    exact Node.get?_put_self hfile'
  · exact hput'.file other content bits' hplace
      (h.file other content bits' hother (hput.symm.file other content bits' hplace hget))

end SameElsewhere

/-! ## Processing one file -/

/-- What is read at a path decides whether a run leaves all files as they are, with some outcome, or
writes back some sanitised text. -/
theorem file_decided (replace : Replacer) (settings : Settings) (mode : RunMode) (p : Path)
    (read : Except IoError String) :
    (∃ outcome log, ∀ fs : FileSystem, fs.readText p = read →
      file replace settings mode p fs = ⟨outcome, fs, log⟩) ∨
    ∃ t s log, read = .ok t ∧ ∀ fs : FileSystem, fs.readText p = read →
      file replace settings mode p fs = writeBack replace mode p s log fs := by
  -- The file system is asked for the text only, until the sanitised text is written back.
  cases read with
  | error e => exact .inl ⟨_, _, fun fs hread => by rw [file, hread]⟩
  | ok t =>
    have hfile (fs : FileSystem) (hread : fs.readText p = .ok t) :
        file replace settings mode p fs =
          processText replace settings mode p t.toList fs := by
      rw [file, hread]
    cases hcall : Call.occursIn t.toList with
    | false => exact .inl ⟨_, _, fun fs hread => by rw [hfile fs hread, processText, hcall]; rfl⟩
    | true =>
      rcases hsanitized : sanitizeFile settings p t.toList with ⟨e | s, log⟩
      · exact .inl ⟨_, _, fun fs hread => by
          rw [hfile fs hread, processText, hcall, hsanitized]; rfl⟩
      · by_cases hsame : s.text = t.toList
        · refine .inl ⟨.unchanged,
            log ++ [fileEvent .debug "rewrite produced identical text" p], fun fs hread => ?_⟩
          rw [hfile fs hread, processText, hcall, hsanitized]
          exact if_pos (beq_iff_eq.mpr hsame)
        · refine .inr ⟨t, s, log, rfl, fun fs hread => ?_⟩
          rw [hfile fs hread, processText, hcall, hsanitized]
          exact if_neg (mt beq_iff_eq.mp hsame)

/-- A path that denotes another file reads the same, has the same outcome and leaves the file
systems the same elsewhere. -/
theorem file_congr (settings : Settings) (mode : RunMode) (hreplace : Faithful replace)
    (hsteady : Steady replace) (h : SameElsewhere location fs' fs) (hp : Candidate fs p)
    (hne : ¬fs.Denotes p location) :
    (file replace settings mode p fs').outcome = (file replace settings mode p fs).outcome ∧
      SameElsewhere location (file replace settings mode p fs').files
        (file replace settings mode p fs).files := by
  have hread : fs'.readText p = fs.readText p := by
    refine readText_congr h.places fun other harrive => ?_
    obtain ⟨_, content, bits, harrive', hfile⟩ := hp.file (short_of_arrive harrive)
    obtain rfl := Arrival.reached.inj (harrive.symm.trans (harrive' true))
    rw [hfile]
    exact h.file other content bits (fun heq => hne (heq ▸ hp.denotes harrive)) hfile
  rcases file_decided replace settings mode p (fs.readText p) with
    ⟨outcome, log, hdecided⟩ | ⟨t, s, log, hok, hdecided⟩
  · rw [hdecided fs' hread, hdecided fs rfl]
    exact ⟨rfl, h⟩
  · rw [hdecided fs' hread, hdecided fs rfl]
    cases mode with
    | check => exact ⟨rfl, h⟩
    | fix =>
      obtain ⟨place, old, bits, harrive, hfile⟩ := hp.file (short_of_readText hok)
      have hplace : place ≠ location := fun heq => hne (heq ▸ hp.denotes (harrive true))
      have hfile' := h.file place old bits hplace hfile
      have harrive' : fs'.arrive false p = .reached place := by rw [h.places.arrive, harrive]
      unfold writeBack
      dsimp only
      -- What keeps the file from being replaced in one of the trees does so in the other one.
      cases hdone : replace fs p (encode s.text) with
      | error e =>
        rw [hsteady _ _ _ _ _ _ _ _ h.places (harrive false) hfile hdone]
        exact ⟨rfl, h⟩
      | ok after =>
        cases hdone' : replace fs' p (encode s.text) with
        | error e =>
          rw [hsteady _ _ _ _ _ _ _ _ h.places.symm harrive' hfile' hdone'] at hdone
          contradiction
        | ok after' =>
          obtain rfl := FileSystem.replace_eq_ok (harrive false) hfile (hreplace _ _ _ _ hdone)
          obtain rfl := FileSystem.replace_eq_ok harrive' hfile' (hreplace _ _ _ _ hdone')
          exact ⟨rfl, h.put hplace hfile _⟩

/-- Processing a path that denotes the file changes nothing elsewhere. -/
theorem file_own (settings : Settings) (mode : RunMode) (hreplace : Faithful replace)
    (hp : Candidate fs p) (hdenotes : fs.Denotes p location) :
    SameElsewhere location (file replace settings mode p fs).files fs := by
  refine ⟨file_samePlaces hreplace hp, fun other content bits hne hfile => ?_⟩
  refine file_elsewhere hreplace hp (fun harrive => hne ?_) hfile
  exact (FileSystem.denotes_of_arrive harrive).unique hdenotes

/-! ## Going through two runs side by side -/

/-- A stop at another file has the same entry and leaves the file systems the same elsewhere. -/
theorem carryOut_congr (settings : Settings) (mode : RunMode) (hreplace : Faithful replace)
    (hsteady : Steady replace) (h : SameElsewhere location fs' fs)
    (hstop : ∀ q, stop = .file q → Candidate fs q ∧ ¬fs.Denotes q location) :
    (stop.carryOut replace settings mode fs').1 = (stop.carryOut replace settings mode fs).1 ∧
      SameElsewhere location (stop.carryOut replace settings mode fs').2
        (stop.carryOut replace settings mode fs).2 := by
  cases stop with
  | missing dir => exact ⟨rfl, h⟩
  | file path =>
    obtain ⟨hpath, hne⟩ := hstop path rfl
    obtain ⟨houtcome, hafter⟩ := file_congr settings mode hreplace hsteady h hpath hne
    exact ⟨congrArg (Entry.processed path) houtcome, hafter⟩

/-- Stops at other files have the same entries and leave the file systems the same elsewhere. -/
theorem entries_congr (settings : Settings) (mode : RunMode) (hreplace : Faithful replace)
    (hsteady : Steady replace) (h : SameElsewhere location fs' fs) (hstops : Candidates fs stops)
    (hne : ∀ p ∈ paths stops, ¬fs.Denotes p location) :
    entries replace settings mode fs' stops = entries replace settings mode fs stops ∧
      SameElsewhere location (filesAfter replace settings mode fs' stops)
        (filesAfter replace settings mode fs stops) := by
  induction stops generalizing fs fs' with
  | nil => exact ⟨rfl, h⟩
  | cons stop rest ih =>
    obtain ⟨hstop, hplaces, hrest⟩ := hstops.of_cons settings mode hreplace
    obtain ⟨hfirst, hlater⟩ := forall_paths_cons.mp hne
    obtain ⟨hentry, hafter⟩ := carryOut_congr settings mode hreplace hsteady h
      fun q heq => ⟨hstop q heq, hfirst q heq⟩
    obtain ⟨hentries, hfiles⟩ := ih hafter hrest
      fun p hp hdenotes => hlater p hp (hplaces.denotes.mp hdenotes)
    exact ⟨by rw [entries_cons, entries_cons, hentry, hentries], hfiles⟩

/-- If the files at stops are apart from each other, at most one stop is at a file. -/
theorem exists_of_pairwise (hapart : (paths stops).Pairwise fs.Apart) (location : Location) :
    (∀ p ∈ paths stops, ¬fs.Denotes p location) ∨
      ∃ first p last, stops = first ++ .file p :: last ∧ fs.Denotes p location ∧
        ∀ q ∈ paths first ++ paths last, ¬fs.Denotes q location := by
  by_cases hnone : ∀ p ∈ paths stops, ¬fs.Denotes p location
  · exact .inl hnone
  · push Not at hnone
    obtain ⟨p, hp, hdenotes⟩ := hnone
    obtain ⟨stop, hstop, hpath⟩ := List.mem_filterMap.mp hp
    obtain ⟨first, last, rfl⟩ := List.append_of_mem hstop
    cases stop with
    | missing dir => contradiction
    | file path =>
      obtain rfl : path = p := Option.some.inj hpath
      refine .inr ⟨first, path, last, rfl, hdenotes, fun q hq => ?_⟩
      rw [paths_append, paths_file, List.pairwise_append] at hapart
      obtain ⟨-, hlast, hcross⟩ := hapart
      rcases List.mem_append.mp hq with hfirst | hrest
      · exact fun hq => hcross q hfirst path List.mem_cons_self location hq hdenotes
      · exact (List.pairwise_cons.mp hlast).1 q hrest location hdenotes

/-- Going through stops is going through those before a file, processing the file and going through
the others. -/
theorem entries_through (replace : Replacer) (settings : Settings) (mode : RunMode)
    (fs : FileSystem) (first : List Stop) (p : Path) (last : List Stop) :
    let processed := file replace settings mode p (filesAfter replace settings mode fs first)
    entries replace settings mode fs (first ++ .file p :: last) =
        entries replace settings mode fs first ++
          (some (Entry.processed p processed.outcome)).toList ++
            entries replace settings mode processed.files last ∧
      filesAfter replace settings mode fs (first ++ .file p :: last) =
        filesAfter replace settings mode processed.files last := by
  intro processed
  rw [entries_append, entries_cons, filesAfter_append, filesAfter_cons, List.append_assoc]
  exact ⟨rfl, rfl⟩

/-- Going through stops at files that are apart from each other, in file systems that are the same
but for one file, has the same record but for one entry about that file, and leaves the file systems
the same elsewhere. -/
theorem entries_isolated (settings : Settings) (mode : RunMode) (hreplace : Faithful replace)
    (hsteady : Steady replace) (h : SameElsewhere location fs' fs) (hstops : Candidates fs stops)
    (hvisited : paths stops ⊆ visited settings fs) (hapart : (paths stops).Pairwise fs.Apart) :
    SameBut (Entry.IsAt settings fs location) (entries replace settings mode fs' stops)
        (entries replace settings mode fs stops) ∧
      SameElsewhere location (filesAfter replace settings mode fs' stops)
        (filesAfter replace settings mode fs stops) := by
  rcases exists_of_pairwise hapart location with
    hnone | ⟨first, p, last, rfl, hdenotes, hothers⟩
  · obtain ⟨hentries, hfiles⟩ := entries_congr settings mode hreplace hsteady h hstops hnone
    exact ⟨⟨_, [], none, none, by simpa using hentries, by simp, by simp, by simp⟩, hfiles⟩
  · have hat (outcome : Outcome) : Entry.IsAt settings fs location (.processed p outcome) :=
      ⟨p, hvisited (by simp), hdenotes, outcome, rfl⟩
    obtain ⟨hfirst, hthen⟩ : Candidates fs first ∧ Candidates fs (.file p :: last) :=
      forall_paths_append.mp hstops
    obtain ⟨hp, hlast⟩ : Candidate fs p ∧ Candidates fs last :=
      List.forall_mem_cons.mp hthen
    have hplaces : SamePlaces (filesAfter replace settings mode fs first) fs :=
      filesAfter_samePlaces hreplace hfirst
    obtain ⟨hbefore, hreached⟩ := entries_congr settings mode hreplace hsteady h hfirst
      fun q hq => hothers q (List.mem_append_left _ hq)
    obtain ⟨hentries, hfiles⟩ := entries_through replace settings mode fs first p last
    obtain ⟨hentries', hfiles'⟩ := entries_through replace settings mode fs' first p last
    rw [hentries, hfiles, hentries', hfiles', hbefore]
    generalize filesAfter replace settings mode fs first = here at hplaces hreached ⊢
    generalize filesAfter replace settings mode fs' first = here' at hreached ⊢
    -- Whatever becomes of the file, the file systems are still the same elsewhere.
    have hhere : Candidate here p := hp.of_samePlaces hplaces
    have hown : SameElsewhere location (file replace settings mode p here).files here :=
      file_own settings mode hreplace hhere (hplaces.denotes.mpr hdenotes)
    have hown' : SameElsewhere location (file replace settings mode p here').files here' :=
      file_own settings mode hreplace (hhere.of_samePlaces hreached.places)
        (hreached.places.denotes.mpr (hplaces.denotes.mpr hdenotes))
    have hsame := hown'.trans (hreached.trans hown.symm)
    have hleft : SamePlaces (file replace settings mode p here).files fs :=
      hown.places.trans hplaces
    obtain ⟨hafter, hend⟩ := entries_congr settings mode hreplace hsteady hsame
      (hlast.of_samePlaces hleft)
      fun q hq hqdenotes => hothers q (List.mem_append_right _ hq) (hleft.denotes.mp hqdenotes)
    rw [hafter]
    exact ⟨⟨_, _, some _, some _, rfl, rfl, fun e he => Option.mem_some_iff.mp he ▸ hat _,
      fun e he => Option.mem_some_iff.mp he ▸ hat _⟩, hend⟩

/-! ## Whole runs -/

/-- Let other bytes be in one file, and let visited paths that denote the same file take the same
steps. Then a complete run does to the other files what it does without them. Its record is the same
but for at most one entry, whose path denotes the file, and so are the lists of modified files and
of failures in its summary; the list of missing directories is the same. -/
theorem tree_isolated (settings : Settings) (mode : RunMode) (hreplace : Faithful replace)
    (hsteady : Steady replace) (hfs : fs.root.WellFormed) (halike : SpelledAlike settings fs)
    (hfile : fs.root.get? location = some (.file content bits)) (new : ByteArray)
    (output : Output) :
    let fs' := { fs with root := fs.root.put location (.file new bits) }
    let run := tree replace settings mode fs output
    let run' := tree replace settings mode fs' output
    run.output.failed = false → run'.output.failed = false →
      SameElsewhere location run'.files run.files ∧
        SameBut (Entry.IsAt settings fs location) (history replace settings mode fs' output)
          (history replace settings mode fs output) ∧
        SameBut (fun rel => ∃ p ∈ visited settings fs, fs.Denotes p location ∧
            rel = relative settings p) run'.summary.modified run.summary.modified ∧
        SameBut (fun failure => failure.path ∈ visited settings fs ∧
            fs.Denotes failure.path location) run'.summary.failures run.summary.failures ∧
        run'.summary.missingDirs = run.summary.missingDirs := by
  intro fs' run run' hopen hopen'
  have hput : SameElsewhere location fs' fs := .of_put hfile new
  have hwf : fs'.root.WellFormed := hfs.of_blank hput.places.blank
  obtain ⟨hrecord, hfiles, hsummary⟩ := of_complete hreplace hfs hopen
  obtain ⟨hrecord', hfiles', hsummary'⟩ := of_complete hreplace hwf hopen'
  -- Both runs have one agenda.
  rw [agenda_congr hput.places] at hrecord' hfiles'
  obtain ⟨hone, hend⟩ := entries_isolated settings mode hreplace hsteady hput
    (candidates_agenda hfs) (fun p hp => (of_mem_agenda hp).1) (pairwise_apart halike)
  rw [← hrecord, ← hrecord'] at hone
  rw [← hfiles, ← hfiles'] at hend
  refine ⟨hend, hone, ?_, ?_, ?_⟩
  · rw [hsummary, hsummary', modified_foldl, modified_foldl, List.nil_append, List.nil_append]
    refine hone.filterMap ?_
    rintro e rel ⟨p, hp, hdenotes, outcome, rfl⟩ hrel
    cases outcome with
    | modified => exact ⟨p, hp, hdenotes, (Option.some.inj hrel).symm⟩
    | _ => contradiction
  · rw [hsummary, hsummary', failures_foldl, failures_foldl, List.nil_append, List.nil_append]
    refine hone.filterMap ?_
    rintro e failure ⟨p, hp, hdenotes, outcome, rfl⟩ hfailure
    cases outcome with
    | failed =>
      obtain rfl := Option.some.inj hfailure
      exact ⟨hp, hdenotes⟩
    | _ => contradiction
  · -- No entry about a file lists a missing directory.
    have hnone : SameBut (fun _ => False)
        ((history replace settings mode fs' output).filterMap Entry.missing?)
        ((history replace settings mode fs output).filterMap Entry.missing?) := by
      refine hone.filterMap ?_
      rintro e dir ⟨p, -, -, outcome, rfl⟩ hdir
      contradiction
    rw [hsummary, hsummary', missingDirs_foldl, missingDirs_foldl, hnone.eq fun _ h => h]

/-- A file is replaced by one that is not UTF-8. It fails then, and the other file is sanitised as
before. -/
theorem tree_isolated_of_failure :
    let settings := sampleSettings "" ["one", "two"] []
    let fs := twoFileTree (encode "console.log(1);\n".toList) (encode "console.log(2);\n".toList)
    let place := filePlace "one" "a.ts"
    let fs' := { fs with root := fs.root.put place (.file ⟨#[0xC3, 0x28]⟩ 0o600) }
    let run := tree FileSystem.replace settings .fix fs {}
    let run' := tree FileSystem.replace settings .fix fs' {}
    fs.root.WellFormed ∧ SpelledAlike settings fs ∧
      run.output.failed = false ∧ run'.output.failed = false ∧
      run.summary.modified = [.ofString "one/a.ts", .ofString "two/b.ts"] ∧
      run'.summary.modified = [.ofString "two/b.ts"] ∧
      SameElsewhere place run'.files run.files ∧
      SameBut (Entry.IsAt settings fs place) (history FileSystem.replace settings .fix fs' {})
        (history FileSystem.replace settings .fix fs {}) := by
  intro settings fs place fs' run run'
  have hfs : fs.root.WellFormed := Node.wellFormed_of_all (by decide +kernel)
  have halike : SpelledAlike settings fs := by
    have hvisited : visited settings fs = [.ofString "one/a.ts", .ofString "two/b.ts"] := by
      decide +kernel
    have hfirst : fs.Denotes (.ofString "one/a.ts") place := rfl
    have hsecond : fs.Denotes (.ofString "two/b.ts") (filePlace "two" "b.ts") := rfl
    have hne : place ≠ filePlace "two" "b.ts" := by decide
    intro p hp q hq _ _ location hdenotes hdenotes'
    rw [hvisited, List.mem_pair] at hp hq
    rcases hp with rfl | rfl <;> rcases hq with rfl | rfl
    · exact beq_self_eq_true _
    · exact absurd ((hfirst.unique hdenotes).trans (hdenotes'.unique hsecond)) hne
    · exact absurd ((hfirst.unique hdenotes').trans (hdenotes.unique hsecond)) hne
    · exact beq_self_eq_true _
  have hopen : run.output.failed = false := by decide +kernel
  have hopen' : run'.output.failed = false := by decide +kernel
  obtain ⟨hsame, hrecord, -⟩ := tree_isolated settings .fix faithful_replace steady_replace hfs
    halike rfl ⟨#[0xC3, 0x28]⟩ {} hopen hopen'
  exact ⟨hfs, halike, hopen, hopen', by decide +kernel, by decide +kernel, hsame, hrecord⟩

end LogGuard.Run
