import LogGuard.FileSystem.Edit
import LogGuard.Proofs.Run.Tree
import LogGuard.Proofs.Settings.SafetyModule

/-!
# The source of the safety module

A run leaves a visited file out if its path is excluded or if, seen from the root, it takes the
steps of the safety module with an extension (`LeftOut`). This is decided by the path alone, so the
source of the safety module is safe only if every visited path that leads to it is left out. If all
are, no run changes it (`Reaches.kept`); if one is not, a run that is not cut short sanitises it
(`Reaches.cleaned`).
-/

namespace LogGuard.Run

open FileSystem (SamePlaces maxPath tempDirectory segments)

variable {replace : Replacer} {settings : Settings} {mode : RunMode} {fs : FileSystem}
  {st st' : State} {done : List Path} {p q : Path} {location : Location} {content : ByteArray}
  {bits : Nat} {t : Text}

/-- The settings leave a visited file out. -/
def LeftOut (settings : Settings) (p : Path) : Prop :=
  settings.isExcluded (relative settings p) = true ∨ settings.SpellsModule (relative settings p)

/-- Seen from the root, a candidate takes the steps after those of the root. It ends with a name, or
it is the root itself. -/
theorem relative_spec (settings : Settings) (hp : Candidate fs p) :
    (∀ steps, p.components = settings.root.components ++ steps →
        (relative settings p).components = steps) ∧
      ((relative settings p).components = [] ∨
        ∃ front name, segments (relative settings p) = front ++ [name] ∧
          Path.component? name = some (.normal name)) := by
  obtain ⟨front, name, hsegments, hname⟩ := hp.name
  unfold relative
  cases hstrip : Path.stripPrefix? settings.root p with
  | none =>
    -- The root cannot be stripped, so the path does not take its steps.
    refine ⟨fun steps hsteps => ?_, .inr ⟨front, name, hsegments, hname⟩⟩
    exact absurd ⟨steps, hsteps.symm⟩ (Path.stripPrefix?_eq_none_iff.mp hstrip)
  | some rel =>
    obtain ⟨-, hsolid, -⟩ := Path.component?_eq_normal.mp hname
    have hrel := Path.components_of_stripPrefix? hstrip
    have hend := Path.segments_of_stripPrefix? hsegments hsolid hstrip
    refine ⟨fun steps hsteps => List.append_cancel_left (hrel.symm.trans hsteps), ?_⟩
    refine hend.imp_right ?_
    rintro ⟨init, hinit⟩
    exact ⟨init, name, hinit, hname⟩

/-- A visit skips the candidates that are left out, and no others but those that were processed. -/
theorem leftOut_iff (hsettings : settings.Accepted) (hp : Candidate fs p) :
    LeftOut settings p ↔
      settings.isExcluded (relative settings p) = true ∨
        settings.isSafetyModule (relative settings p) = true := by
  refine or_congr Iff.rfl ?_
  rcases (relative_spec settings hp).2 with hnil | ⟨front, name, hsegments, hname⟩
  · obtain ⟨hmodule, hspells⟩ := Settings.isSafetyModule_of_nil (s := settings) hnil
    rw [hmodule]
    exact ⟨fun h => absurd h hspells, fun h => by contradiction⟩
  · exact (hsettings.isSafetyModule_iff hsegments hname).symm

/-- A candidate that takes the steps of the root and those of the module is left out. -/
theorem leftOut_of_components (hp : Candidate fs p) {e : Text} {steps : List Component}
    (he : e ∈ settings.extensions) (hdot : '.' ∉ e) (hsteps : settings.SourceSteps e steps)
    (hcomponents : p.components = settings.root.components ++ steps) : LeftOut settings p := by
  have hrelative := (relative_spec settings hp).1 steps hcomponents
  exact .inr ⟨e, he, hdot, hrelative ▸ hsteps⟩

/-! ## Files that are kept -/

/-- A run keeps a file if all visited paths that lead to it are left out. -/
theorem Reaches.kept (h : Reaches replace settings mode st done st')
    (hsettings : settings.Accepted) (hreplace : Faithful replace) (hst : SamePlaces st.files fs)
    (hdone : ∀ p ∈ done, Candidate fs p)
    (hleft : ∀ p ∈ done, fs.arrive false p = .reached location → LeftOut settings p)
    (hfile : st.files.root.get? location = some (.file content bits)) :
    st'.files.root.get? location = some (.file content bits) := by
  induction h with
  | start hfiles => rwa [hfiles]
  | @visit done path between st' h hstep ih =>
    have hbefore : ∀ p ∈ done, Candidate fs p := fun p hp => hdone p (List.mem_append_left _ hp)
    have hkept := ih hbefore fun p hp => hleft p (List.mem_append_left _ hp)
    cases hstep with
    | skipped _ hfiles => rwa [hfiles]
    | processed hexcluded hmodule _ hfiles =>
      -- A path that is processed is not left out, so it leads to another file.
      have hplaces := h.samePlaces hreplace hst hbefore
      have hpath := hdone path (by simp)
      rw [hfiles]
      refine file_elsewhere hreplace (hpath.of_samePlaces hplaces) (fun harrive => ?_) hkept
      rw [hplaces.arrive] at harrive
      have hskip := (leftOut_iff hsettings hpath).mp (hleft path (by simp) harrive)
      simp [hexcluded, hmodule] at hskip

/-! ## Files that are sanitised -/

/-- At a location there is a regular file without a call. -/
def Cleaned (root : Node) (location : Location) (bits : Nat) : Prop :=
  ∃ t, root.get? location = some (.file (encode t) bits) ∧ Call.occursIn t = false

/-- A file without a call is no file with one. -/
theorem Cleaned.ne {root : Node} (h : Cleaned root location bits) (hcall : Call.occursIn t = true) :
    root.get? location ≠ some (.file (encode t) bits) := by
  obtain ⟨t', hfile, hcall'⟩ := h
  rintro hsame
  obtain ⟨hencode, -⟩ := Node.file.inj (Option.some.inj (hfile.symm.trans hsame))
  obtain rfl : t' = t := encode_injective hencode
  rw [hcall] at hcall'
  contradiction

/-- A file with the text `t` can be sanitised and replaced at a path. -/
structure Processable (settings : Settings) (fs : FileSystem) (t : Text) (p : Path) : Prop where
  /-- The path can be followed. -/
  short : p.bytes.length ≤ maxPath
  /-- There is room for the path of a temporary file. -/
  fits : fs.fitsTemp (tempDirectory p) = true
  /-- The text mentions the module, or there is an import for the file. -/
  sanitized : ∃ s, sanitized settings p t = .ok s

/-- Processing a candidate puts nothing but texts without a call into files. -/
theorem file_cleaned (hreplace : Faithful replace) (hp : Candidate fs p)
    (hfile : fs.root.get? location = some (.file content bits)) :
    (file replace settings mode p fs).files.root.get? location = some (.file content bits) ∨
      Cleaned (file replace settings mode p fs).files.root location bits := by
  rcases file_cases hreplace hp with
    ⟨-, hsame⟩ | ⟨-, other, bits', t, s, -, hother, -, hsanitized, -, hput⟩
  · rw [hsame]
    exact .inl hfile
  · rw [hput]
    by_cases heq : location = other
    · subst heq
      obtain ⟨-, rfl⟩ : content = encode t ∧ bits = bits' := by simpa [hfile] using hother
      exact .inr ⟨s.text, Node.get?_put_self hother, occursIn_of_sanitize hsanitized⟩
    · exact .inl (Node.get?_put_file hother hfile rfl heq _)

/-- A file without a call stays one. -/
theorem Cleaned.file (h : Cleaned fs.root location bits) (hreplace : Faithful replace)
    (hp : Candidate fs p) : Cleaned (file replace settings mode p fs).files.root location bits := by
  obtain ⟨t, hfile, hcall⟩ := h
  rcases file_cleaned hreplace hp hfile with hsame | hcleaned
  · exact ⟨t, hsame, hcall⟩
  · exact hcleaned

/-- Processing a file with a call that can be processed leaves none in it. -/
theorem file_processable (hprocessable : Processable settings fs t p)
    (hp : ∀ followLast, fs.arrive followLast p = .reached location)
    (hfile : fs.root.get? location = some (.file (encode t) bits))
    (hcall : Call.occursIn t = true) (hreads : ownerReads bits = true) :
    Cleaned (file FileSystem.replace settings .fix p fs).files.root location bits := by
  obtain ⟨s, hsanitized⟩ := hprocessable.sanitized
  have hread : fs.readText p = .ok (String.ofList t) :=
    (readText_eq_ok_iff (hp true) hfile).mpr ⟨hreads, by rw [String.toList_ofList]⟩
  obtain ⟨-, hfiles⟩ := (file_step FileSystem.replace settings .fix p fs).eq_of_replaced _ _ _ _
    hread (by rwa [String.toList_ofList]) (by rwa [String.toList_ofList])
    (FileSystem.replace_of_fits (hp false) hfile hprocessable.fits)
  rw [hfiles]
  exact ⟨s.text, Node.get?_put_self hfile, occursIn_of_sanitize hsanitized⟩

/-- Whether there is room for a temporary file depends on the working directory only. -/
theorem Processable.of_samePlaces {fs' : FileSystem} (h : Processable settings fs t p)
    (hplaces : SamePlaces fs' fs) : Processable settings fs' t p := by
  refine ⟨h.short, ?_, h.sanitized⟩
  rw [hplaces.fitsTemp, h.fits]

/-- Once a path that is not left out was visited, it is among the paths seen, or one with the same
steps is. -/
theorem Reaches.seen_of_mem (h : Reaches replace settings mode st done st')
    (hsettings : settings.Accepted) (hp : Candidate fs p) (hleft : ¬LeftOut settings p)
    (hmem : p ∈ done) : st'.seen.any p.same = true := by
  induction h with
  | start => contradiction
  | visit _ hstep ih =>
    rw [List.mem_append, List.mem_singleton] at hmem
    rcases hstep with ⟨hskip, -, hseen⟩ | ⟨-, -, -, -, hseen⟩
    · rw [hseen]
      rcases hmem with hbefore | rfl
      · exact ih hbefore
      · rw [leftOut_iff hsettings hp, not_or] at hleft
        rcases hskip with hexcluded | hmodule | hany
        · exact absurd hexcluded hleft.1
        · exact absurd hmodule hleft.2
        · exact hany
    · rw [hseen, List.any_cons, Bool.or_eq_true]
      rcases hmem with hbefore | rfl
      · exact .inr (ih hbefore)
      · exact .inl (beq_self_eq_true _)

/-- A run keeps a file with a call or leaves none in it, and the latter if one of the paths that
take the steps of `p` was processed. -/
theorem Reaches.cleaned {output : Output}
    (h : Reaches FileSystem.replace settings .fix (Run.start .fix fs output) done st')
    (hdone : ∀ q ∈ done, Candidate fs q) (hp : fs.arrive false p = .reached location)
    (hfile : fs.root.get? location = some (.file (encode t) bits))
    (hcall : Call.occursIn t = true) (hreads : ownerReads bits = true)
    (hsame : ∀ q ∈ done, p.same q = true → Processable settings fs t q) :
    (st'.files.root.get? location = some (.file (encode t) bits) ∨
        Cleaned st'.files.root location bits) ∧
      (st'.seen.any p.same = true → Cleaned st'.files.root location bits) := by
  induction h with
  | start hfiles hseen =>
    rw [hfiles, hseen]
    exact ⟨.inl hfile, fun hany => absurd hany (by simp [Run.start])⟩
  | @visit done path between st' h hstep ih =>
    have hbefore : ∀ q ∈ done, Candidate fs q := fun q hq => hdone q (List.mem_append_left _ hq)
    obtain ⟨hcontent, hseen_cleaned⟩ := ih hbefore fun q hq => hsame q (List.mem_append_left _ hq)
    rcases hstep with ⟨-, hfiles, hseen⟩ | ⟨-, -, -, hfiles, hseen⟩
    · rw [hfiles, hseen]
      exact ⟨hcontent, hseen_cleaned⟩
    · have hplaces := h.samePlaces faithful_replace (SamePlaces.refl fs) hbefore
      have hpath := (hdone path (by simp)).of_samePlaces hplaces
      rw [hfiles, hseen, List.any_cons, Bool.or_eq_true]
      rcases hcontent with horiginal | hcleaned
      · -- A path that does not lead to the file may be processed before those that do.
        refine ⟨file_cleaned faithful_replace hpath horiginal, ?_⟩
        rintro (hpath_same | hany)
        · -- The path leads to the file, which is processed now.
          have hprocessable := (hsame path (by simp) hpath_same).of_samePlaces hplaces
          rw [← hplaces.arrive] at hp
          exact file_processable hprocessable
            (hpath.arrive_of_same hprocessable.short hpath_same hp horiginal) horiginal hcall hreads
        · exact (hseen_cleaned hany).file faithful_replace hpath
      · have hstill : Cleaned (file FileSystem.replace settings .fix path between.files).files.root
            location bits := hcleaned.file faithful_replace hpath
        exact ⟨.inr hstill, fun _ => hstill⟩

/-! ## The source of the safety module -/

/-- There is a regular file at a location, and the path of the safety module with one of the
extensions leads to it. -/
structure IsSource (settings : Settings) (fs : FileSystem) (location : Location)
    (content : ByteArray) (bits : Nat) : Prop where
  path : ∃ e ∈ settings.extensions, fs.arrive false
    (settings.root.join (Settings.path (settings.safetyModule ++ '.' :: e))) = .reached location
  file : fs.root.get? location = some (.file content bits)

/-- A run keeps the source of the safety module if all visited paths that lead to it are left out.
Among them are all that take the steps of the root and then those of the module with an extension
that has no dot of its own. If one of them is not left out, a run that is not cut short leaves no
call in the source, as far as that can be processed at all. -/
theorem source_kept {config : FileSystem} {file? : Option Path} {settings : Settings}
    (h : (Settings.load config file?).1 = .ok settings) {fs : FileSystem}
    (hfs : fs.root.WellFormed) {location : Location} {content : ByteArray} {bits : Nat}
    (hsource : IsSource settings fs location content bits) :
    (∀ p ∈ visited settings fs, ∀ e ∈ settings.extensions, '.' ∉ e →
      ∀ steps, settings.SourceSteps e steps →
        p.components = settings.root.components ++ steps → LeftOut settings p) ∧
    ((∀ p ∈ visited settings fs, fs.arrive false p = .reached location → LeftOut settings p) →
      ∀ (replace : Replacer) (output : Output), Faithful replace →
        (tree replace settings .fix fs output).files.root.get? location =
          some (.file content bits)) ∧
    ∀ p ∈ visited settings fs, fs.arrive false p = .reached location → ¬LeftOut settings p →
      ∀ (t : Text) (output : Output), content = encode t → Call.occursIn t = true →
        ownerReads bits = true →
        (∀ q ∈ visited settings fs, p.same q = true → Processable settings fs t q) →
        (tree FileSystem.replace settings .fix fs output).output.failed = false →
        Cleaned (tree FileSystem.replace settings .fix fs output).files.root location bits ∧
        (tree FileSystem.replace settings .fix fs output).files.root.get? location ≠
          some (.file content bits) := by
  have hsettings := Settings.accepted_of_load h
  have hcandidate : ∀ p ∈ visited settings fs, Candidate fs p := by
    intro p hp
    obtain ⟨dir, -, hmem⟩ := List.mem_flatMap.mp hp
    exact candidate_of_mem hfs hmem
  refine ⟨?_, ?_, ?_⟩
  · intro p hp e he hdot steps hsteps hcomponents
    exact leftOut_of_components (hcandidate p hp) he hdot hsteps hcomponents
  · intro hleft replace output hreplace
    obtain ⟨done, hpre, hreaches, -⟩ := tree_reaches replace settings .fix hreplace hfs output
    exact hreaches.kept hsettings hreplace (SamePlaces.refl fs)
      (fun p hp => hcandidate p (hpre.subset hp)) (fun p hp => hleft p (hpre.subset hp))
      hsource.file
  · rintro p hp harrive hleft t output rfl hcall hreads hsame hcomplete
    obtain ⟨done, -, hreaches, hall⟩ :=
      tree_reaches FileSystem.replace settings .fix faithful_replace hfs output
    obtain rfl := hall hcomplete
    have hseen := hreaches.seen_of_mem hsettings (hcandidate p hp) hleft hp
    have hcleaned := (hreaches.cleaned hcandidate harrive hsource.file hcall hreads hsame).2 hseen
    exact ⟨hcleaned, hcleaned.ne hcall⟩

/-- The source of a safety module that prints the messages it is given. -/
def sourceText : Text :=
  "export const safeLog = (m) => console.log(m);\n".toList

/-- Where the source of the safety module stands in `sourceTree`. -/
def sourceLocation : Location :=
  [(Path.ofString "utils").bytes, (Path.ofString "securityUtils.ts").bytes]

/-- A root without a name, with the source of the safety module and a configuration that has one
directory scanned. -/
def sourceTree (dir : String) : FileSystem :=
  let config := "[safe_log_fixer]\nroot = ''\ndirs = ['".toList ++ dir.toList ++ "']\n".toList
  ⟨.directory FileSystem.directoryMode [
    (Settings.defaultFile.bytes, .file (encode config) 0o644),
    ((Path.ofString "utils").bytes, .directory FileSystem.directoryMode [
      ((Path.ofString "securityUtils.ts").bytes, .file (encode sourceText) 0o644)])], []⟩

/-- The settings in `sourceTree`. -/
def sourceSettings (dir : String) : Settings :=
  ⟨⟨[]⟩, [.ofString dir], Settings.defaultExtensions, Settings.defaultSafetyModule, []⟩

/-- A run in `sourceTree`. -/
def sourceRun (dir : String) : State :=
  tree FileSystem.replace (sourceSettings dir) .fix (sourceTree dir) {}

theorem wellFormed_sourceTree (dir : String) : (sourceTree dir).root.WellFormed := by
  have hnames : [Settings.defaultFile.bytes, (Path.ofString "utils").bytes].Nodup := by
    decide
  refine Node.wellFormed_directory hnames fun entry hentry => ?_
  rw [List.mem_pair] at hentry
  rcases hentry with rfl | rfl
  · have hvalid : ValidName Settings.defaultFile.bytes := by
      decide
    exact ⟨hvalid, Node.wellFormed_of_leaf rfl⟩
  · refine ⟨by decide, Node.wellFormed_directory (by decide) fun entry hentry => ?_⟩
    obtain rfl := List.mem_singleton.mp hentry
    exact ⟨by decide, Node.wellFormed_of_leaf rfl⟩

theorem isSource_sourceTree (dir : String) :
    IsSource (sourceSettings dir) (sourceTree dir) sourceLocation (encode sourceText) 0o644 := by
  have hextension : "ts".toList ∈ Settings.defaultExtensions := by
    decide
  exact ⟨⟨"ts".toList, hextension, rfl⟩, rfl⟩

/-- The source is kept if the directory is given by its name. With a leading dot it is sanitised. -/
theorem source_kept_of_plain_directory :
    (Settings.load (sourceTree "utils") none).1 = .ok (sourceSettings "utils") ∧
    (sourceRun "utils").files.root.get? sourceLocation =
      some (.file (encode sourceText) 0o644) ∧
    (Settings.load (sourceTree "./utils") none).1 = .ok (sourceSettings "./utils") ∧
    Cleaned (sourceRun "./utils").files.root sourceLocation 0o644 := by
  have hplain : (Settings.load (sourceTree "utils") none).1 = .ok (sourceSettings "utils") := by
    decide +kernel
  have hdotted :
      (Settings.load (sourceTree "./utils") none).1 = .ok (sourceSettings "./utils") := by
    decide +kernel
  have hvisited : visited (sourceSettings "utils") (sourceTree "utils") =
      [.ofString "utils/securityUtils.ts"] := by
    decide +kernel
  have hvisited' : visited (sourceSettings "./utils") (sourceTree "./utils") =
      [.ofString "./utils/securityUtils.ts"] := by
    decide +kernel
  refine ⟨hplain, ?_, hdotted, ?_⟩
  · obtain ⟨hleft, hkept, -⟩ :=
      source_kept hplain (wellFormed_sourceTree _) (isSource_sourceTree _)
    refine hkept (fun p hp _ => ?_) FileSystem.replace {} faithful_replace
    refine hleft p hp "ts".toList (by decide) (by decide) p.components ?_ rfl
    rw [hvisited, List.mem_singleton] at hp
    rw [hp]
    exact ⟨[.normal (Path.ofString "utils").bytes], (Path.ofString "securityUtils").bytes,
      by decide +kernel, by decide +kernel⟩
  · obtain ⟨-, -, hchanged⟩ :=
      source_kept hdotted (wellFormed_sourceTree _) (isSource_sourceTree _)
    have hmem : .ofString "./utils/securityUtils.ts" ∈
        visited (sourceSettings "./utils") (sourceTree "./utils") := by
      rw [hvisited', List.mem_singleton]
    refine (hchanged _ hmem rfl ?_ sourceText {} rfl (by decide +kernel) (by decide) ?_
      (by decide +kernel)).1
    · obtain ⟨dir, -, hbelow⟩ := List.mem_flatMap.mp hmem
      rw [leftOut_iff (Settings.accepted_of_load hdotted)
        (candidate_of_mem (wellFormed_sourceTree _) hbelow), not_or]
      exact ⟨by decide +kernel, by decide +kernel⟩
    · intro q hq _
      rw [hvisited', List.mem_singleton] at hq
      rw [hq]
      exact ⟨by decide +kernel, by decide +kernel,
        ⟨"export const safeLog = (m) => safeLog(m);\n".toList, 1, .unanchored⟩, by decide +kernel⟩

/-- With a leading dot before the directory, a run makes the source of the safety module call
itself. -/
theorem source_changed :
    (Settings.load (sourceTree "./utils") none).1 = .ok (sourceSettings "./utils") ∧
    IsSource (sourceSettings "./utils") (sourceTree "./utils") sourceLocation (encode sourceText)
      0o644 ∧
    (sourceTree "./utils").readText (.ofString "utils/securityUtils.ts") =
      .ok "export const safeLog = (m) => console.log(m);\n" ∧
    (sourceRun "./utils").files.readText (.ofString "utils/securityUtils.ts") =
      .ok "export const safeLog = (m) => safeLog(m);\n" := by
  refine ⟨by decide +kernel, isSource_sourceTree _, by decide +kernel, by decide +kernel⟩

end LogGuard.Run
