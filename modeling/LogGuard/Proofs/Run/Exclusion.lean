import LogGuard.Proofs.Glob.Stem
import LogGuard.Proofs.Run.Record
import LogGuard.Proofs.Settings.Accepted

/-!
# Directories that are left out

A pattern for all that is below a directory leaves out the paths that spell the directory as the
pattern does and are UTF-8 (`selects_of_spelledBelow`). The same file can be visited by a path that
spells the directory otherwise, with a doubled separator for instance. So a run passes by the files
below the directory exactly if all visited paths that lead there are left out (`excluded_subtree`).
It does if there are no links, the directories are spelled name by name, and what is below the
directory has names in UTF-8 (`spelledBelow_of_byNames`).
-/

namespace LogGuard.Run

open FileSystem (eq_append_of_follow stepTo)
open LogGuard.Path (IsName ofParts)

variable {replace : Replacer} {settings : Settings} {fs configured : FileSystem}
  {file? : Option Path} {e : Exclusion} {stem : Text} {directory : Location} {p : Path}

/-- A path denotes something below a directory. -/
def LeadsInto (fs : FileSystem) (directory : Location) (p : Path) : Prop :=
  ∃ names, names ≠ [] ∧ fs.Denotes p (directory ++ names)

/-- All visited paths that lead into a directory are left out. -/
def PassedBy (settings : Settings) (fs : FileSystem) (directory : Location) : Prop :=
  ∀ p ∈ visited settings fs, LeadsInto fs directory p → selects settings p = false

/-- The names in a path have one separator between them and nothing else. -/
def ByNames (p : Path) : Prop :=
  ∃ names, (∀ name ∈ names, IsName name) ∧ p = ofParts [] names

/-- There are no links, a directory below the root and the configured ones are spelled name by name,
and the files below the directory have names in UTF-8. -/
structure SpelledByNames (settings : Settings) (fs : FileSystem) (stem : Text)
    (directory : Location) : Prop where
  linkFree : fs.root.LinkFree
  stem_ne_nil : stem ≠ []
  stem : ByNames (Settings.path stem)
  dirs : ∀ dir ∈ settings.dirs, ByNames dir
  utf8 : ∀ names content bits, fs.root.get? (directory ++ names) = some (.file content bits) →
    ∀ name ∈ names, ∃ t, name = (Settings.path t).bytes

/-- A path of names in UTF-8 is in UTF-8. -/
theorem exists_text_of_names {names : List Segment}
    (h : ∀ name ∈ names, ∃ t, name = (Settings.path t).bytes) :
    ∃ t, (ofParts [] names).bytes = (Settings.path t).bytes := by
  induction names with
  | nil => exact ⟨[], rfl⟩
  | cons first rest ih =>
    obtain ⟨s, hs⟩ := h first List.mem_cons_self
    obtain ⟨t, ht⟩ := ih fun name hname => h name (List.mem_cons_of_mem _ hname)
    by_cases hne : rest = []
    · subst hne
      exact ⟨s, by simpa [ofParts] using hs⟩
    · refine ⟨s ++ '/' :: t, ?_⟩
      rw [← List.singleton_append, Path.bytes_ofParts_append (by simp) hne, ht,
        Settings.path_append_separator, ← hs]
      simp [ofParts]

/-- A path that spells the directory of a pattern as the pattern does is left out. -/
theorem selects_of_spelledBelow (hload : (Settings.load configured file?).1 = .ok settings)
    (he : e ∈ settings.exclude) (hstem : Glob.Literal stem)
    (hpattern : e.pattern = stem ++ "/**".toList)
    (h : Glob.SpelledBelow stem (relative settings p)) : selects settings p = false := by
  have hparse := Settings.parse_of_load hload e he
  rw [hpattern, Glob.parse_stem hstem] at hparse
  have htokens : Glob.stemTokens stem = e.tokens := Except.ok.inj hparse
  have hexcluded : settings.isExcluded (relative settings p) = true := by
    unfold Settings.isExcluded
    rw [List.any_eq_true]
    exact ⟨e, he, htokens ▸ Glob.matchesPath_stem.mpr h⟩
  unfold selects
  rw [hexcluded]
  rfl

/-- Below a directory that is spelled name by name, files are seen from the root by the names that
lead there. -/
theorem relative_below {start walked : List Segment} (hstart : ∀ name ∈ start, IsName name)
    (hwalked : ∀ name ∈ walked, ValidName name) (hne : walked ≠ []) :
    relative settings (below (settings.root.join (ofParts [] start)) walked) =
      ofParts [] (start ++ walked) := by
  rw [relative, below_join settings.root hstart hwalked,
    Path.stripPrefix?_join _ (by simp [hne]) (isName_append hstart hwalked)]
  rfl

/-- If everything is spelled name by name, visited paths that lead into the directory are spelled as
the pattern for it. -/
theorem spelledBelow_of_byNames (h : SpelledByNames settings fs stem directory)
    (hfs : fs.root.WellFormed)
    (hdirectory : fs.locate (settings.root.join (Settings.path stem)) = .ok directory)
    (hp : p ∈ visited settings fs) (hinto : LeadsInto fs directory p) :
    Glob.SpelledBelow stem (relative settings p) := by
  obtain ⟨front, hfront, hspelled⟩ := h.stem
  have hfront_ne : front ≠ [] := by
    rintro rfl
    refine h.stem_ne_nil (Settings.path_bytes_eq_nil.mp ?_)
    rw [hspelled]
    rfl
  obtain ⟨dir, hdir, place, walked, content, bits, rfl, hplace, hwalked_ne, hwalked, hfile⟩ :=
    exists_of_mem_visited hfs hp
  obtain ⟨start, hstart, rfl⟩ := h.dirs dir hdir
  obtain ⟨names, hnames_ne, hdenotes⟩ := hinto
  -- The names that lead to the file from the root on are those of the directory and what is below.
  have hsame : front ++ names = start ++ walked := by
    have hto : directory ++ names =
        settings.root.components.foldl stepTo fs.cwd ++ (start ++ walked) := by
      rw [below_join settings.root hstart hwalked] at hdenotes
      exact eq_append_of_follow h.linkFree
        (Path.components_join _ (isName_append hstart hwalked)) hdenotes
    have hroot : directory = settings.root.components.foldl stepTo fs.cwd ++ front := by
      rw [hspelled] at hdirectory
      exact eq_append_of_follow h.linkFree (Path.components_join _ hfront)
        (follow_of_locate hdirectory).2
    rw [hroot, List.append_assoc] at hto
    exact List.append_cancel_left hto
  -- The file is below the directory, so its names there are a text.
  have hget : fs.root.get? (directory ++ names) = some (.file content bits) := by
    have hwalk := FileSystem.denotes_below hplace hwalked_ne hwalked hfile
    rw [hdenotes.unique hwalk]
    exact hfile
  obtain ⟨t, ht⟩ := exists_text_of_names (h.utf8 names content bits hget)
  refine ⟨t, ?_⟩
  suffices hbytes : (ofParts [] (front ++ names)).bytes =
      (Settings.path (stem ++ '/' :: t)).bytes by
    rw [relative_below hstart hwalked hwalked_ne, ← hsame]
    exact congrArg Path.mk hbytes
  rw [Path.bytes_ofParts_append hfront_ne hnames_ne, ← hspelled, ht, Settings.path_append_separator]

/-- A run processes no path that spells a directory as a pattern for all that is below it. It
processes and changes no file below the directory if all visited paths that lead there are left out,
and if it is complete and processes none they are. They are if there are no links and all is spelled
name by name. -/
theorem excluded_subtree (hload : (Settings.load configured file?).1 = .ok settings)
    (he : e ∈ settings.exclude) (hstem : Glob.Literal stem)
    (hpattern : e.pattern = stem ++ "/**".toList) (hfs : fs.root.WellFormed)
    (hdirectory : fs.locate (settings.root.join (Settings.path stem)) = .ok directory)
    (hreplace : Faithful replace) (mode : RunMode) (output : Output) :
    let run := tree replace settings mode fs output
    (∀ p ∈ run.seen, ¬Glob.SpelledBelow stem (relative settings p)) ∧
      (PassedBy settings fs directory →
        (∀ p ∈ run.seen, ¬LeadsInto fs directory p) ∧
          ∀ names content bits, names ≠ [] →
            fs.root.get? (directory ++ names) = some (.file content bits) →
              run.files.root.get? (directory ++ names) = some (.file content bits)) ∧
      (run.output.failed = false → (∀ p ∈ run.seen, ¬LeadsInto fs directory p) →
        PassedBy settings fs directory) ∧
      (SpelledByNames settings fs stem directory → PassedBy settings fs directory) := by
  intro run
  obtain ⟨done, -, hseen, hall⟩ :
      ∃ done, done <+: paths (agenda settings fs) ∧ run.seen = done.reverse ∧
        (run.output.failed = false → done = paths (agenda settings fs)) := seen_spec hreplace hfs
  have hselected : ∀ p ∈ run.seen, p ∈ visited settings fs ∧ selects settings p = true :=
    fun p hp => of_mem_seen hreplace hfs hp
  have hoff (hpassed : PassedBy settings fs directory) :
      ∀ p ∈ run.seen, ¬LeadsInto fs directory p := by
    intro p hp hinto
    obtain ⟨hvisited, hselects⟩ := hselected p hp
    rw [hpassed p hvisited hinto] at hselects
    contradiction
  refine ⟨fun p hp hspelled => ?_, fun hpassed => ⟨hoff hpassed, ?_⟩,
    fun hcomplete hnone p hp hinto => ?_, fun hspelled p hp hinto => ?_⟩
  · have hselects := (hselected p hp).2
    rw [selects_of_spelledBelow hload he hstem hpattern hspelled] at hselects
    contradiction
  · intro names content bits hne hfile
    have hrun := tree_carriesOut replace settings mode hreplace hfs output
    rw [hrun.files]
    refine filesAfter_elsewhere hreplace (fun p hp => ?_) (fun p hp hdenotes => ?_) hfile
    · exact candidates_agenda hfs p (((prefix_of_reached ..).filterMap _).subset hp)
    · have hp' : p ∈ run.seen := by
        rw [hrun.seen]
        simpa using .inl hp
      exact hoff hpassed p hp' ⟨names, hne, hdenotes⟩
  · -- If the path is not left out, another one with its steps was processed.
    by_contra hselects
    obtain ⟨names, hne, hdenotes⟩ := hinto
    obtain ⟨q, hq, -, hdenotes'⟩ :=
      exists_denotes_of_agenda hfs hp (by simpa using hselects) hdenotes
    rw [← hall hcomplete, ← List.mem_reverse, ← hseen] at hq
    exact hnone q hq ⟨names, hne, hdenotes'⟩
  · exact selects_of_spelledBelow hload he hstem hpattern
      (spelledBelow_of_byNames hspelled hfs hdirectory hp hinto)

/-- The settings with one configured directory that leave out all that is below `a/b`. -/
def excludingSettings (dir : String) : Settings :=
  sampleSettings "app" [dir] [⟨"a/b/**".toList, Glob.stemTokens "a/b".toList⟩]

/-- A file below a directory that is left out, and a configured directory on the way to it. -/
def excludingTree (dir : String) : FileSystem :=
  oneFileTree ("root = 'app'\ndirs = ['" ++ dir ++ "']\nexclude = ['a/b/**']\n") "app"
    ["a", "b", "f.ts"] "console.log(1);\n"

/-- The names that lead to the directory. -/
def excludedNames : List Segment :=
  ["a", "b"].map fun name => (Path.ofString name).bytes

/-- The place of the directory. -/
def excludedPlace : Location :=
  (Path.ofString "app").bytes :: excludedNames

/-- Whether a node, if it is a directory, has only entries with names in UTF-8. -/
def givesTextNames : Node → Bool
  | .directory _ entries => entries.all fun entry => (Path.toString? ⟨entry.1⟩).isSome
  | _ => true

/-- Going through a tree finds out whether the names in it are in UTF-8. -/
theorem exists_text_of_all {root n : Node} (h : root.all givesTextNames = true)
    {location : Location} (hget : root.get? location = some n) :
    ∀ name ∈ location, ∃ t, name = (Settings.path t).bytes := by
  intro name hname
  obtain ⟨front, rest, rfl⟩ := List.append_of_mem hname
  rw [Node.get?_append, Option.bind_eq_some_iff] at hget
  obtain ⟨parent, hparent, hbelow⟩ := hget
  obtain ⟨child, hentry⟩ : ∃ child, parent.entry? name = some child := by
    cases hentry : parent.entry? name with
    | none => simp [Node.get?, hentry] at hbelow
    | some child => exact ⟨child, rfl⟩
  have hnames := Node.of_all h hparent
  cases parent with
  | file => contradiction
  | link => contradiction
  | directory mode entries =>
    obtain ⟨before, after, rfl, -⟩ := List.lookup_eq_some_iff.mp hentry
    have htext : (Path.toString? ⟨name⟩).isSome = true :=
      List.all_eq_true.mp hnames (name, child) (by simp)
    obtain ⟨s, hs⟩ := Option.isSome_iff_exists.mp htext
    exact ⟨s.toList, Settings.toString?_eq_some.mp hs⟩

/-- A file below the directory is kept if the configured directory is spelled by its name. -/
theorem excluded_subtree_of_name :
    let settings := excludingSettings "a"
    let fs := excludingTree "a"
    let run := tree FileSystem.replace settings .fix fs {}
    let place := excludedPlace ++ [(Path.ofString "f.ts").bytes]
    (Settings.load fs none).1 = .ok settings ∧ visited settings fs = [.ofString "app/a/b/f.ts"] ∧
      fs.Denotes (.ofString "app/a/b/f.ts") place ∧
      (∀ p ∈ run.seen, ¬LeadsInto fs excludedPlace p) ∧
      run.files.root.get? place = some (.file (encode "console.log(1);\n".toList) 0o644) := by
  intro settings fs run place
  have hload : (Settings.load fs none).1 = .ok settings := by decide +kernel
  have hfs : fs.root.WellFormed := Node.wellFormed_of_all (by decide +kernel)
  have hdirectory : fs.locate (settings.root.join (Settings.path "a/b".toList)) =
      .ok excludedPlace := by
    decide +kernel
  have hnames : ∀ name ∈ excludedNames, ValidName name := by decide
  have hspelled : SpelledByNames settings fs "a/b".toList excludedPlace :=
    { linkFree := Node.linkFree_of_all (by decide +kernel)
      stem_ne_nil := by decide
      stem := ⟨excludedNames, fun name hname => (hnames name hname).isName, by decide⟩
      dirs := by
        intro dir hdir
        obtain rfl := List.mem_singleton.mp hdir
        refine ⟨excludedNames.take 1, fun name hname => ?_, by decide⟩
        exact (hnames name (List.mem_of_mem_take hname)).isName
      utf8 := fun names content bits hget name hname =>
        exists_text_of_all (by decide +kernel) hget name (List.mem_append_right _ hname) }
  have hstem : Glob.Literal "a/b".toList := by decide +kernel
  obtain ⟨-, hpassed, -, hexact⟩ := excluded_subtree hload List.mem_cons_self hstem rfl hfs
    hdirectory faithful_replace .fix {}
  obtain ⟨hnone, hkept⟩ := hpassed (hexact hspelled)
  exact ⟨hload, by decide +kernel, rfl, hnone, hkept _ _ _ (by decide) rfl⟩

/-- With a doubled separator in the configured directory, a file below the directory that is left
out is changed. -/
theorem excluded_file_changed :
    let settings := excludingSettings "a//b"
    let fs := excludingTree "a//b"
    let run := tree FileSystem.replace settings .fix fs {}
    let place := excludedPlace ++ [(Path.ofString "f.ts").bytes]
    (Settings.load fs none).1 = .ok settings ∧ fs.root.LinkFree ∧
      run.seen = [.ofString "app/a//b/f.ts"] ∧ fs.Denotes (.ofString "app/a//b/f.ts") place ∧
      run.summary.filesProcessed = 1 ∧ run.summary.filesModified = 1 ∧
      fs.root.get? place = some (.file (encode "console.log(1);\n".toList) 0o644) ∧
      run.files.readText (.ofString "app/a/b/f.ts") = .ok "safeLog(1);\n" := by
  intro settings fs run place
  have hload : (Settings.load fs none).1 = .ok settings := by decide +kernel
  have hlinks : fs.root.LinkFree := Node.linkFree_of_all (by decide +kernel)
  have hseen : run.seen = [.ofString "app/a//b/f.ts"] := by decide +kernel
  have hcount : run.summary.filesProcessed = 1 ∧ run.summary.filesModified = 1 := by
    decide +kernel
  exact ⟨hload, hlinks, hseen, rfl, hcount.1, hcount.2, rfl, by decide +kernel⟩

end LogGuard.Run
