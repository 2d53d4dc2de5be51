import LogGuard.Proofs.Run.CandidateOrder

/-!
# Extensions with dots

The extension of a file is what follows the last dot of its name, and a file is a candidate if that
is one of the configured extensions. A configured extension with a dot of its own is the end of
names that are looked at for less: for what follows its last dot (`hasConfiguredExtension_iff`). So
it counts only if that part is configured, too (`extension_honoured_iff`). An extension without a
dot is what follows its last dot, and all files that it ends are candidates.
-/

namespace LogGuard.Run

open FileSystem (hasDirectory_of_get?_append maxPath pathError?_eq_none)

variable {settings : Settings} {fs : FileSystem} {dir : Path} {directory front : Location}
  {stem : Segment} {e : Text}

/-- What follows the last dot of an extension, or all of an extension without one. -/
def afterLastDot (e : Text) : Text :=
  (e.reverse.takeWhile (· != '.')).reverse

theorem afterLastDot_eq_self : afterLastDot e = e ↔ '.' ∉ e := by
  rw [afterLastDot, List.reverse_eq_iff, List.takeWhile_eq_self_iff]
  simp only [List.mem_reverse, bne_iff_ne]
  exact ⟨fun h hdot => h '.' hdot rfl, fun h c hc heq => h (heq ▸ hc)⟩

theorem afterLastDot_append {last : Text} (h : '.' ∉ last) (init : Text) :
    afterLastDot (init ++ '.' :: last) = last := by
  have hall : ∀ c ∈ last.reverse, (c != '.') = true := by
    intro c hc
    rw [bne_iff_ne]
    rintro rfl
    exact h (List.mem_reverse.mp hc)
  have hreverse : (init ++ '.' :: last).reverse = last.reverse ++ '.' :: init.reverse := by simp
  rw [afterLastDot, hreverse, List.takeWhile_append_of_pos hall,
    List.takeWhile_cons_of_neg (by simp), List.append_nil, List.reverse_reverse]

/-- A name that an extension ends has what follows the last dot of the extension behind its last
dot. -/
theorem exists_of_extension (hstem : stem ≠ []) (e : Text) :
    ∃ stem', stem ++ Path.dot :: (Settings.path e).bytes =
        stem' ++ Path.dot :: (Settings.path (afterLastDot e)).bytes ∧
      stem' ≠ [] ∧ '.' ∉ afterLastDot e := by
  obtain ⟨last, hlast, rfl | ⟨init, rfl⟩⟩ := Path.exists_last '.' e
  · rw [afterLastDot_eq_self.mpr hlast]
    exact ⟨stem, rfl, hstem, hlast⟩
  · have hdot : (Settings.path ['.']).bytes = [Path.dot] := by decide
    have hbytes : (Settings.path (init ++ '.' :: last)).bytes =
        (Settings.path init).bytes ++ Path.dot :: (Settings.path last).bytes := by
      rw [List.append_cons, Settings.path_append, Settings.path_append, hdot, List.append_assoc,
        List.singleton_append]
    rw [afterLastDot_append hlast, hbytes]
    exact ⟨stem ++ Path.dot :: (Settings.path init).bytes, by simp, by simp, hlast⟩

/-- A name that an extension ends is looked at if what follows the last dot of the extension is
configured. -/
theorem hasConfiguredExtension_iff (hstem : stem ≠ []) :
    HasConfiguredExtension settings (stem ++ Path.dot :: (Settings.path e).bytes) ↔
      afterLastDot e ∈ settings.extensions := by
  obtain ⟨stem', hname, hstem', hlast⟩ := exists_of_extension hstem e
  rw [hname]
  constructor
  · rintro ⟨other, e', he', hcut, hother, hdot⟩
    -- A name is cut at its last dot in one way only.
    have hsplit := Path.splitExtension_append hstem' (mt Settings.dot_mem_path.mp hlast)
    rw [hcut, Path.splitExtension_append hother (mt Settings.dot_mem_path.mp hdot), Prod.mk.injEq,
      Option.some.injEq] at hsplit
    have hpath : Settings.path e' = Settings.path (afterLastDot e) := congrArg Path.mk hsplit.2
    rwa [← Settings.path_injective hpath]
  · exact fun hmem => ⟨stem', _, hmem, rfl, hstem', hlast⟩

/-- Different names below a directory are different paths, so a path is on the list of candidates
only if its names lead to one. -/
theorem below_mem_filesBelow_iff {names : Location} (hfs : fs.root.WellFormed)
    (hdir : fs.locate dir = .ok directory) (hne : names ≠ []) {content : ByteArray} {mode : Nat}
    (hfile : fs.root.get? (directory ++ names) = some (.file content mode)) :
    below dir names ∈ filesBelow settings fs dir ↔
      CandidateBelow settings fs dir directory names := by
  obtain ⟨files, hfiles, -, hmem⟩ :=
    exists_candidates settings hfs hdir (hasDirectory_of_get?_append hne hfile)
  obtain ⟨hzero, hdirne, -⟩ := pathError?_eq_none.mp (follow_of_locate hdir).1
  have hcomponents {names : Location} {content : ByteArray} {mode : Nat}
      (h : fs.root.get? (directory ++ names) = some (.file content mode)) :
      (below dir names).components = dir.components ++ names.map .normal :=
    components_below hdirne hzero fun name hname =>
      hfs.names h name (List.mem_append_right _ hname)
  rw [hfiles, ← hmem, List.mem_map]
  constructor
  · rintro ⟨names', hnames', heq⟩
    obtain ⟨_, _, hfile'⟩ := ((hmem names').mp hnames').file
    have hsame := congrArg Path.components heq
    rw [hcomponents hfile, hcomponents hfile'] at hsame
    rwa [← Path.names_eq_of_append hsame]
  · exact fun hnames => ⟨names, hnames, rfl⟩

/-- A regular file below a directory whose name is a stem, a dot and a configured extension is a
candidate exactly if what follows the last dot of that extension is configured and the directories
on the way can be read. If the extension has no dot, only the latter counts. -/
theorem extension_honoured_iff (hfs : fs.root.WellFormed) (hdir : fs.locate dir = .ok directory)
    (hstem : stem ≠ []) (he : e ∈ settings.extensions)
    (hfile : ∃ content mode, fs.root.get?
      (directory ++ (front ++ [stem ++ Path.dot :: (Settings.path e).bytes])) =
        some (.file content mode)) :
    let file := below dir (front ++ [stem ++ Path.dot :: (Settings.path e).bytes])
    let readable := ∀ part, part <+: front → (below dir part).bytes.length ≤ maxPath
    (file ∈ filesBelow settings fs dir ↔ afterLastDot e ∈ settings.extensions ∧ readable) ∧
      ('.' ∉ e → (file ∈ filesBelow settings fs dir ↔ readable)) := by
  intro file readable
  obtain ⟨content, mode, hget⟩ := hfile
  have hcandidate : file ∈ filesBelow settings fs dir ↔
      afterLastDot e ∈ settings.extensions ∧ readable := by
    rw [below_mem_filesBelow_iff hfs hdir (by simp) hget, ← hasConfiguredExtension_iff hstem]
    constructor
    · rintro ⟨-, hreadable, front', name, hnames, hextension⟩
      obtain ⟨rfl, hname⟩ := List.append_inj' hnames rfl
      obtain rfl := List.singleton_inj.mp hname
      refine ⟨hextension, fun part hpart => ?_⟩
      refine hreadable part (hpart.trans (List.prefix_append _ _)) ?_
      -- The file itself is not read as a directory: its path is longer than `front`.
      rintro rfl
      have hlength := hpart.length_le
      simp only [List.length_append, List.length_singleton] at hlength
      omega
    · rintro ⟨hextension, hreadable⟩
      refine ⟨⟨content, mode, hget⟩, fun part hpart hne => ?_, front, _, rfl, hextension⟩
      exact hreadable part ((List.prefix_concat_iff.mp hpart).resolve_left hne)
  refine ⟨hcandidate, fun hdot => ?_⟩
  rw [hcandidate, afterLastDot_eq_self.mpr hdot, and_iff_right he]

/-- An extension with a dot in it, and a file that it ends. -/
def dottedExtensionTree (extensions : String) : FileSystem :=
  oneFileTree ("root = ''\ndirs = ['src']\nextensions = " ++ extensions ++ "\n") "src" ["a.d.ts"]
    "console.log(1);\n"

/-- The settings with the given extensions. -/
def dottedExtensionSettings (extensions : List String) : Settings :=
  { sampleSettings "" ["src"] [] with extensions := extensions.map String.toList }

/-- If both parts are configured, a file with an extension of two parts is a candidate. -/
theorem extension_honoured_iff_of_both :
    let settings := dottedExtensionSettings ["d.ts", "ts"]
    let fs := dottedExtensionTree "['d.ts', '..ts']"
    (Settings.load fs none).1 = .ok settings ∧
      Path.ofString "src/a.d.ts" ∈ filesBelow settings fs (.ofString "src") := by
  intro settings fs
  have hload : (Settings.load fs none).1 = .ok settings := by decide +kernel
  have hfs : fs.root.WellFormed := Node.wellFormed_of_all (by decide +kernel)
  have hdir : fs.locate (.ofString "src") = .ok [(Path.ofString "src").bytes] := by decide +kernel
  have hfile : fs.root.get? ([(Path.ofString "src").bytes] ++
      ([] ++ [(Path.ofString "a").bytes ++ Path.dot :: (Settings.path "d.ts".toList).bytes])) =
        some (.file (encode "console.log(1);\n".toList) 0o644) := by
    rfl
  have he : "d.ts".toList ∈ settings.extensions := by decide
  have hlast : afterLastDot "d.ts".toList ∈ settings.extensions := by decide
  have hcandidate := (extension_honoured_iff hfs hdir (by decide) he ⟨_, _, hfile⟩).1
  refine ⟨hload, hcandidate.mpr ⟨hlast, fun part hpart => ?_⟩⟩
  rw [List.prefix_nil.mp hpart]
  decide

/-- An extension of two parts alone is accepted and kept, but a file that it ends is no candidate
and is left as it is. -/
theorem extension_ignored :
    let settings := dottedExtensionSettings ["d.ts"]
    let fs := dottedExtensionTree "['d.ts']"
    let run := tree FileSystem.replace settings .fix fs {}
    (Settings.load fs none).1 = .ok settings ∧ "d.ts".toList ∈ settings.extensions ∧
      fs.readText (.ofString "src/a.d.ts") = .ok "console.log(1);\n" ∧
      fs.isDirectory (.ofString "src") = true ∧
      filesBelow settings fs (.ofString "src") = [] ∧
      run.summary.filesProcessed = 0 ∧
      run.files.readText (.ofString "src/a.d.ts") = .ok "console.log(1);\n" := by
  intro settings fs run
  decide +kernel

end LogGuard.Run
