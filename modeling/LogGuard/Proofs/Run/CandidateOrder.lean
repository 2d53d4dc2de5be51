import LogGuard.Proofs.FileSystem.WalkOrder
import LogGuard.Proofs.Run.Record
import LogGuard.Proofs.Settings.SafetyModule

/-!
# The order of the candidates

The candidates below a directory are the regular files with a configured extension to which names
lead from there (`CandidateBelow`). They come in the order of these names, each one once, in
whatever order the directories list their entries (`filesBelow_in_order`).
-/

namespace LogGuard.Run

open FileSystem (HasDirectory maxPath pathError?_eq_none)

/-- A configured extension stands behind the last dot of a name, and something before that dot. -/
def HasConfiguredExtension (settings : Settings) (name : Segment) : Prop :=
  ∃ stem, ∃ e ∈ settings.extensions, name = stem ++ Path.dot :: (Settings.path e).bytes ∧
    stem ≠ [] ∧ '.' ∉ e

/-- Names lead from the directory `dir`, which is at `directory`, to a regular file with a
configured extension. They lead through directories that are no links and whose paths are short
enough for them to be read. -/
structure CandidateBelow (settings : Settings) (fs : FileSystem) (dir : Path)
    (directory names : Location) : Prop where
  file : ∃ content mode, fs.root.get? (directory ++ names) = some (.file content mode)
  readable : ∀ front, front <+: names → front ≠ names → (below dir front).bytes.length ≤ maxPath
  extension : ∃ front name, names = front ++ [name] ∧ HasConfiguredExtension settings name

variable {settings : Settings} {fs : FileSystem} {dir : Path} {directory names : Location}

/-- The candidates among the files that a walk has met are those with an accepted extension. -/
theorem candidates_eq_filter (visits : List Visit) :
    candidates settings visits = (visits.filterMap Visit.file?).filter settings.accepts := by
  rw [List.filter_filterMap, candidates]
  congr 1
  funext visit
  cases visit with
  | file path => rw [Visit.file?, Option.filter_some]
  | unreadable path e => rfl

/-- The extension of a path below a directory is that of the last name. -/
theorem accepts_below {front : Location} {name : Segment} (hdir : fs.locate dir = .ok directory)
    (hnames : ∀ other ∈ front ++ [name], ValidName other) :
    settings.accepts (below dir (front ++ [name])) = true ↔
      HasConfiguredExtension settings name := by
  obtain ⟨hzero, hne, -⟩ := pathError?_eq_none.mp (follow_of_locate hdir).1
  have hname : (below dir (front ++ [name])).fileName? = some name := by
    rw [Path.fileName?, components_below hne hzero hnames, List.map_append, List.map_singleton,
      ← List.append_assoc, List.getLast?_concat]
  exact Settings.accepts_iff hname

/-- The candidates below a directory are the files that a walk meets there by names of which the
last one has a configured extension. -/
theorem candidateBelow_iff {n : Node} (hfs : fs.root.WellFormed)
    (hdir : fs.locate dir = .ok directory) (hget : fs.root.get? directory = some n)
    (hn : n.isDirectory = true) :
    CandidateBelow settings fs dir directory names ↔
      n.Meets dir names ∧ settings.accepts (below dir names) = true := by
  have hplace : fs.root.get? (directory ++ names) = n.get? names := by
    rw [Node.get?_append, hget, Option.bind_some]
  constructor
  · rintro ⟨hfile, hreadable, front, name, rfl, hextension⟩
    rw [hplace] at hfile
    obtain ⟨content, mode, hfile⟩ := hfile
    have hvalid := (hfs.get? hget).names hfile
    exact ⟨⟨⟨content, mode, hfile⟩, hreadable⟩, (accepts_below hdir hvalid).mpr hextension⟩
  · rintro ⟨⟨⟨content, mode, hfile⟩, hreadable⟩, haccepts⟩
    have hvalid := (hfs.get? hget).names hfile
    rcases List.eq_nil_or_concat' names with rfl | ⟨front, name, rfl⟩
    · rw [Node.get?_nil, Option.some.injEq] at hfile
      rw [hfile] at hn
      contradiction
    · exact ⟨⟨content, mode, hplace.trans hfile⟩, hreadable, front, name, rfl,
        (accepts_below hdir hvalid).mp haccepts⟩

/-- The candidates below a directory in the order of the names that lead to them. -/
theorem exists_candidates (settings : Settings) (hfs : fs.root.WellFormed)
    (hdir : fs.locate dir = .ok directory) (hdirectory : HasDirectory fs.root directory) :
    ∃ files : List Location, filesBelow settings fs dir = files.map (below dir) ∧
      files.Pairwise (· < ·) ∧
      ∀ names, names ∈ files ↔ CandidateBelow settings fs dir directory names := by
  obtain ⟨mode, entries, hget⟩ := FileSystem.hasDirectory_iff.mp hdirectory
  obtain ⟨files, hfiles, hsorted, hmem⟩ :=
    Node.exists_lists dir (.directory mode entries) (hfs.get? hget)
  have hwalk : fs.walk dir = (Node.directory mode entries).visits dir := by
    have hnode : fs.node dir = .ok (.directory mode entries) := by
      rw [FileSystem.node, hdir]
      dsimp only
      rw [hget]
    rw [FileSystem.walk, hnode]
  refine ⟨files.filter fun names => settings.accepts (below dir names), ?_,
    hsorted.sublist List.filter_sublist, fun names => ?_⟩
  · rw [filesBelow, hwalk, candidates_eq_filter, hfiles, List.filter_map]
    rfl
  · rw [List.mem_filter, hmem, candidateBelow_iff hfs hdir hget rfl]

/-- The candidates below a directory are the regular files with a configured extension to which
names lead from there, each one once. They come in the strict order of these names, compared name by
name, and the steps of their paths are those of the directory and then these names. The order in
which directories list their entries does not count. -/
theorem filesBelow_in_order (settings : Settings) (hfs : fs.root.WellFormed)
    (hdir : fs.isDirectory dir = true) :
    ∃ directory, ∃ files : List Location, fs.locate dir = .ok directory ∧
      filesBelow settings fs dir = files.map (below dir) ∧ files.Pairwise (· < ·) ∧
      (∀ names, names ∈ files ↔ CandidateBelow settings fs dir directory names) ∧
      (∀ names ∈ files, (below dir names).components = dir.components ++ names.map .normal) ∧
      ∀ fs' : FileSystem, fs'.root.WellFormed → fs'.cwd = fs.cwd → fs.root.Relisted fs'.root →
        filesBelow settings fs' dir = filesBelow settings fs dir := by
  obtain ⟨directory, hlocate, hdirectory⟩ :
      ∃ directory, fs.locate dir = .ok directory ∧ HasDirectory fs.root directory := by
    unfold FileSystem.isDirectory at hdir
    split at hdir
    · rename_i n hnode
      obtain ⟨directory, hlocate, hget⟩ := exists_of_node hnode
      exact ⟨directory, hlocate, by rw [HasDirectory, hget, Option.any_some, hdir]⟩
    · contradiction
  obtain ⟨files, hfiles, hsorted, hmem⟩ := exists_candidates settings hfs hlocate hdirectory
  refine ⟨directory, files, hlocate, hfiles, hsorted, hmem, fun names hnames => ?_,
    fun fs' hfs' hcwd hrelisted => ?_⟩
  · obtain ⟨content, mode, hget⟩ := ((hmem names).mp hnames).file
    obtain ⟨hzero, hne, -⟩ := pathError?_eq_none.mp (follow_of_locate hlocate).1
    exact components_below hne hzero fun name hname =>
      hfs.names hget name (List.mem_append_right _ hname)
  · obtain ⟨files', hfiles', hsorted', hmem'⟩ := exists_candidates settings hfs'
      (locate_of_relisted hrelisted hcwd hlocate) (hrelisted.extends.hasDirectory hdirectory)
    -- The same names lead to the candidates of both, and their order is strict.
    have hsame : files' = files := by
      refine hsorted'.eq_of_mem_iff hsorted fun names => ?_
      rw [hmem, hmem']
      constructor
      · rintro ⟨⟨content, mode, hfile⟩, hreadable, hextension⟩
        exact ⟨⟨content, mode, hrelisted.get?_file.mpr hfile⟩, hreadable, hextension⟩
      · rintro ⟨⟨content, mode, hfile⟩, hreadable, hextension⟩
        exact ⟨⟨content, mode, hrelisted.get?_file.mp hfile⟩, hreadable, hextension⟩
    rw [hfiles', hsame, hfiles]

/-- A working directory with the given entries. -/
def treeOf (entries : List (Segment × Node)) : FileSystem :=
  ⟨.directory FileSystem.directoryMode entries, []⟩

/-- Files and directories whose names begin alike, and a link to a directory. -/
def interleavedEntries : List (Segment × Node) :=
  let calling : Node := .file (encode "console.log(1);\n".toList) 0o644
  let directory (name : String) : Node :=
    .directory FileSystem.directoryMode [((Path.ofString name).bytes, calling)]
  [((Path.ofString "a").bytes, directory "z.ts"), ((Path.ofString "a-b").bytes, directory "y.ts"),
    ((Path.ofString "a.ts").bytes, calling), ((Path.ofString "a.ts.bak").bytes, calling),
    ((Path.ofString "l").bytes, .link (.ofString "a"))]

/-- With its entries listed from the last to the first one, the directory has its candidates in the
order of their names: what is in `a` comes first, although `/` is greater than `-` and `.`. -/
theorem filesBelow_in_order_of_interleaved :
    let settings := sampleSettings "" ["."] []
    let fs := treeOf interleavedEntries
    let fs' := treeOf interleavedEntries.reverse
    fs.root.WellFormed ∧ fs.isDirectory (.ofString ".") = true ∧
      filesBelow settings fs' (.ofString ".") =
        [.ofString "./a/z.ts", .ofString "./a-b/y.ts", .ofString "./a.ts"] := by
  intro settings fs fs'
  have hfs : fs.root.WellFormed := Node.wellFormed_of_all (by decide +kernel)
  have hfs' : fs'.root.WellFormed := Node.wellFormed_of_all (by decide +kernel)
  have hdir : fs.isDirectory (.ofString ".") = true := by decide +kernel
  have hrelisted : fs.root.Relisted fs'.root :=
    Node.relisted_of_perm (List.reverse_perm _).symm (hfs [] _ _ (Node.get?_nil _)).1
  have hfiles : filesBelow settings fs (.ofString ".") =
      [.ofString "./a/z.ts", .ofString "./a-b/y.ts", .ofString "./a.ts"] := by
    have hwalk : fs.walk (.ofString ".") = interleavedEntries.flatMap fun entry =>
        entry.2.visits ((Path.ofString ".").join ⟨entry.1⟩) := by
      show (Node.directory FileSystem.directoryMode interleavedEntries).visits (.ofString ".") = _
      rw [Node.visits_directory (by decide), List.mergeSort_of_pairwise (by decide +kernel)]
    rw [filesBelow, hwalk]
    decide +kernel
  obtain ⟨-, -, -, -, -, -, -, hsame⟩ := filesBelow_in_order settings hfs hdir
  exact ⟨hfs, hdir, (hsame fs' hfs' rfl hrelisted).trans hfiles⟩

end LogGuard.Run
