import LogGuard.FileSystem.Replace
import LogGuard.Proofs.FileSystem.Resolve
import LogGuard.Proofs.Path.LastSegment

/-!
# What replacing a file does

The temporary file has a name of its own, so it hides nothing and leaves no trace once it is
renamed. Replacing the regular file that a path leads to is then putting new content in its place,
with the permission bits that it had (`replace_eq_ok`). It cannot fail but for want of a
temporary file (`replace_of_fits`), and then it fails whatever is in the files
(`replace_of_samePlaces`).
-/

namespace LogGuard.FileSystem

open LogGuard.Path (solid solid_append solid_cons_of_solid solid_cons_of_void)

variable {root : Node} {directory location : Location} {fs : FileSystem} {p : Path}

/-! ## The last segment -/

/-- The directory above a directory is one. -/
theorem hasDirectory_dropLast (h : HasDirectory root directory) :
    HasDirectory root directory.dropLast := by
  rcases List.eq_nil_or_concat' directory with rfl | ⟨front, name, rfl⟩
  · exact h
  · rw [List.dropLast_concat]
    obtain ⟨mode, entries, hget⟩ := hasDirectory_iff.mp h
    exact hasDirectory_of_get?_append (by simp) hget

/-- A segment that leads to a regular file is its name. -/
theorem of_advance_file {s : Segment} {content : ByteArray} {mode : Nat}
    (h : advance root false directory [s] = .reached location)
    (hfile : root.get? location = some (.file content mode)) :
    HasDirectory root directory ∧ Proper s ∧ location = directory ++ [s] := by
  have hno : ¬HasDirectory root location := by
    rw [hasDirectory_iff, hfile]
    rintro ⟨_, _, hget⟩
    simp at hget
  by_cases hdir : HasDirectory root directory
  · rcases segment_cases s with hvoid | rfl | ⟨hsolid, hparent, hlong⟩ | hproper
    · rw [advance_void hdir hvoid, advance] at h
      exact absurd (Arrival.reached.inj h ▸ hdir) hno
    · rw [advance_parent hdir, advance] at h
      exact absurd (Arrival.reached.inj h ▸ hasDirectory_dropLast hdir) hno
    · rw [advance_long hdir hsolid hparent hlong] at h
      contradiction
    · refine ⟨hdir, hproper, ?_⟩
      rw [advance_name hdir hproper] at h
      rcases hget : root.get? (directory ++ [s]) with _ | ⟨_⟩ | ⟨_⟩ | ⟨_⟩ <;> rw [hget] at h
      · contradiction
      · rw [advance] at h
        exact (Arrival.reached.inj h).symm
      · exact (Arrival.reached.inj h).symm
      · rw [advance] at h
        exact (Arrival.reached.inj h).symm
  · rw [advance_of_not_directory hdir] at h
    contradiction

/-- A path names an entry of the directory at `directory`, to which its other segments lead. -/
structure Names (fs : FileSystem) (p : Path) (directory : Location) (name : Segment) : Prop where
  valid : pathError? p = none
  proper : Proper name
  hasDirectory : HasDirectory fs.root directory
  split : ∃ front, segments p = front ++ [name] ∧
    follow fs.root true maxLinks (origin fs.cwd p) front = .reached directory

/-- A path that leads to a regular file names it. -/
theorem names_of_arrive {content : ByteArray} {mode : Nat}
    (h : fs.arrive false p = .reached location)
    (hfile : fs.root.get? location = some (.file content mode)) :
    ∃ directory name, Names fs p directory name ∧ location = directory ++ [name] := by
  unfold arrive at h
  split at h
  · contradiction
  · rename_i hvalid
    obtain ⟨front, name, hsegments⟩ :=
      (List.eq_nil_or_concat' (segments p)).resolve_left (List.splitOn_ne_nil _ _)
    rw [hsegments] at h
    obtain ⟨directory, hdirectory, hlast⟩ := exists_of_follow_concat h
    obtain ⟨hdir, hproper, rfl⟩ := of_advance_file hlast hfile
    exact ⟨directory, name, ⟨hvalid, hproper, hdir, front, hsegments, hdirectory⟩, rfl⟩

/-- No segments are dropped from the end of a path that ends with no separator. -/
theorem reverse_dropWhile_reverse {path front : List Segment} {last : Segment}
    (h : path = front ++ [last]) (hne : last ≠ []) :
    (path.reverse.dropWhile List.isEmpty).reverse = front ++ [last] := by
  rw [h, List.reverse_append, List.reverse_singleton, List.singleton_append,
    List.dropWhile_cons_of_neg (by simp [hne]), List.reverse_cons, List.reverse_reverse]

namespace Names

variable {name : Segment}

/-- A path that names an entry names it in any extension. -/
theorem mono (h : Names fs p directory name) {root' : Node} (hextends : Extends fs.root root') :
    Names { fs with root := root' } p directory name := by
  obtain ⟨front, hsegments, hfollow⟩ := h.split
  exact ⟨h.valid, h.proper, hextends.hasDirectory h.hasDirectory, front, hsegments,
    follow_mono hextends hfollow⟩

/-- A path that names a regular file leads to it. -/
theorem arrive (h : Names fs p directory name) {content : ByteArray} {mode : Nat}
    (hfile : fs.root.get? (directory ++ [name]) = some (.file content mode)) (followLast : Bool) :
    fs.arrive followLast p = .reached (directory ++ [name]) := by
  obtain ⟨front, hsegments, hfollow⟩ := h.split
  have hlast : advance fs.root followLast directory [name] = .reached (directory ++ [name]) := by
    rw [advance_name h.hasDirectory h.proper, hfile]
    rfl
  rw [FileSystem.arrive, h.valid, hsegments]
  exact follow_append (by simp) hfollow hlast

theorem locate (h : Names fs p directory name) {content : ByteArray} {mode : Nat}
    (hfile : fs.root.get? (directory ++ [name]) = some (.file content mode)) :
    fs.locate p = .ok (directory ++ [name]) := by
  rw [FileSystem.locate, h.arrive hfile]

/-- The permission bits of the regular file that a path names. -/
theorem mode? (h : Names fs p directory name) {content : ByteArray} {mode : Nat}
    (hfile : fs.root.get? (directory ++ [name]) = some (.file content mode)) :
    fs.mode? p = some mode := by
  unfold FileSystem.mode? node
  rw [h.locate hfile]
  simp [hfile]

/-- A file that is renamed to a path comes to stand where the path names an entry. -/
theorem renameTarget (h : Names fs p directory name)
    (hfile : (fs.root.get? (directory ++ [name])).any Node.isDirectory = false) :
    fs.renameTarget p = .ok (directory ++ [name]) := by
  obtain ⟨front, hsegments, hfollow⟩ := h.split
  obtain ⟨hsolid, hparent, hshort⟩ := h.proper
  have hne : name ≠ [] := by
    rintro rfl
    contradiction
  -- The target is looked up after separators at the end are dropped, of which there are none.
  have hpath := reverse_dropWhile_reverse hsegments hne
  have hend : follow fs.root true maxLinks (origin fs.cwd p) (front ++ [[]]) =
      .reached directory := by
    refine follow_append (by simp) hfollow ?_
    rw [advance_void h.hasDirectory (by rfl), advance]
  -- A path that ended with a separator would have an empty last segment.
  have hslash : (p.bytes.getLast? == some Path.separator) = false := by
    rw [beq_eq_false_iff_ne]
    intro hlast
    obtain ⟨bytes, hbytes⟩ := List.getLast?_eq_some_iff.mp hlast
    rw [segments, hbytes, Path.splitOn_append_cons (by simp)] at hsegments
    obtain rfl : [] = name := by simpa using (List.append_inj' hsegments rfl).2
    contradiction
  unfold FileSystem.renameTarget
  rw [h.valid]
  simp [hpath, hend, hsolid, hparent, Nat.not_lt.mpr hshort, hslash, hfile]

end Names

/-! ## The temporary file -/

/-- No number is greater than the greatest one. -/
theorem le_foldr_max {n least : Nat} {lengths : List Nat} (h : n ∈ lengths) :
    n ≤ lengths.foldr max least := by
  induction lengths with
  | nil => contradiction
  | cons m lengths ih =>
    rw [List.foldr_cons]
    rcases List.mem_cons.mp h with rfl | hrest
    · exact Nat.le_max_left _ _
    · have hle := ih hrest
      omega

/-- The name of a temporary file is none of those that are taken. -/
theorem freshName_notMem (taken : List Segment) : freshName taken ∉ taken := by
  intro hmem
  have hle : (freshName taken).length ≤ (taken.map List.length).foldr max drawnLength :=
    le_foldr_max (List.mem_map_of_mem hmem)
  have hpre : tempPrefix.length = 4 := by decide
  rw [freshName, List.length_append, List.length_replicate, hpre] at hle
  omega

/-- The name of a temporary file is new in its directory. -/
theorem lookup_freshName (taken : List Segment) (entries : List (Segment × Node)) :
    entries.lookup (freshName (taken ++ entries.map Prod.fst)) = none := by
  rw [List.lookup_eq_none_iff]
  intro entry hmem
  rw [bne_iff_ne]
  intro hname
  apply freshName_notMem (taken ++ entries.map Prod.fst)
  rw [hname]
  exact List.mem_append_right taken (List.mem_map_of_mem hmem)

variable {mode : Nat} {entries : List (Segment × Node)} {name : Segment}

/-- Nothing is at a new name. -/
theorem get?_new (hdirectory : root.get? directory = some (.directory mode entries))
    (hnew : entries.lookup name = none) : root.get? (directory ++ [name]) = none := by
  rw [Node.get?_concat, hdirectory]
  exact hnew

/-- A file with a new name leaves the other files and the links as they are. -/
theorem get?_put_new (hdirectory : root.get? directory = some (.directory mode entries))
    (hnew : entries.lookup name = none) {leaf : Node} (hleaf : leaf.isDirectory = false)
    (hget : root.get? location = some leaf) (n : Node) :
    (root.put (directory ++ [name]) n).get? location = some leaf := by
  have hnone := get?_new hdirectory hnew
  rw [← hget]
  apply Node.get?_alter_of_not_prefix
  · rintro ⟨rest, rfl⟩
    rw [Node.get?_append, hnone] at hget
    contradiction
  · -- The leaf is not on the way to the new file, since only directories are.
    rintro ⟨rest, hrest⟩
    rcases List.eq_nil_or_concat' rest with rfl | ⟨rest, last, rfl⟩
    · rw [List.append_nil] at hrest
      rw [hrest, hnone] at hget
      contradiction
    · rw [← List.append_assoc] at hrest
      obtain ⟨rfl, -⟩ := List.append_inj' hrest rfl
      rw [Node.get?_append, hget, Option.bind_some] at hdirectory
      obtain rfl := Node.eq_nil_of_get? hleaf hdirectory
      rw [Node.get?_nil, Option.some.injEq] at hdirectory
      rw [hdirectory] at hleaf
      contradiction

/-- Without the file that got a new name, the tree is as it was before. -/
theorem erase_put_new (hdirectory : root.get? directory = some (.directory mode entries))
    (hnew : entries.lookup name = none) (n : Node) :
    (root.put (directory ++ [name]) n).erase (directory ++ [name]) = root := by
  calc (root.put (directory ++ [name]) n).erase (directory ++ [name])
    _ = root.alter (directory ++ [name]) fun _ => none :=
      Node.alter_alter (fun _ => rfl) root directory name
    _ = root := Node.alter_eq_self _ (get?_new hdirectory hnew).symm

/-- A file with a new name hides nothing. -/
theorem extends_put (hdirectory : root.get? directory = some (.directory mode entries))
    (hnew : entries.lookup name = none) (n : Node) :
    Extends root (root.put (directory ++ [name]) n) := by
  intro location found hget
  have hnone := get?_new hdirectory hnew
  cases found with
  | file => exact ⟨_, get?_put_new hdirectory hnew rfl hget n, .file⟩
  | link => exact ⟨_, get?_put_new hdirectory hnew rfl hget n, .link⟩
  | directory mode' entries' =>
    by_cases hpre : location <+: directory ++ [name]
    · -- A directory on the way to the new file is still there, with one entry changed.
      obtain ⟨rest, hrest⟩ := hpre
      have hne : rest ≠ [] := by
        rintro rfl
        rw [List.append_nil] at hrest
        rw [hrest, hnone] at hget
        contradiction
      obtain ⟨next, rest, rfl⟩ := List.exists_cons_of_ne_nil hne
      refine ⟨(Node.directory mode' entries').alter (next :: rest) fun _ => some n, ?_, ?_⟩
      · rw [Node.put, ← hrest, Node.get?_alter_append _ _ (by simp), hget]
        rfl
      · rw [Node.alter_cons]
        exact .directory
    · refine ⟨.directory mode' entries', ?_, .directory⟩
      rw [← hget]
      refine Node.get?_alter_of_not_prefix _ ?_ hpre
      rintro ⟨rest, rfl⟩
      rw [Node.get?_append, hnone] at hget
      contradiction

/-! ## Replacing -/

variable {content old : ByteArray}

/-- Where a temporary file is created. -/
theorem createTemp_eq_ok {q : Path} {taken : List Segment} {created : FileSystem} {temp : Location}
    (h : fs.createTemp q taken = .ok (created, temp)) :
    ∃ above mode entries, fs.locate q = .ok above ∧
      fs.root.get? above = some (.directory mode entries) ∧
      temp = above ++ [freshName (taken ++ entries.map Prod.fst)] ∧
      created = { fs with root := fs.root.put temp (.file .empty tempMode) } := by
  unfold createTemp at h
  split at h
  · contradiction
  · split at h
    · contradiction
    · rename_i above hlocate
      split at h
      · rename_i mode entries hget
        obtain ⟨rfl, rfl⟩ := Prod.mk.inj (Except.ok.inj h)
        exact ⟨above, mode, entries, hlocate, hget, rfl, rfl⟩
      · contradiction

/-- Once a temporary file is created, a regular file that a path names is replaced. -/
theorem replace_of_createTemp (h : Names fs p directory name)
    (hfile : fs.root.get? (directory ++ [name]) = some (.file old mode))
    {created : FileSystem} {temp : Location}
    (htemp : fs.createTemp (tempDirectory p) (fs.soughtNames p) = .ok (created, temp)) :
    fs.replace p content =
      .ok { fs with root := fs.root.put (directory ++ [name]) (.file content mode) } := by
  obtain ⟨above, mode', entries, -, habove, rfl, rfl⟩ := createTemp_eq_ok htemp
  have hnew := lookup_freshName (fs.soughtNames p) entries
  generalize freshName (fs.soughtNames p ++ entries.map Prod.fst) = fresh at htemp hnew
  -- With the temporary file in place, the path still names the file.
  have hput (n : Node) :
      Names { fs with root := fs.root.put (above ++ [fresh]) n } p directory name ∧
        (fs.root.put (above ++ [fresh]) n).get? (directory ++ [name]) = some (.file old mode) :=
    ⟨h.mono (extends_put habove hnew n), get?_put_new habove hnew rfl hfile n⟩
  -- Filling it and copying the permission bits are further changes of the one new entry.
  have hfill : fillTemp { fs with root := fs.root.put (above ++ [fresh]) (.file .empty tempMode) }
      (above ++ [fresh]) content =
        { fs with root := fs.root.put (above ++ [fresh]) (.file content tempMode) } := by
    unfold fillTemp
    congr 1
    exact Node.alter_alter (fun _ => rfl) fs.root above fresh
  have hcopy : copyMode { fs with root := fs.root.put (above ++ [fresh]) (.file content tempMode) }
      p (above ++ [fresh]) =
        { fs with root := fs.root.put (above ++ [fresh]) (.file content mode) } := by
    obtain ⟨hnames, hget⟩ := hput (.file content tempMode)
    rw [copyMode, hnames.mode? hget]
    dsimp only
    congr 1
    exact Node.alter_alter (fun _ => rfl) fs.root above fresh
  -- Renaming takes that entry away, which leaves the tree as it was before the file was created.
  have hrename : rename { fs with root := fs.root.put (above ++ [fresh]) (.file content mode) }
      (above ++ [fresh]) p =
        .ok { fs with root := fs.root.put (directory ++ [name]) (.file content mode) } := by
    obtain ⟨hnames, hget⟩ := hput (.file content mode)
    have htarget := hnames.renameTarget (by simp [hget, Node.isDirectory])
    have htemp' : (fs.root.put (above ++ [fresh]) (.file content mode)).get? (above ++ [fresh]) =
        some (.file content mode) := Node.get?_alter_self habove rfl
    unfold rename
    rw [htarget, htemp']
    dsimp only
    rw [erase_put_new habove hnew]
  unfold replace
  dsimp only
  rw [htemp]
  dsimp only
  rw [hfill, hcopy, hrename]

/-- Replacing a regular file that a path leads to puts the content in its place. -/
theorem replace_eq_ok {fs' : FileSystem} (hp : fs.arrive false p = .reached location)
    (hfile : fs.root.get? location = some (.file old mode)) (h : fs.replace p content = .ok fs') :
    fs' = { fs with root := fs.root.put location (.file content mode) } := by
  obtain ⟨directory, name, hnames, rfl⟩ := names_of_arrive hp hfile
  cases htemp : fs.createTemp (tempDirectory p) (fs.soughtNames p) with
  | error e =>
    unfold replace at h
    dsimp only at h
    rw [htemp] at h
    contradiction
  | ok created =>
    obtain ⟨created, temp⟩ := created
    rw [replace_of_createTemp hnames hfile htemp] at h
    exact (Except.ok.inj h).symm

/-- The directory of the temporary file for a path is what stands before the last name of the path,
or the working directory if that is nothing. -/
theorem tempDirectory_spec {front : List Segment} (hvalid : pathError? p = none)
    (hname : Proper name) (hsegments : segments p = front ++ [name]) :
    pathError? (tempDirectory p) = none ∧ (tempDirectory p).isAbsolute = p.isAbsolute ∧
      solid (segments (tempDirectory p)) = solid front := by
  have hcomponent : Path.component? name = some (.normal name) :=
    Path.component?_eq_normal.mpr ⟨rfl, hname.solid, hname.ne_parent⟩
  obtain ⟨q, hparent, hpre, hfront, hrelative⟩ := Path.parent?_of_segments hsegments hcomponent
  unfold tempDirectory
  rw [hparent]
  dsimp only
  split
  · -- A path of one name is next to the entries of the working directory.
    rename_i hempty
    obtain ⟨bytes⟩ := q
    obtain rfl := List.isEmpty_iff.mp hempty
    exact ⟨by decide, by rw [hrelative rfl]; decide, hfront ▸ by decide⟩
  · rename_i hne
    have hq : q.bytes ≠ [] := by simpa using hne
    obtain ⟨hzero, -, hshort⟩ := pathError?_eq_none.mp hvalid
    refine ⟨pathError?_eq_none.mpr ⟨fun hmem => hzero (hpre.subset hmem), hq,
      Nat.le_trans hpre.length_le hshort⟩, (Path.isAbsolute_of_prefix hq hpre).symm, hfront⟩

/-- The temporary file for a path comes to stand next to the entry that the path names. -/
theorem Names.locate_tempDirectory (h : Names fs p directory name) :
    fs.locate (tempDirectory p) = .ok directory := by
  obtain ⟨front, hsegments, hfollow⟩ := h.split
  obtain ⟨hvalid, habsolute, hsolid⟩ := tempDirectory_spec h.valid h.proper hsegments
  have harrive : fs.arrive true (tempDirectory p) = .reached directory := by
    rw [FileSystem.arrive, hvalid, origin, habsolute]
    exact follow_congr hsolid.symm h.hasDirectory hfollow
  rw [FileSystem.locate, harrive]

/-- A regular file is replaced if there is room for the path of a temporary file. -/
theorem replace_of_fits (hp : fs.arrive false p = .reached location)
    (hfile : fs.root.get? location = some (.file old mode))
    (hfits : fs.fitsTemp (tempDirectory p) = true) :
    fs.replace p content = .ok { fs with root := fs.root.put location (.file content mode) } := by
  obtain ⟨directory, name, hnames, rfl⟩ := names_of_arrive hp hfile
  obtain ⟨mode', entries, hget⟩ := hasDirectory_iff.mp hnames.hasDirectory
  have htemp : ∃ created temp,
      fs.createTemp (tempDirectory p) (fs.soughtNames p) = .ok (created, temp) := by
    unfold createTemp
    rw [hfits, hnames.locate_tempDirectory]
    simp [hget]
  obtain ⟨created, temp, htemp⟩ := htemp
  exact replace_of_createTemp hnames hfile htemp

/-! ## Failing -/

variable {fs' : FileSystem}

/-- Whether there is room for a temporary file depends on the working directory only. -/
theorem SamePlaces.fitsTemp (h : SamePlaces fs' fs) (dir : Path) :
    fs'.fitsTemp dir = fs.fitsTemp dir := by
  unfold FileSystem.fitsTemp workingDirectory
  rw [h.cwd]

/-- What is told of a temporary file that is not created depends on the working directory only. -/
theorem SamePlaces.tempError (h : SamePlaces fs' fs) (dir : Path) (cause : IoError) :
    fs'.tempError dir cause = fs.tempError dir cause := by
  unfold FileSystem.tempError workingDirectory
  rw [h.cwd]

/-- What keeps a temporary file from being created is not in the content of files, nor in the names
that it may not have. -/
theorem createTemp_of_samePlaces (h : SamePlaces fs' fs) {q : Path} {taken : List Segment}
    {e : TempError} (hfail : fs.createTemp q taken = .error e) (taken' : List Segment) :
    fs'.createTemp q taken' = .error e := by
  unfold createTemp at hfail ⊢
  rw [h.fitsTemp, h.locate]
  simp only [h.tempError]
  split at hfail
  · rename_i hlong
    rwa [if_pos hlong]
  · rename_i hshort
    rw [if_neg hshort]
    split at hfail
    · exact hfail
    · rename_i above habove
      split at hfail
      · contradiction
      · rename_i hnot
        split
        · rename_i mode' entries' hget'
          -- Both trees have a directory there or none.
          have hget := h.get? above
          rw [hget', Option.map_some, eq_comm, Option.map_eq_some_iff] at hget
          obtain ⟨n, hn, hblank⟩ := hget
          cases n with
          | file => contradiction
          | link => contradiction
          | directory mode entries => exact absurd hn (hnot mode entries)
        · exact hfail

/-- What keeps a regular file from being replaced is not in the content of files. -/
theorem replace_of_samePlaces (h : SamePlaces fs' fs) (hp : fs.arrive false p = .reached location)
    (hfile : fs.root.get? location = some (.file old mode)) {e : ReplaceError}
    (hfail : fs.replace p content = .error e) : fs'.replace p content = .error e := by
  obtain ⟨directory, name, hnames, rfl⟩ := names_of_arrive hp hfile
  cases htemp : fs.createTemp (tempDirectory p) (fs.soughtNames p) with
  | error cause =>
    have htemp' := createTemp_of_samePlaces h htemp (fs'.soughtNames p)
    unfold replace at hfail ⊢
    dsimp only at hfail ⊢
    rw [htemp] at hfail
    rwa [htemp']
  | ok created =>
    obtain ⟨created, temp⟩ := created
    rw [replace_of_createTemp hnames hfile htemp] at hfail
    contradiction

end LogGuard.FileSystem
