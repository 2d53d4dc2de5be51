import LogGuard.Proofs.FileSystem.Replace

/-!
# A file at a place where nothing was

A tree may get a file at a place where nothing was (`AddsFile`). A path leads where it led before,
unless it looked for that place in vain: then it leads to the file, or it is stopped there
(`arrive_gained`). What a path takes from the node to which it leads is the same if the file has the
permission bits of a new one (`AddsFile.mode?`). What is renamed to a path comes to stand where it
would have come to stand before (`AddsFile.renameTarget`).
-/

namespace LogGuard.FileSystem

open LogGuard.Path (solid)

variable {root root' : Node} {place directory location : Location} {fs fs' : FileSystem} {p : Path}

/-- The two trees are the same but for a file of the second one at a place where the first one has
nothing. -/
structure AddsFile (place : Location) (root root' : Node) : Prop where
  absent : root.get? place = none
  file : ∃ content mode, root'.get? place = some (.file content mode)
  elsewhere : root.SameElsewhere place root'

/-- Where a path leads, or where it leads once there is a file at `place`. -/
inductive Gained (place : Location) : Arrival → Arrival → Prop where
  | same {arrival} : Gained place arrival arrival
  /-- The path looked for the file. -/
  | found {parent name} (h : place = parent ++ [name]) :
    Gained place (.absent parent name) (.reached place)
  /-- The path looked for something below the file. -/
  | blocked : Gained place (.failed .notFound) (.failed .notDirectory)

/-- Trees that are the same elsewhere have the same directories there. -/
theorem hasDirectory_of_sameElsewhere (h : root.SameElsewhere place root')
    (hne : location ≠ place) : HasDirectory root' location ↔ HasDirectory root location := by
  unfold HasDirectory
  rcases h.cases hne with ⟨hget, hget'⟩ | ⟨n, n', hget, hget', hlabel⟩
  · rw [hget, hget']
  · rw [hget, hget']
    cases alike_of_label hlabel <;> rfl

namespace AddsFile

/-- A new file is no directory, and where nothing was there was none. -/
theorem hasDirectory_iff (h : AddsFile place root root') :
    HasDirectory root' location ↔ HasDirectory root location := by
  by_cases hplace : location = place
  · obtain ⟨content, mode, hfile⟩ := h.file
    rw [hplace, HasDirectory, HasDirectory, h.absent, hfile]
    simp [Node.isDirectory]
  · exact hasDirectory_of_sameElsewhere h.elsewhere hplace

/-- Where a path leads once there is a new file. -/
theorem advance_gained (h : AddsFile place root root') (followLast : Bool) (here : Location)
    (path : List Segment) :
    Gained place (advance root followLast here path) (advance root' followLast here path) := by
  induction here, path using path_induction root with
  | nil here =>
    rw [advance, advance]
    exact .same
  | notDirectory here s rest hdir =>
    rw [advance_of_not_directory hdir, advance_of_not_directory (mt h.hasDirectory_iff.mp hdir)]
    exact .same
  | void here s rest hdir hvoid ih =>
    rwa [advance_void hdir hvoid, advance_void (h.hasDirectory_iff.mpr hdir) hvoid]
  | parent here rest hdir ih =>
    rwa [advance_parent hdir, advance_parent (h.hasDirectory_iff.mpr hdir)]
  | long here s rest hdir hsolid hparent hlong =>
    rw [advance_long hdir hsolid hparent hlong,
      advance_long (h.hasDirectory_iff.mpr hdir) hsolid hparent hlong]
    exact .same
  | name here s rest hdir hproper ih =>
    rw [advance_name hdir hproper, advance_name (h.hasDirectory_iff.mpr hdir) hproper]
    by_cases hplace : here ++ [s] = place
    · -- The name is that of the new file, at which the path ends or is stopped.
      obtain ⟨content, mode, hfile⟩ := h.file
      rw [hplace, h.absent, hfile]
      cases rest with
      | nil =>
        rw [advance]
        exact .found hplace.symm
      | cons s' rest =>
        have hno : ¬HasDirectory root' place := by
          rw [h.hasDirectory_iff, HasDirectory, h.absent]
          simp
        dsimp only
        rw [advance_of_not_directory hno]
        exact .blocked
    · rcases h.elsewhere.cases hplace with ⟨hget, hget'⟩ | ⟨n, n', hget, hget', hlabel⟩
      · rw [hget, hget']
        exact .same
      · rw [hget, hget']
        cases alike_of_label hlabel with
        | file => exact ih
        | link => exact .same
        | directory => exact ih

/-- The same from link to link. -/
theorem follow_gained (h : AddsFile place root root') (followLast : Bool) (links : Nat)
    (here : Location) (path : List Segment) :
    Gained place (follow root followLast links here path)
      (follow root' followLast links here path) := by
  induction links generalizing here path with
  | zero =>
    have hgained := h.advance_gained followLast here path
    rw [follow, follow]
    generalize advance root followLast here path = arrival at hgained ⊢
    generalize advance root' followLast here path = arrival' at hgained ⊢
    cases hgained with
    | same => exact .same
    | found hplace => exact .found hplace
    | blocked => exact .blocked
  | succ links ih =>
    have hgained := h.advance_gained followLast here path
    rw [follow, follow]
    generalize advance root followLast here path = arrival at hgained ⊢
    generalize advance root' followLast here path = arrival' at hgained ⊢
    cases hgained with
    | same =>
      cases arrival with
      | link directory target rest => exact ih _ _
      | _ => exact .same
    | found hplace => exact .found hplace
    | blocked => exact .blocked

/-- Where a path leads in a file system that gets a new file. -/
theorem arrive_gained (h : AddsFile place fs.root fs'.root) (hcwd : fs'.cwd = fs.cwd)
    (followLast : Bool) (p : Path) :
    Gained place (fs.arrive followLast p) (fs'.arrive followLast p) := by
  unfold arrive
  rw [hcwd]
  split
  · exact .same
  · exact h.follow_gained followLast _ _ _

/-- The permission bits that a path gives to a file are the same with a new file, even if the path
leads to that. -/
theorem mode? (h : AddsFile place fs.root fs'.root) (hcwd : fs'.cwd = fs.cwd)
    {content : ByteArray}
    (hfile : fs'.root.get? place = some (.file content tempMode)) (p : Path) :
    (fs'.mode? p).getD tempMode = (fs.mode? p).getD tempMode := by
  have hgained := h.arrive_gained hcwd true p
  unfold FileSystem.mode? node locate
  generalize fs.arrive true p = arrival at hgained ⊢
  generalize fs'.arrive true p = arrival' at hgained ⊢
  cases hgained with
  | found => simp [hfile]
  | blocked => rfl
  | same =>
    cases arrival with
    | reached location =>
      by_cases hplace : location = place
      · simp [hplace, h.absent, hfile]
      · rcases h.elsewhere.cases hplace with ⟨hget, hget'⟩ | ⟨n, n', hget, hget', hlabel⟩
        · simp [hget, hget']
        · simp only [hget, hget']
          cases n <;> cases n' <;> simp_all [Node.label]
    | _ => rfl

end AddsFile

/-! ## Where a renamed file comes to stand -/

/-- What leads to a place with a void segment at its end leads to a directory without it. -/
theorem of_follow_void {links : Nat} {here : Location} {front : List Segment} {s : Segment}
    (hs : Path.isVoid s = true)
    (h : follow root true links here (front ++ [s]) = .reached directory) :
    follow root true links here front = .reached directory ∧ HasDirectory root directory := by
  have hvoid (directory : Location) :
      advance root true directory [s] = .failed .notDirectory ∨
        HasDirectory root directory ∧ advance root true directory [s] = .reached directory := by
    by_cases hdir : HasDirectory root directory
    · refine .inr ⟨hdir, ?_⟩
      rw [advance_void hdir hs, advance]
    · exact .inl (advance_of_not_directory hdir true s [])
  have hlink (directory directory' : Location) (target : Path) (rest : List Segment) :
      advance root true directory [s] ≠ .link directory' target rest := by
    rcases hvoid directory with hfailed | ⟨-, hsame⟩
    · simp [hfailed]
    · simp [hsame]
  obtain ⟨directory', hfront, hlast⟩ := exists_of_follow_last hlink h
  rcases hvoid directory' with hfailed | ⟨hdir, hsame⟩
  · rw [hfailed] at hlast
    contradiction
  · rw [hsame] at hlast
    obtain rfl := Arrival.reached.inj hlast
    exact ⟨hfront, hdir⟩

/-- A path that ends with no separator ends with a segment that is not empty. -/
theorem getLast?_of_segments_nil {front : List Segment} (hne : p.bytes ≠ [])
    (h : segments p = front ++ [[]]) : p.bytes.getLast? = some Path.separator := by
  obtain ⟨-, ⟨hbytes, -⟩ | ⟨bytes, hbytes, -⟩⟩ := Path.bytes_of_segments h
  · exact absurd hbytes hne
  · rw [hbytes, List.getLast?_concat]

/-- A file is renamed to an entry that the path names, and no directory is there. -/
theorem names_of_renameTarget (h : fs.renameTarget p = .ok place) :
    ∃ directory name, Names fs p directory name ∧ place = directory ++ [name] ∧
      (fs.root.get? place).any Node.isDirectory = false := by
  obtain ⟨front, last, hsegments⟩ :=
    (List.eq_nil_or_concat' (segments p)).resolve_left (List.splitOn_ne_nil _ _)
  unfold FileSystem.renameTarget at h
  split at h
  · contradiction
  · contradiction
  rename_i hvalid
  dsimp only at h
  split at h
  · contradiction
  rename_i name hname
  split at h
  · contradiction
  · contradiction
  · contradiction
  rename_i directory hfollow
  split at h
  · contradiction
  rename_i hnormal
  split at h
  · contradiction
  rename_i hshort
  split at h
  · contradiction
  rename_i hslash
  split at h
  · contradiction
  rename_i hfree
  obtain rfl := Except.ok.inj h
  -- No separator is at the end, so no segments are dropped there.
  have hlast : last ≠ [] := by
    rintro rfl
    have hend := getLast?_of_segments_nil (pathError?_eq_none.mp hvalid).2.1 hsegments
    exact hslash (beq_iff_eq.mpr hend)
  have hpath := reverse_dropWhile_reverse hsegments hlast
  rw [hpath, List.getLast?_concat, Option.some.injEq] at hname
  subst hname
  rw [hpath, List.dropLast_concat] at hfollow
  obtain ⟨hfront, hdirectory⟩ := of_follow_void rfl hfollow
  rw [Bool.or_eq_true, not_or, Bool.not_eq_true, beq_iff_eq] at hnormal
  exact ⟨directory, last,
    ⟨hvalid, ⟨hnormal.1, hnormal.2, Nat.not_lt.mp hshort⟩, hdirectory, front, hsegments, hfront⟩,
    rfl, by simpa using hfree⟩

/-- What is renamed to a path comes to stand where it would have come to stand without the new file.
-/
theorem AddsFile.renameTarget {target : Location} (h : AddsFile place fs.root fs'.root)
    (hcwd : fs'.cwd = fs.cwd) (htarget : fs'.renameTarget p = .ok target) :
    fs.renameTarget p = .ok target := by
  obtain ⟨directory, name, hnames, rfl, hfree⟩ := names_of_renameTarget htarget
  obtain ⟨front, hsegments, hfollow⟩ := hnames.split
  have hdirectory := h.hasDirectory_iff.mp hnames.hasDirectory
  have hgained := h.follow_gained true maxLinks (origin fs.cwd p) front
  rw [← hcwd, hfollow] at hgained
  generalize hbefore : follow fs.root true maxLinks (origin fs'.cwd p) front = arrival at hgained
  have hnames' : Names fs p directory name := by
    cases hgained with
    | same => exact ⟨hnames.valid, hnames.proper, hdirectory, front, hsegments, hcwd ▸ hbefore⟩
    | found =>
      -- The new file is no directory.
      rw [HasDirectory, h.absent] at hdirectory
      contradiction
  refine hnames'.renameTarget ?_
  rw [← Bool.not_eq_true] at hfree ⊢
  exact mt h.hasDirectory_iff.mpr hfree

end LogGuard.FileSystem
