import LogGuard.Proofs.FileSystem.Walk

/-!
# Walks of nested directories

A walk meets all that a walk of a directory further below meets, and by the same paths, if names
lead from the one to the other (`walk_below_subset`). The path to the inner directory is one that
can be followed, and those to the directories on the way are shorter, so that none of them is
reported in place of its files.
-/

namespace LogGuard

open FileSystem

variable {fs : FileSystem} {p : Path}

/-- What is below a name of a directory is below an entry of that name. -/
theorem Node.exists_entry_of_get? {n below : Node} {name : Segment} {rest : Location}
    (hget : n.get? (name :: rest) = some below) :
    ∃ mode entries child, n = .directory mode entries ∧ (name, child) ∈ entries ∧
      child.get? rest = some below := by
  rcases n.directory_cases with hn | ⟨mode, entries, rfl⟩
  · rw [Node.get?, Node.entry?_eq_none hn] at hget
    contradiction
  · rw [Node.get?, Node.entry?] at hget
    cases hlookup : entries.lookup name with
    | none => simp [hlookup] at hget
    | some child =>
      rw [hlookup] at hget
      obtain ⟨before, after, rfl, -⟩ := List.lookup_eq_some_iff.mp hlookup
      exact ⟨mode, _, child, rfl, by simp, hget⟩

/-- The names that lead somewhere in a well-formed tree are valid. -/
theorem Node.WellFormed.names {n below : Node} (h : n.WellFormed) {location : Location}
    (hget : n.get? location = some below) : ∀ name ∈ location, ValidName name := by
  induction location generalizing n with
  | nil => simp
  | cons name rest ih =>
    obtain ⟨mode, entries, child, rfl, hmem, hchild⟩ := Node.exists_entry_of_get? hget
    obtain ⟨hwf, hname, -⟩ := h.entry hmem
    exact List.forall_mem_cons.mpr ⟨hname, ih hwf hchild⟩

/-- A walk meets what a walk from further below meets, if the path to there is short enough. -/
theorem mem_visits_below {n inner : Node} {path : Path} {names : Location} {visit : Visit}
    (hp : path.bytes ≠ []) (hzero : 0 ∉ path.bytes) (hnames : ∀ name ∈ names, ValidName name)
    (hshort : (below path names).bytes.length ≤ maxPath) (hget : n.get? names = some inner)
    (h : visit ∈ inner.visits (below path names)) : visit ∈ n.visits path := by
  induction names generalizing n path with
  | nil =>
    obtain rfl : n = inner := by simpa using hget
    exact h
  | cons name rest ih =>
    obtain ⟨mode, entries, child, rfl, hmem, hchild⟩ := Node.exists_entry_of_get? hget
    obtain ⟨hname, hrest⟩ := List.forall_mem_cons.mp hnames
    obtain ⟨hpre, -, -⟩ := below_spec hp hzero hnames
    have hfirst : ∀ other ∈ [name], ValidName other := by simpa using hname
    obtain ⟨hpre', hzero', -⟩ := below_spec hp hzero hfirst
    have hlong : ¬maxPath < path.bytes.length :=
      Nat.not_lt.mpr (Nat.le_trans hpre.length_le hshort)
    rw [Node.visits, if_neg hlong, mem_inOrder, visitsBelow_eq_map]
    exact ⟨_, List.mem_map_of_mem hmem, ih (hpre'.ne_nil hp) hzero' hrest hshort hchild h⟩

/-- A directory that can be reached has a place. -/
theorem locate_below_directory {directory names : Location} (hp : fs.locate p = .ok directory)
    (hnames : ∀ name ∈ names, ValidName name)
    (hdirectory : HasDirectory fs.root (directory ++ names))
    (h : fs.isDirectory (below p names) = true) :
    fs.locate (below p names) = .ok (directory ++ names) := by
  obtain ⟨hvalid, hfollow⟩ := follow_of_locate hp
  obtain ⟨hzero, hne, -⟩ := pathError?_eq_none.mp hvalid
  obtain ⟨hpre, -, hsolid⟩ := below_spec hne hzero hnames
  unfold FileSystem.isDirectory at h
  split at h
  · rename_i n hnode
    obtain ⟨location, hlocate, -⟩ := exists_of_node hnode
    have hbelow := (follow_of_locate hlocate).2
    rw [origin, Path.isAbsolute_of_prefix hne hpre, ← origin,
      follow_below hfollow hnames hdirectory hsolid] at hbelow
    rw [hlocate, Arrival.reached.inj hbelow]
  · contradiction

/-- A walk meets what a walk from a directory below meets, if names lead there. -/
theorem walk_below_subset {directory names : Location} (hfs : fs.root.WellFormed)
    (hp : fs.locate p = .ok directory) (hdirectory : HasDirectory fs.root (directory ++ names))
    (h : fs.isDirectory (below p names) = true) : fs.walk (below p names) ⊆ fs.walk p := by
  obtain ⟨mode, entries, hget⟩ := hasDirectory_iff.mp hdirectory
  have hnames : ∀ name ∈ names, ValidName name := fun name hname =>
    hfs.names hget name (List.mem_append_right _ hname)
  have hlocate := locate_below_directory hp hnames hdirectory h
  obtain ⟨hzero, hne, -⟩ := pathError?_eq_none.mp (follow_of_locate hp).1
  obtain ⟨-, -, hshort⟩ := pathError?_eq_none.mp (follow_of_locate hlocate).1
  rw [Node.get?_append] at hget
  obtain ⟨outer, houter, hinner⟩ := Option.bind_eq_some_iff.mp hget
  intro visit hvisit
  have hnode : fs.node (below p names) = .ok (.directory mode entries) := by
    unfold FileSystem.node
    rw [hlocate]
    dsimp only
    rw [Node.get?_append, houter, Option.bind_some, hinner]
  have hnode' : fs.node p = .ok outer := by
    unfold FileSystem.node
    rw [hp]
    dsimp only
    rw [houter]
  unfold FileSystem.walk at hvisit ⊢
  rw [hnode] at hvisit
  rw [hnode']
  have hmem := mem_visits_below hne hzero hnames hshort hinner hvisit
  rcases outer.directory_cases with hleaf | ⟨mode', entries', rfl⟩
  · -- Below a leaf there is nothing but itself, and it would be the directory.
    obtain rfl := Node.eq_nil_of_get? hleaf hinner
    obtain rfl : outer = .directory mode entries := by simpa using hinner
    contradiction
  · exact hmem
end LogGuard
