import LogGuard.Proofs.FileSystem.Nested
import Mathlib.Data.List.Sort

/-!
# The order of a walk

A walk meets the files below a directory in the order of the names that lead to them, compared name
by name (`Node.exists_lists`): all files below one entry come before those below an entry of a
greater name, whether the entries are files or directories. It meets every file, each one once,
unless a directory on the way has a path that is too long.

The order in which a directory lists its entries does not count. Trees with the same labels differ
in nothing else (`Node.Relisted`), and a path that leads to a place in one of them leads to the same
place in the other (`locate_of_relisted`).
-/

namespace LogGuard

open FileSystem

/-- The regular file of a visit. -/
def Visit.file? : Visit → Option Path
  | .file path => some path
  | .unreadable .. => none

namespace Node

/-- Names lead from the directory at `path` to a regular file, through directories whose paths are
short enough for them to be read. -/
structure Meets (n : Node) (path : Path) (names : Location) : Prop where
  file : ∃ content mode, n.get? names = some (.file content mode)
  readable : ∀ front, front <+: names → front ≠ names →
    (below path front).bytes.length ≤ maxPath

/-- The files that a walk meets, by the names that lead to them: each one once and in order. -/
structure Lists (n : Node) (path : Path) (files : List Location) : Prop where
  visits : (n.visits path).filterMap Visit.file? = files.map (below path)
  sorted : files.Pairwise (· < ·)
  mem : ∀ names, names ∈ files ↔ n.Meets path names

/-- The two trees have the same files, links and directories. Their directories may list the entries
in different orders. -/
def Relisted (n n' : Node) : Prop :=
  ∀ location, (n.get? location).map label = (n'.get? location).map label

variable {path : Path} {n : Node} {name : Segment} {names : Location}
  {entries : List (Segment × Node)} {mode : Nat}

/-! ## The names of the files -/

/-- Different names are in strict order once they are sorted. -/
theorem pairwise_sorted_entries (h : (entries.map Prod.fst).Nodup) :
    (entries.mergeSort fun a b => decide (a.1 ≤ b.1)).Pairwise fun a b => a.1 < b.1 := by
  have hperm := List.mergeSort_perm entries fun a b => decide (a.1 ≤ b.1)
  have hne := List.pairwise_map.mp ((hperm.map Prod.fst).nodup_iff.mpr h)
  have hle : (entries.mergeSort fun a b => decide (a.1 ≤ b.1)).Pairwise
      fun a b => decide (a.1 ≤ b.1) = true := by
    refine List.pairwise_mergeSort (fun a b c hab hbc => ?_) (fun a b => ?_) entries
    · rw [decide_eq_true_eq] at hab hbc ⊢
      exact List.le_trans hab hbc
    · rw [Bool.or_eq_true, decide_eq_true_eq, decide_eq_true_eq]
      exact List.le_total a.1 b.1
  refine hle.imp₂ (fun a b hab hab' => ?_) hne
  rw [decide_eq_true_eq] at hab
  exact List.not_le.mp fun hba => hab' (List.le_antisymm hab hba)

/-- A directory that can be read is walked entry by entry in the order of the names. -/
theorem visits_directory (hshort : path.bytes.length ≤ maxPath) :
    (directory mode entries).visits path =
      (entries.mergeSort fun a b => decide (a.1 ≤ b.1)).flatMap fun entry =>
        entry.2.visits (path.join ⟨entry.1⟩) := by
  have hsorted : ((entries.mergeSort fun a b => decide (a.1 ≤ b.1)).map fun entry =>
      (entry.1, entry.2.visits (path.join ⟨entry.1⟩))) =
        (entries.map fun entry => (entry.1, entry.2.visits (path.join ⟨entry.1⟩))).mergeSort
          fun a b => decide (a.1 ≤ b.1) :=
    List.map_mergeSort fun _ _ _ _ => rfl
  rw [visits, if_neg (Nat.not_lt.mpr hshort), Visit.inOrder, visitsBelow_eq_map, ← hsorted,
    List.flatMap_map]

/-- What names lead to from a directory they lead to from the entry of the first name. -/
theorem meets_directory (h : (directory mode entries).WellFormed)
    (hshort : path.bytes.length ≤ maxPath) :
    (directory mode entries).Meets path names ↔
      ∃ entry ∈ entries, ∃ rest, names = entry.1 :: rest ∧
        entry.2.Meets (path.join ⟨entry.1⟩) rest := by
  constructor
  · rintro ⟨⟨content, bits, hget⟩, hreadable⟩
    cases names with
    | nil => simp at hget
    | cons name rest =>
      obtain ⟨_, _, child, heq, hmem, hchild⟩ := exists_entry_of_get? hget
      obtain ⟨rfl, rfl⟩ := directory.inj heq
      refine ⟨(name, child), hmem, rest, rfl, ⟨content, bits, hchild⟩, fun front hfront hne => ?_⟩
      exact hreadable (name :: front) (List.cons_prefix_cons.mpr ⟨rfl, hfront⟩) (by simpa using hne)
  · rintro ⟨⟨name, child⟩, hmem, rest, rfl, ⟨content, bits, hchild⟩, hreadable⟩
    obtain ⟨-, -, hentry⟩ := h.entry hmem
    refine ⟨⟨content, bits, ?_⟩, fun front hfront hne => ?_⟩
    · rw [get?, hentry]
      exact hchild
    · rcases List.prefix_cons_iff.mp hfront with rfl | ⟨front', rfl, hfront'⟩
      · exact hshort
      · exact hreadable front' hfront' (by simpa using hne)

/-- The files below a directory that can be read are those below its entries, one entry after the
other in the order of their names. -/
theorem lists_directory (h : (directory mode entries).WellFormed)
    (hshort : path.bytes.length ≤ maxPath) {files : Segment × Node → List Location}
    (hfiles : ∀ entry ∈ entries, entry.2.Lists (path.join ⟨entry.1⟩) (files entry)) :
    (directory mode entries).Lists path
      ((entries.mergeSort fun a b => decide (a.1 ≤ b.1)).flatMap fun entry =>
        (files entry).map (entry.1 :: ·)) := by
  have hsorted := pairwise_sorted_entries (h [] mode entries (get?_nil _)).1
  have hmem {entry : Segment × Node} :
      entry ∈ (entries.mergeSort fun a b => decide (a.1 ≤ b.1)) ↔ entry ∈ entries :=
    List.mem_mergeSort
  refine ⟨?_, ?_, fun names => ?_⟩
  · rw [visits_directory hshort, List.filterMap_flatMap, List.map_flatMap]
    refine List.flatMap_congr fun entry hentry => ?_
    rw [(hfiles entry (hmem.mp hentry)).visits, List.map_map]
    rfl
  · -- The files below one entry are in order, and entries of different names keep them apart.
    refine List.pairwise_flatMap.mpr ⟨fun entry hentry => ?_, hsorted.imp fun hlt => ?_⟩
    · refine List.pairwise_map.mpr ((hfiles entry (hmem.mp hentry)).sorted.imp fun hlt => ?_)
      exact List.cons_lt_cons_iff.mpr (.inr ⟨rfl, hlt⟩)
    · intro names hnames names' hnames'
      obtain ⟨rest, -, rfl⟩ := List.mem_map.mp hnames
      obtain ⟨rest', -, rfl⟩ := List.mem_map.mp hnames'
      exact List.cons_lt_cons_iff.mpr (.inl hlt)
  · rw [meets_directory h hshort, List.mem_flatMap]
    constructor
    · rintro ⟨entry, hentry, hnames⟩
      obtain ⟨rest, hrest, rfl⟩ := List.mem_map.mp hnames
      have hentry' := hmem.mp hentry
      exact ⟨entry, hentry', rest, rfl, ((hfiles entry hentry').mem rest).mp hrest⟩
    · rintro ⟨entry, hentry, rest, rfl, hmeets⟩
      have hrest := ((hfiles entry hentry).mem rest).mpr hmeets
      exact ⟨entry, hmem.mpr hentry, List.mem_map_of_mem hrest⟩

/-- A directory that cannot be read is reported, and no file below it is met. -/
theorem lists_unreadable (hlong : ¬path.bytes.length ≤ maxPath) :
    (directory mode entries).Lists path [] := by
  refine ⟨?_, List.Pairwise.nil, fun names => ?_⟩
  · rw [visits, if_pos (Nat.not_le.mp hlong)]
    rfl
  · constructor
    · intro hmem
      contradiction
    · rintro ⟨⟨_, _, hget⟩, hreadable⟩
      refine absurd (hreadable [] List.nil_prefix ?_) hlong
      rintro rfl
      simp at hget

mutual

/-- A walk meets the files of a tree in the order of the names that lead to them, each one once. -/
theorem exists_lists (path : Path) : ∀ n : Node, n.WellFormed → ∃ files, n.Lists path files
  | .file content mode, _ => by
    refine ⟨[[]], rfl, List.pairwise_singleton _ _, fun names => ?_⟩
    rw [List.mem_singleton]
    constructor
    · rintro rfl
      exact ⟨⟨content, mode, get?_nil _⟩, fun front hfront hne =>
        absurd (List.prefix_nil.mp hfront) hne⟩
    · rintro ⟨⟨_, _, hget⟩, -⟩
      exact eq_nil_of_get? rfl hget
  | .link target, _ => by
    refine ⟨[], rfl, List.Pairwise.nil, fun names => ?_⟩
    constructor
    · intro hmem
      contradiction
    · rintro ⟨⟨_, _, hget⟩, -⟩
      obtain rfl := eq_nil_of_get? rfl hget
      simp at hget
  | .directory mode entries, hwf => by
    by_cases hshort : path.bytes.length ≤ maxPath
    · -- The lists of all entries are put together, so one is chosen for each of them.
      have hbelow : ∀ entry, ∃ files, entry ∈ entries →
          entry.2.Lists (path.join ⟨entry.1⟩) files := by
        rintro ⟨name, child⟩
        by_cases hmem : (name, child) ∈ entries
        · obtain ⟨files, hfiles⟩ :=
            exists_lists_of_mem (path.join ⟨name⟩) entries name child hmem (hwf.entry hmem).1
          exact ⟨files, fun _ => hfiles⟩
        · exact ⟨[], fun h => absurd h hmem⟩
      choose files hfiles using hbelow
      exact ⟨_, lists_directory hwf hshort hfiles⟩
    · exact ⟨[], lists_unreadable hshort⟩

/-- The same for one of several entries. -/
theorem exists_lists_of_mem (path : Path) :
    ∀ (entries : List (Segment × Node)) (name : Segment) (child : Node), (name, child) ∈ entries →
      child.WellFormed → ∃ files, child.Lists path files
  | [], _, _, hmem, _ => by
    contradiction
  | (first, n) :: rest, name, child, hmem, hwf => by
    rcases List.mem_cons.mp hmem with heq | hrest
    · obtain ⟨rfl, rfl⟩ := Prod.mk.inj heq
      exact exists_lists path child hwf
    · exact exists_lists_of_mem path rest name child hrest hwf

end

/-! ## Entries in another order -/

variable {n' : Node} {location : Location}

/-- A file is found in either tree. -/
theorem Relisted.get?_file (h : n.Relisted n') {content : ByteArray} :
    n.get? location = some (.file content mode) ↔ n'.get? location = some (.file content mode) := by
  rw [← map_label_eq_file, h, map_label_eq_file]

/-- Whatever is found in one tree is found in the other. -/
theorem Relisted.extends (h : n.Relisted n') : Extends n n' := by
  intro location found hget
  have hlabel := h location
  rw [hget, Option.map_some, eq_comm, Option.map_eq_some_iff] at hlabel
  obtain ⟨found', hget', hlabel⟩ := hlabel
  exact ⟨found', hget', alike_of_label hlabel.symm⟩

/-- An entry is found wherever the directory lists it. -/
theorem lookup_of_perm {entries' : List (Segment × Node)} (hperm : entries.Perm entries')
    (h : (entries.map Prod.fst).Nodup) (name : Segment) :
    entries.lookup name = entries'.lookup name := by
  have h' : (entries'.map Prod.fst).Nodup := (hperm.map Prod.fst).nodup_iff.mp h
  cases hlookup : entries.lookup name with
  | none =>
    rw [List.lookup_eq_none_iff] at hlookup
    rw [eq_comm, List.lookup_eq_none_iff]
    exact fun entry hentry => hlookup entry (hperm.mem_iff.mpr hentry)
  | some child =>
    obtain ⟨before, after, rfl, -⟩ := List.lookup_eq_some_iff.mp hlookup
    exact (lookup_of_mem h' (hperm.mem_iff.mp (by simp))).symm

/-- A directory may list its entries in any order. -/
theorem relisted_of_perm {entries' : List (Segment × Node)} (hperm : entries.Perm entries')
    (h : (entries.map Prod.fst).Nodup) :
    (directory mode entries).Relisted (directory mode entries') := by
  intro location
  cases location with
  | nil => rfl
  | cons name rest => rw [get?, get?, entry?, entry?, lookup_of_perm hperm h name]

end Node

variable {fs fs' : FileSystem} {p : Path} {directory : Location}

/-- A path leads to the same place whatever the order in which directories list their entries. -/
theorem locate_of_relisted (h : fs.root.Relisted fs'.root) (hcwd : fs'.cwd = fs.cwd)
    (hp : fs.locate p = .ok directory) : fs'.locate p = .ok directory := by
  obtain ⟨hvalid, hfollow⟩ := follow_of_locate hp
  have harrive : fs'.arrive true p = .reached directory := by
    rw [arrive, hvalid, hcwd]
    exact follow_mono h.extends hfollow
  rw [locate, harrive]

end LogGuard
