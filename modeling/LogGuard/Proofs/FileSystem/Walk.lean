import LogGuard.FileSystem.Walk
import LogGuard.Proofs.FileSystem.Resolve
import LogGuard.Proofs.Path.Relative
import Mathlib.Data.List.Induction

/-!
# What a walk meets

The names on the way to a file that a walk meets, joined to the path of the walk, are the path of
the file (`exists_of_mem_visits`). In a well-formed tree that path leads to the file, unless it is
too long to be followed at all (`arrive_below`). It takes the steps of the path of the walk and then
those of the names (`components_below`). Well-formed trees with the same places are the same if
their files are (`Node.eq_of_blank`).
-/

namespace LogGuard

open FileSystem
open LogGuard.Path (solid solid_append solid_cons_of_solid solid_cons_of_void)

/-- A name that an entry of a directory can have. -/
structure ValidName (name : Segment) : Prop extends Proper name where
  no_separator : Path.separator ∉ name
  no_zero : 0 ∉ name

instance (name : Segment) : Decidable (ValidName name) :=
  decidable_of_iff (Path.isVoid name = false ∧ name ≠ [Path.dot, Path.dot] ∧
      name.length ≤ maxName ∧ Path.separator ∉ name ∧ 0 ∉ name)
    ⟨fun ⟨hsolid, hparent, hshort, hseparator, hzero⟩ =>
        ⟨⟨hsolid, hparent, hshort⟩, hseparator, hzero⟩,
      fun h => ⟨h.solid, h.ne_parent, h.short, h.no_separator, h.no_zero⟩⟩

/-- A tree in which every directory gives each name once and no name is invalid. -/
def Node.WellFormed (n : Node) : Prop :=
  ∀ location mode entries, n.get? location = some (.directory mode entries) →
    (entries.map Prod.fst).Nodup ∧ ∀ entry ∈ entries, ValidName entry.1

/-- The path of the node to which `names` lead from the path `p`. -/
def below (p : Path) (names : Location) : Path :=
  names.foldl (fun q name => q.join ⟨name⟩) p

theorem below_concat (p : Path) (names : Location) (name : Segment) :
    below p (names ++ [name]) = (below p names).join ⟨name⟩ := by
  rw [below, List.foldl_append]
  rfl

theorem ValidName.isName {name : Segment} (h : ValidName name) : Path.IsName name :=
  ⟨h.no_separator, Path.component?_eq_normal.mpr ⟨rfl, h.solid, h.ne_parent⟩⟩

theorem isName_append {front names : Location} (hfront : ∀ name ∈ front, Path.IsName name)
    (hnames : ∀ name ∈ names, ValidName name) : ∀ name ∈ front ++ names, Path.IsName name := by
  intro name hname
  rcases List.mem_append.mp hname with hmem | hmem
  · exact hfront name hmem
  · exact (hnames name hmem).isName

/-- Going on from a path of names that is joined to a base is going on from the base. -/
theorem below_join (base : Path) {front names : Location}
    (hfront : ∀ name ∈ front, Path.IsName name) (hnames : ∀ name ∈ names, ValidName name) :
    below (base.join (Path.ofParts [] front)) names =
      base.join (Path.ofParts [] (front ++ names)) := by
  induction names using List.reverseRecOn with
  | nil => rw [List.append_nil]; rfl
  | append_singleton names name ih =>
    have hinit : ∀ other ∈ names, ValidName other := fun other hother =>
      hnames other (List.mem_append_left _ hother)
    have hname : Path.IsName name := (hnames name (by simp)).isName
    rw [below_concat, ih hinit, Path.join_ofParts_concat base (isName_append hfront hinit) hname,
      List.append_assoc]

/-! ## Well-formed trees -/

/-- In a directory without repeated names every entry is found. -/
theorem lookup_of_mem {entries : List (Segment × Node)} (h : (entries.map Prod.fst).Nodup)
    {name : Segment} {child : Node} (hmem : (name, child) ∈ entries) :
    entries.lookup name = some child := by
  induction entries with
  | nil => contradiction
  | cons entry rest ih =>
    obtain ⟨first, n⟩ := entry
    rw [List.map_cons, List.nodup_cons] at h
    rcases List.mem_cons.mp hmem with heq | hrest
    · obtain ⟨rfl, rfl⟩ := Prod.mk.inj heq
      simp
    · have hne : (name == first) = false := by
        rw [beq_eq_false_iff_ne]
        rintro rfl
        exact h.1 (List.mem_map.mpr ⟨(name, child), hrest, rfl⟩)
      rw [List.lookup_cons, hne]
      exact ih h.2 hrest

/-- What is below an entry of a well-formed tree is a well-formed tree. -/
theorem Node.WellFormed.entry {mode : Nat} {entries : List (Segment × Node)}
    (h : (Node.directory mode entries).WellFormed) {name : Segment} {child : Node}
    (hmem : (name, child) ∈ entries) :
    child.WellFormed ∧ ValidName name ∧
      Node.entry? (.directory mode entries) name = some child := by
  obtain ⟨hnodup, hnames⟩ := h [] mode entries (Node.get?_nil _)
  have hlookup := lookup_of_mem hnodup hmem
  refine ⟨fun location mode' entries' hget => ?_, hnames _ hmem, hlookup⟩
  apply h (name :: location) mode' entries'
  rw [Node.get?, Node.entry?, hlookup]
  exact hget

/-- What is below a location of a well-formed tree is a well-formed tree. -/
theorem Node.WellFormed.get? {n below : Node} (h : n.WellFormed) {location : Location}
    (hget : n.get? location = some below) : below.WellFormed := by
  intro rest mode entries hrest
  apply h (location ++ rest) mode entries
  rw [Node.get?_append, hget]
  exact hrest

/-- A file or a link is a well-formed tree. -/
theorem Node.wellFormed_of_leaf {n : Node} (h : n.isDirectory = false) : n.WellFormed := by
  intro location mode entries hget
  obtain rfl := Node.eq_nil_of_get? h hget
  rw [Node.get?_nil, Option.some.injEq] at hget
  rw [hget] at h
  contradiction

/-- A directory is a well-formed tree if its entries are and have different valid names. -/
theorem Node.wellFormed_directory {mode : Nat} {entries : List (Segment × Node)}
    (hnodup : (entries.map Prod.fst).Nodup)
    (hentries : ∀ entry ∈ entries, ValidName entry.1 ∧ entry.2.WellFormed) :
    (Node.directory mode entries).WellFormed := by
  intro location mode' entries' hget
  cases location with
  | nil =>
    rw [Node.get?_nil, Option.some.injEq] at hget
    obtain ⟨rfl, rfl⟩ := Node.directory.inj hget
    exact ⟨hnodup, fun entry hentry => (hentries entry hentry).1⟩
  | cons name rest =>
    rw [Node.get?, Node.entry?] at hget
    cases hlookup : entries.lookup name with
    | none => simp [hlookup] at hget
    | some child =>
      rw [hlookup] at hget
      obtain ⟨before, after, rfl, -⟩ := List.lookup_eq_some_iff.mp hlookup
      exact (hentries (name, child) (by simp)).2 rest mode' entries' hget

/-- Whether a node, if it is a directory, gives each name once and no name is invalid. -/
def Node.givesValidNames : Node → Bool
  | .directory _ entries =>
    decide (entries.map Prod.fst).Nodup && entries.all fun entry => decide (ValidName entry.1)
  | _ => true

/-- Going through a tree finds out whether it is well-formed. -/
theorem Node.wellFormed_of_all {n : Node} (h : n.all givesValidNames = true) : n.WellFormed := by
  intro location mode entries hget
  have hnames := Node.of_all h hget
  rw [givesValidNames, Bool.and_eq_true, decide_eq_true_eq] at hnames
  exact ⟨hnames.1, by simpa using hnames.2⟩

/-- Whether a tree is well-formed does not depend on the content of files. -/
theorem Node.WellFormed.of_blank {n n' : Node} (h : n'.WellFormed) (hblank : n.blank = n'.blank) :
    n.WellFormed := by
  intro location mode entries hget
  have hplace : (n'.get? location).map Node.blank =
      some (.directory mode (Node.blankEntries entries)) := by
    rw [← Node.get?_blank, ← hblank, Node.get?_blank, hget]
    rfl
  obtain ⟨m, hm, hmblank⟩ := Option.map_eq_some_iff.mp hplace
  cases m with
  | file => contradiction
  | link => contradiction
  | directory mode' entries' =>
    have hnames : entries'.map Prod.fst = entries.map Prod.fst := by
      rw [← Node.map_fst_blankEntries, (Node.directory.inj hmblank).2, Node.map_fst_blankEntries]
    obtain ⟨hnodup, hvalid⟩ := h location mode' entries' hm
    have hkeys : ∀ name ∈ entries'.map Prod.fst, ValidName name := by
      simpa using hvalid
    rw [hnames] at hnodup hkeys
    exact ⟨hnodup, by simpa using hkeys⟩

/-! ## Trees with the same files -/

/-- The files of a tree are files of another one, where they have the same content. -/
def Node.FilesIn (n n' : Node) : Prop :=
  ∀ location content mode, n.get? location = some (.file content mode) →
    n'.get? location = some (.file content mode)

/-- Entries are the same if their blank trees are and each one is the same as the one of its name.
-/
theorem Node.eq_of_blankEntries {entries entries' : List (Segment × Node)}
    (hblank : blankEntries entries = blankEntries entries')
    (h : ∀ name child child', (name, child) ∈ entries → (name, child') ∈ entries' →
      child.blank = child'.blank → child = child') : entries = entries' := by
  induction entries generalizing entries' with
  | nil =>
    cases entries' with
    | nil => rfl
    | cons entry' rest' => contradiction
  | cons entry rest ih =>
    cases entries' with
    | nil => contradiction
    | cons entry' rest' =>
      obtain ⟨name, child⟩ := entry
      obtain ⟨name', child'⟩ := entry'
      rw [blankEntries, blankEntries, List.cons.injEq, Prod.mk.injEq] at hblank
      obtain ⟨⟨rfl, hchild⟩, hrest⟩ := hblank
      rw [h name child child' List.mem_cons_self List.mem_cons_self hchild,
        ih hrest fun name child child' hmem hmem' =>
          h name child child' (List.mem_cons_of_mem _ hmem) (List.mem_cons_of_mem _ hmem')]

mutual

/-- Well-formed trees are the same if their blank trees are and the files of one are in the other.
-/
theorem Node.eq_of_blank :
    ∀ n n' : Node, n.WellFormed → n'.WellFormed → n.blank = n'.blank → n.FilesIn n' → n = n'
  | .file content mode, n', _, _, _, hfiles => by
    have hget := hfiles [] content mode (Node.get?_nil _)
    rw [Node.get?_nil, Option.some.injEq] at hget
    exact hget.symm
  | .link target, n', _, _, hblank, _ => by
    cases n' with
    | link target' => exact hblank
    | _ => contradiction
  | .directory mode entries, n', h, h', hblank, hfiles => by
    cases n' with
    | directory mode' entries' =>
      obtain ⟨rfl, hentries⟩ := Node.directory.inj hblank
      refine congrArg (Node.directory mode) (Node.eq_of_blankEntries hentries ?_)
      intro name child child' hmem hmem' hchild
      obtain ⟨hwf, -, hentry⟩ := h.entry hmem
      obtain ⟨hwf', -, hentry'⟩ := h'.entry hmem'
      refine Node.eq_of_mem_of_blank entries name child child' hmem hwf hwf' hchild ?_
      intro location content bits hget
      have hbelow := hfiles (name :: location) content bits
      rw [Node.get?, Node.get?, hentry, hentry'] at hbelow
      exact hbelow hget
    | _ => contradiction

/-- The same for one of several entries. -/
theorem Node.eq_of_mem_of_blank :
    ∀ (entries : List (Segment × Node)) (name : Segment) (child child' : Node),
      (name, child) ∈ entries → child.WellFormed → child'.WellFormed → child.blank = child'.blank →
        child.FilesIn child' → child = child'
  | [], _, _, _, hmem, _, _, _, _ => by
    contradiction
  | (first, n) :: rest, name, child, child', hmem, h, h', hblank, hfiles => by
    rcases List.mem_cons.mp hmem with heq | hrest
    · obtain ⟨rfl, rfl⟩ := Prod.mk.inj heq
      exact Node.eq_of_blank child child' h h' hblank hfiles
    · exact Node.eq_of_mem_of_blank rest name child child' hrest h h' hblank hfiles

end

/-! ## The files of a walk -/

/-- The entries are met one by one. -/
theorem visitsBelow_eq_map (path : Path) (entries : List (Segment × Node)) :
    Node.visitsBelow path entries =
      entries.map fun entry => (entry.1, entry.2.visits (path.join ⟨entry.1⟩)) := by
  induction entries with
  | nil => rfl
  | cons entry rest ih =>
    obtain ⟨name, child⟩ := entry
    rw [Node.visitsBelow, ih]
    rfl

/-- Sorting loses nothing that a walk meets. -/
theorem mem_inOrder {named : List (Segment × List Visit)} {visit : Visit} :
    visit ∈ Visit.inOrder named ↔ ∃ entry ∈ named, visit ∈ entry.2 := by
  simp [Visit.inOrder, List.mem_flatMap]

mutual

/-- A file that a walk meets is in the tree, and its path is made of the names that lead there. -/
theorem exists_of_mem_visits {path p : Path} :
    ∀ n : Node, n.WellFormed → .file p ∈ n.visits path →
      ∃ names content mode, p = below path names ∧ n.get? names = some (.file content mode) ∧
        ∀ name ∈ names, ValidName name
  | .file content mode, _, h => by
    obtain rfl : p = path := by simpa [Node.visits] using h
    exact ⟨[], content, mode, rfl, Node.get?_nil _, by simp⟩
  | .link target, _, h => by
    simp [Node.visits] at h
  | .directory mode entries, hwf, h => by
    rw [Node.visits] at h
    split at h
    · simp at h
    · rw [mem_inOrder, visitsBelow_eq_map] at h
      obtain ⟨visited, hvisited, hp⟩ := h
      obtain ⟨⟨name, child⟩, hmem, rfl⟩ := List.mem_map.mp hvisited
      obtain ⟨hchild, hvalid, hentry⟩ := hwf.entry hmem
      obtain ⟨names, content, mode', rfl, hget, hnames⟩ :=
        exists_of_mem_visitsBelow entries name child hmem hchild hp
      refine ⟨name :: names, content, mode', rfl, ?_, ?_⟩
      · rw [Node.get?, hentry]
        exact hget
      · rintro other hother
        rcases List.mem_cons.mp hother with rfl | hother
        · exact hvalid
        · exact hnames other hother

/-- The same for the files below one of several entries. -/
theorem exists_of_mem_visitsBelow {path p : Path} :
    ∀ (entries : List (Segment × Node)) (name : Segment) (child : Node), (name, child) ∈ entries →
      child.WellFormed → .file p ∈ child.visits (path.join ⟨name⟩) →
      ∃ names content mode, p = below (path.join ⟨name⟩) names ∧
        child.get? names = some (.file content mode) ∧ ∀ name ∈ names, ValidName name
  | [], _, _, hmem, _, _ => by
    contradiction
  | (first, n) :: rest, name, child, hmem, hwf, h => by
    rcases List.mem_cons.mp hmem with heq | hrest
    · obtain ⟨rfl, rfl⟩ := Prod.mk.inj heq
      exact exists_of_mem_visits child hwf h
    · exact exists_of_mem_visitsBelow rest name child hrest hwf h

end

/-! ## The paths of a walk -/

/-- A name goes to the end of the path that it is joined to. -/
theorem segments_join {p : Path} (hp : p.bytes ≠ []) {name : Segment} (hname : ValidName name) :
    ∃ front, segments (p.join ⟨name⟩) = front ++ [name] ∧ solid front = solid (segments p) := by
  obtain ⟨front, hsegments, hfront | hfront⟩ :=
    Path.segments_join hp hname.no_separator
  · exact ⟨front, hsegments, by rw [hfront]⟩
  · refine ⟨front, hsegments, ?_⟩
    rw [hfront, solid_append, solid_cons_of_void (by rfl)]
    simp [solid]

/-- The path of a node below another one goes on from the path of that one. -/
theorem below_spec {p : Path} (hp : p.bytes ≠ []) (hzero : 0 ∉ p.bytes) {names : Location}
    (hnames : ∀ name ∈ names, ValidName name) :
    p.bytes <+: (below p names).bytes ∧ 0 ∉ (below p names).bytes ∧
      solid (segments (below p names)) = solid (segments p) ++ names := by
  induction names using List.reverseRecOn with
  | nil => exact ⟨List.prefix_rfl, hzero, (List.append_nil _).symm⟩
  | append_singleton names name ih =>
    obtain ⟨hpre, hzero', hsolid⟩ := ih fun other hother =>
      hnames other (List.mem_append_left _ hother)
    have hname := hnames name (by simp)
    have hne : (below p names).bytes ≠ [] := hpre.ne_nil hp
    rw [below_concat]
    -- Between the path and the name there is one separator at most, which is void.
    obtain ⟨between, hbytes, hbetween⟩ := Path.join_bytes hne hname.no_separator
    obtain ⟨front, hsegments, hfront⟩ := segments_join hne hname
    refine ⟨?_, ?_, ?_⟩
    · rw [hbytes, List.append_assoc]
      exact hpre.trans (List.prefix_append _ _)
    · have hno : (0 : UInt8) ∉ between := by
        rcases hbetween with rfl | rfl <;> decide
      simp [hbytes, hzero', hno, hname.no_zero]
    · rw [hsegments, solid_append, hfront, hsolid, List.append_assoc,
        solid_cons_of_solid hname.solid]
      rfl

/-- The path of a node below another one takes the steps of that one and then those of the names. -/
theorem components_below {p : Path} (hp : p.bytes ≠ []) (hzero : 0 ∉ p.bytes) {names : Location}
    (hnames : ∀ name ∈ names, ValidName name) :
    (below p names).components = p.components ++ names.map .normal := by
  induction names using List.reverseRecOn with
  | nil => rw [List.map_nil, List.append_nil]; rfl
  | append_singleton names name ih =>
    have hinit : ∀ other ∈ names, ValidName other := fun other hother =>
      hnames other (List.mem_append_left _ hother)
    have hname := hnames name (by simp)
    have hne : (below p names).bytes ≠ [] := (below_spec hp hzero hinit).1.ne_nil hp
    obtain ⟨front, hsegments, hfront⟩ := segments_join hne hname
    have hcomponent : Path.component? name = some (.normal name) :=
      Path.component?_eq_normal.mpr ⟨rfl, hname.solid, hname.ne_parent⟩
    have habsolute := Path.isAbsolute_of_notMem hname.no_separator
    have hsteps : front.filterMap Path.component? = (below p names).steps := by
      rw [Path.steps, Path.steps_eq_map_solid, Path.steps_eq_map_solid, hfront]
    rw [below_concat, Path.components_eq, Path.start_join hne habsolute, Path.steps, hsegments,
      List.filterMap_append, List.filterMap_cons_some hcomponent, List.filterMap_nil,
      hsteps, ← List.append_assoc, ← Path.components_eq, ih hinit, List.map_append,
      List.append_assoc]
    rfl

/-- Names lead to the node below a directory to which they lead in the tree, unless it is a link. -/
theorem advance_names {root n : Node} {directory : Location} {names : Location}
    (hnames : ∀ name ∈ names, ValidName name) (hget : root.get? (directory ++ names) = some n)
    (hlink : ∀ target, n ≠ .link target) (followLast : Bool) :
    advance root followLast directory names = .reached (directory ++ names) := by
  induction names generalizing directory with
  | nil => rw [advance, List.append_nil]
  | cons name rest ih =>
    have hname := hnames name List.mem_cons_self
    have hdirectory : HasDirectory root directory := hasDirectory_of_get?_append (by simp) hget
    rw [List.append_cons] at hget ⊢
    have hnext := ih (fun other hother => hnames other (List.mem_cons_of_mem _ hother)) hget
    rw [advance_name hdirectory hname.toProper]
    rw [Node.get?_append] at hget
    obtain ⟨child, hchild, hbelow⟩ := Option.bind_eq_some_iff.mp hget
    rw [hchild]
    cases child with
    | file => exact hnext
    | directory => exact hnext
    | link target =>
      -- Nothing is below a link, so it would be the node itself.
      obtain rfl := Node.eq_nil_of_get? (n := .link target) rfl hbelow
      rw [Node.get?_nil, Option.some.injEq] at hbelow
      exact absurd hbelow.symm (hlink target)

variable {fs : FileSystem} {p : Path}

/-- A path that leads somewhere can be followed. -/
theorem follow_of_locate {location : Location} (h : fs.locate p = .ok location) :
    pathError? p = none ∧
      follow fs.root true maxLinks (origin fs.cwd p) (segments p) = .reached location := by
  unfold locate at h
  split at h
  · rename_i reached hreached
    obtain rfl := Except.ok.inj h
    unfold arrive at hreached
    split at hreached
    · contradiction
    · rename_i hvalid
      exact ⟨hvalid, hreached⟩
  · contradiction
  · contradiction
  · contradiction

/-- Names that lead from one directory to another one lead there after the path of the first. -/
theorem follow_below {directory names : Location} {here : Location} {path front : List Segment}
    (hpath : follow fs.root true maxLinks here path = .reached directory)
    (hnames : ∀ name ∈ names, ValidName name)
    (hdirectory : HasDirectory fs.root (directory ++ names))
    (hfront : solid front = solid path ++ names) :
    follow fs.root true maxLinks here front = .reached (directory ++ names) := by
  have hjoined : follow fs.root true maxLinks here (path ++ names) =
      .reached (directory ++ names) := by
    obtain ⟨mode, entries, hget⟩ := hasDirectory_iff.mp hdirectory
    rcases names with _ | ⟨name, names⟩
    · -- Without names the path is followed as it is, to where it leads.
      simpa using hpath
    · exact follow_append (by simp) hpath (advance_names hnames hget (by simp) true)
  refine follow_congr ?_ hdirectory hjoined
  have hsolid : solid names = names :=
    List.filter_eq_self.mpr fun name h => by simp [(hnames name h).solid]
  rw [hfront, solid_append, hsolid]

/-- A path that leads to a node can be followed to where the node is. -/
theorem exists_of_node {n : Node} (h : fs.node p = .ok n) :
    ∃ location, fs.locate p = .ok location ∧ fs.root.get? location = some n := by
  unfold node at h
  split at h
  · contradiction
  · rename_i location hlocate
    split at h
    · rename_i found hget
      obtain rfl := Except.ok.inj h
      exact ⟨location, hlocate, hget⟩
    · contradiction

/-- A file that a walk meets is below the directory of the walk. -/
theorem exists_of_mem_walk {dir : Path} (hfs : fs.root.WellFormed) (h : .file p ∈ fs.walk dir) :
    ∃ directory names content mode, p = below dir names ∧ fs.locate dir = .ok directory ∧
      names ≠ [] ∧ (∀ name ∈ names, ValidName name) ∧
      fs.root.get? (directory ++ names) = some (.file content mode) := by
  unfold FileSystem.walk at h
  split at h
  · rename_i mode entries hnode
    obtain ⟨directory, hlocate, hget⟩ := exists_of_node hnode
    obtain ⟨names, content, mode', rfl, hfile, hnames⟩ :=
      exists_of_mem_visits (.directory mode entries) (hfs.get? hget) h
    have hne : names ≠ [] := by
      rintro rfl
      simp at hfile
    refine ⟨directory, names, content, mode', rfl, hlocate, hne, hnames, ?_⟩
    rw [Node.get?_append, hget]
    exact hfile
  · contradiction

/-- The path of a node below a directory ends with the last of the names that lead there. -/
theorem segments_below {directory names : Location} (hp : fs.locate p = .ok directory)
    (hne : names ≠ []) (hnames : ∀ name ∈ names, ValidName name) :
    ∃ front name, segments (below p names) = front ++ [name] ∧
      Path.component? name = some (.normal name) := by
  obtain ⟨hzero, hp_ne, -⟩ := pathError?_eq_none.mp (follow_of_locate hp).1
  obtain ⟨init, last, rfl⟩ := (List.eq_nil_or_concat' names).resolve_left hne
  have hinit : ∀ name ∈ init, ValidName name := fun name hname =>
    hnames name (List.mem_append_left _ hname)
  have hlast := hnames last (by simp)
  have hpre := (below_spec hp_ne hzero hinit).1
  obtain ⟨front, hsegments, -⟩ := segments_join (hpre.ne_nil hp_ne) hlast
  refine ⟨front, last, by rw [below_concat, hsegments], ?_⟩
  exact Path.component?_eq_normal.mpr ⟨rfl, hlast.solid, hlast.ne_parent⟩

/-- The path of a regular file below a directory is followed to it. -/
theorem follow_below_file {directory names : Location} {content : ByteArray} {mode : Nat}
    (hp : fs.locate p = .ok directory) (hne : names ≠ [])
    (hnames : ∀ name ∈ names, ValidName name)
    (hget : fs.root.get? (directory ++ names) = some (.file content mode)) (followLast : Bool) :
    follow fs.root followLast maxLinks (origin fs.cwd (below p names)) (segments (below p names)) =
      .reached (directory ++ names) := by
  obtain ⟨hvalid, hfollow⟩ := follow_of_locate hp
  obtain ⟨hzero, hp_ne, -⟩ := pathError?_eq_none.mp hvalid
  -- The last name is followed as it is, the names before it lead to its directory.
  obtain ⟨init, last, rfl⟩ := (List.eq_nil_or_concat' names).resolve_left hne
  have hinit : ∀ name ∈ init, ValidName name := fun name h => hnames name (List.mem_append_left _ h)
  have hlast : ValidName last := hnames last (by simp)
  rw [← List.append_assoc] at hget ⊢
  obtain ⟨hpre_init, -, hsolid⟩ := below_spec hp_ne hzero hinit
  obtain ⟨front, hsegments, hfront⟩ := segments_join (hpre_init.ne_nil hp_ne) hlast
  have hdirectory := hasDirectory_of_get?_append (by simp) hget
  have hreached : follow fs.root true maxLinks (origin fs.cwd p) front =
      .reached (directory ++ init) := by
    refine follow_below hfollow hinit hdirectory ?_
    rw [hfront, hsolid]
  have hname : advance fs.root followLast (directory ++ init) [last] =
      .reached (directory ++ init ++ [last]) :=
    advance_names (by simpa using hlast) hget (by simp) followLast
  have hpre := (below_spec hp_ne hzero hnames).1
  rw [origin, Path.isAbsolute_of_prefix hp_ne hpre, below_concat, hsegments]
  exact follow_append (by simp) hreached hname

/-- The path of a regular file below a directory leads to it, if it is short enough. -/
theorem arrive_below {directory names : Location} {content : ByteArray} {mode : Nat}
    (hp : fs.locate p = .ok directory) (hne : names ≠ [])
    (hnames : ∀ name ∈ names, ValidName name)
    (hget : fs.root.get? (directory ++ names) = some (.file content mode))
    (hshort : (below p names).bytes.length ≤ maxPath) (followLast : Bool) :
    fs.arrive followLast (below p names) = .reached (directory ++ names) := by
  obtain ⟨hzero, hp_ne, -⟩ := pathError?_eq_none.mp (follow_of_locate hp).1
  obtain ⟨hpre, hzero', -⟩ := below_spec hp_ne hzero hnames
  unfold arrive
  rw [pathError?_eq_none.mpr ⟨hzero', hpre.ne_nil hp_ne, hshort⟩]
  exact follow_below_file hp hne hnames hget followLast

/-! ## Walks in another file system -/

mutual

/-- What is in the regular files does not count for a walk. -/
theorem visits_blank (path : Path) : ∀ n : Node, n.blank.visits path = n.visits path
  | .file .. => rfl
  | .link _ => rfl
  | .directory mode entries => by
    rw [Node.blank, Node.visits, Node.visits, visitsBelow_blank path entries]

/-- The same for the entries of a directory. -/
theorem visitsBelow_blank (path : Path) :
    ∀ entries, Node.visitsBelow path (Node.blankEntries entries) = Node.visitsBelow path entries
  | [] => rfl
  | (name, child) :: rest => by
    rw [Node.blankEntries, Node.visitsBelow, Node.visitsBelow,
      visits_blank (path.join ⟨name⟩) child, visitsBelow_blank path rest]

end

/-- The same paths have the same files below them. -/
theorem FileSystem.SamePlaces.walk {fs fs' : FileSystem} (h : SamePlaces fs fs') (p : Path) :
    fs.walk p = fs'.walk p := by
  unfold FileSystem.walk
  rcases h.node_cases p with ⟨e, he, he'⟩ | ⟨n, n', hn, hn', hblank⟩
  · rw [he, he']
  · rw [hn, hn']
    have hvisits : n.visits p = n'.visits p := by
      rw [← visits_blank, hblank, visits_blank]
    cases n <;> cases n' <;> first | contradiction | exact hvisits | rfl

end LogGuard
