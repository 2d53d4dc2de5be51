import LogGuard.FileSystem.Resolve
import LogGuard.Proofs.FileSystem.Node
import LogGuard.Proofs.Path.Components

/-!
# Following paths, piece by piece

`advance` follows segments up to the first link. Segments that are followed in two parts lead where
they lead as a whole (`advance_append`, `follow_append`), void segments on the way do not count
(`follow_congr`), and a tree in which more is found than in another one leads wherever that one does
(`follow_mono`). Where a path leads does not depend on what is in the regular files
(`follow_blank`). The proofs go along the path by `path_induction`, and from link to link by the
rules of `LeadsTo`.
-/

namespace LogGuard.FileSystem

open LogGuard.Path (solid solid_append solid_cons_of_solid solid_cons_of_void)

variable {root : Node} {here directory location : Location}

/-- A location is that of a directory. -/
def HasDirectory (root : Node) (location : Location) : Prop :=
  (root.get? location).any Node.isDirectory = true

theorem hasDirectory_iff :
    HasDirectory root location ↔
      ∃ mode entries, root.get? location = some (.directory mode entries) := by
  unfold HasDirectory
  rcases root.get? location with _ | ⟨_⟩ | ⟨_⟩ | ⟨mode, entries⟩ <;> simp [Node.isDirectory]

/-- What has something below it is a directory. -/
theorem hasDirectory_of_get?_append {n : Node} {rest : Location} (hrest : rest ≠ [])
    (h : root.get? (location ++ rest) = some n) : HasDirectory root location := by
  rw [Node.get?_append] at h
  obtain ⟨here, hhere, hbelow⟩ := Option.bind_eq_some_iff.mp h
  rcases here.directory_cases with hleaf | ⟨mode, entries, rfl⟩
  · exact absurd (Node.eq_nil_of_get? hleaf hbelow) hrest
  · exact hasDirectory_iff.mpr ⟨mode, entries, hhere⟩

/-- A segment that can name an entry. -/
structure Proper (s : Segment) : Prop where
  solid : Path.isVoid s = false
  ne_parent : s ≠ [Path.dot, Path.dot]
  short : s.length ≤ maxName

/-! ## The steps -/

/-- Nothing can be followed from where there is no directory. -/
theorem advance_of_not_directory (h : ¬HasDirectory root here) (followLast : Bool) (s : Segment)
    (rest : List Segment) :
    advance root followLast here (s :: rest) = .failed .notDirectory := by
  unfold HasDirectory at h
  rw [advance]
  simp [h]

/-- A void segment leads nowhere. -/
theorem advance_void (h : HasDirectory root here) {s : Segment} (hs : Path.isVoid s = true)
    (followLast : Bool) (rest : List Segment) :
    advance root followLast here (s :: rest) = advance root followLast here rest := by
  unfold HasDirectory at h
  rw [advance]
  simp [h, hs]

/-- Two dots lead to the directory above. -/
theorem advance_parent (h : HasDirectory root here) (followLast : Bool) (rest : List Segment) :
    advance root followLast here ([Path.dot, Path.dot] :: rest) =
      advance root followLast here.dropLast rest := by
  unfold HasDirectory at h
  rw [advance]
  simp [h, Path.isVoid]

/-- A long segment names nothing. -/
theorem advance_long (h : HasDirectory root here) {s : Segment} (hs : Path.isVoid s = false)
    (hparent : s ≠ [Path.dot, Path.dot]) (hlong : maxName < s.length) (followLast : Bool)
    (rest : List Segment) :
    advance root followLast here (s :: rest) = .failed .nameTooLong := by
  unfold HasDirectory at h
  rw [advance]
  simp [h, hs, hparent, hlong]

/-- A name leads to the entry of that name. -/
theorem advance_name (h : HasDirectory root here) {s : Segment} (hs : Proper s)
    (followLast : Bool) (rest : List Segment) :
    advance root followLast here (s :: rest) =
      match root.get? (here ++ [s]) with
      | none => if rest.isEmpty then .absent here s else .failed .notFound
      | some (.link target) =>
        if rest.isEmpty && !followLast then .reached (here ++ [s]) else .link here target rest
      | some _ => advance root followLast (here ++ [s]) rest := by
  unfold HasDirectory at h
  obtain ⟨hsolid, hparent, hshort⟩ := hs
  rcases hget : root.get? (here ++ [s]) with _ | ⟨_⟩ | ⟨_⟩ | ⟨_⟩ <;>
  · rw [advance, h, hsolid, if_neg (by decide), if_neg (by decide), if_neg (by simpa using hparent),
      if_neg (Nat.not_lt.mpr hshort)]
    simp only [hget]

/-- A path that can be followed is not empty, not too long and has no zero byte. -/
theorem pathError?_eq_none {p : Path} :
    pathError? p = none ↔ 0 ∉ p.bytes ∧ p.bytes ≠ [] ∧ p.bytes.length ≤ maxPath := by
  unfold pathError?
  by_cases hzero : 0 ∈ p.bytes
  · simp [hzero]
  · by_cases hempty : p.bytes = []
    · simp [hempty]
    · by_cases hlong : maxPath < p.bytes.length <;> simp [hzero, hempty, hlong]
      omega

/-- What the first of several segments can be. -/
theorem segment_cases (s : Segment) :
    Path.isVoid s = true ∨ s = [Path.dot, Path.dot] ∨
      (Path.isVoid s = false ∧ s ≠ [Path.dot, Path.dot] ∧ maxName < s.length) ∨ Proper s := by
  by_cases hvoid : Path.isVoid s = true
  · exact .inl hvoid
  · by_cases hparent : s = [Path.dot, Path.dot]
    · exact .inr (.inl hparent)
    · have hsolid : Path.isVoid s = false := by simpa using hvoid
      rcases Nat.lt_or_ge maxName s.length with hlong | hshort
      · exact .inr (.inr (.inl ⟨hsolid, hparent, hlong⟩))
      · exact .inr (.inr (.inr ⟨hsolid, hparent, hshort⟩))

/-- Induction along segments that are followed from a location: there are none, there is no
directory to go on from, or the first one is void, two dots, too long or a name. -/
@[elab_as_elim]
theorem path_induction (root : Node) {motive : Location → List Segment → Prop}
    (nil : ∀ here, motive here [])
    (notDirectory : ∀ here s rest, ¬HasDirectory root here → motive here (s :: rest))
    (void : ∀ here s rest, HasDirectory root here → Path.isVoid s = true →
      motive here rest → motive here (s :: rest))
    (parent : ∀ here rest, HasDirectory root here →
      motive here.dropLast rest → motive here ([Path.dot, Path.dot] :: rest))
    (long : ∀ here s rest, HasDirectory root here → Path.isVoid s = false →
      s ≠ [Path.dot, Path.dot] → maxName < s.length → motive here (s :: rest))
    (name : ∀ here s rest, HasDirectory root here → Proper s →
      motive (here ++ [s]) rest → motive here (s :: rest))
    (here : Location) (path : List Segment) : motive here path := by
  induction path generalizing here with
  | nil => exact nil here
  | cons s rest ih =>
    by_cases hdir : HasDirectory root here
    · rcases segment_cases s with hvoid | rfl | ⟨hsolid, hparent, hlong⟩ | hproper
      · exact void here s rest hdir hvoid (ih here)
      · exact parent here rest hdir (ih here.dropLast)
      · exact long here s rest hdir hsolid hparent hlong
      · exact name here s rest hdir hproper (ih (here ++ [s]))
    · exact notDirectory here s rest hdir

/-! ## Following in two parts -/

/-- Where an arrival leads if there is more to follow. -/
def proceed (root : Node) (followLast : Bool) (more : List Segment) : Arrival → Arrival
  | .reached directory => advance root followLast directory more
  | .link directory target rest => .link directory target (rest ++ more)
  | .absent .. => .failed .notFound
  | .failed e => .failed e

/-- Segments lead where their second part leads from where the first part does. -/
theorem advance_append {more : List Segment} (hmore : more ≠ []) (followLast : Bool)
    (here : Location) (front : List Segment) :
    advance root followLast here (front ++ more) =
      proceed root followLast more (advance root true here front) := by
  induction here, front using path_induction root with
  | nil here =>
    rw [advance]
    rfl
  | notDirectory here s rest hdir =>
    rw [List.cons_append, advance_of_not_directory hdir, advance_of_not_directory hdir]
    rfl
  | void here s rest hdir hvoid ih =>
    rw [List.cons_append, advance_void hdir hvoid, advance_void hdir hvoid, ih]
  | parent here rest hdir ih =>
    rw [List.cons_append, advance_parent hdir, advance_parent hdir, ih]
  | long here s rest hdir hsolid hparent hlong =>
    rw [List.cons_append, advance_long hdir hsolid hparent hlong,
      advance_long hdir hsolid hparent hlong]
    rfl
  | name here s rest hdir hproper ih =>
    have hempty : (rest ++ more).isEmpty = false := by simp [hmore]
    rw [List.cons_append, advance_name hdir hproper, advance_name hdir hproper, hempty]
    rcases root.get? (here ++ [s]) with _ | ⟨_⟩ | ⟨target⟩ | ⟨_⟩
    · cases rest <;> rfl
    · exact ih
    · cases rest <;> rfl
    · exact ih

/-- Segments lead from `here` to `location` through at most `links` links. -/
inductive LeadsTo (root : Node) (followLast : Bool) (location : Location) :
    Nat → Location → List Segment → Prop where
  /-- There is no link on the way. -/
  | direct {links here path} (h : advance root followLast here path = .reached location) :
    LeadsTo root followLast location links here path
  /-- The first link leads there with what is left after it. -/
  | link {links here path directory target rest}
    (h : advance root followLast here path = .link directory target rest)
    (next : LeadsTo root followLast location links (origin directory target)
      (segments target ++ rest)) :
    LeadsTo root followLast location (links + 1) here path

/-- Following segments leads to a location exactly if they lead there. -/
theorem leadsTo_iff {followLast : Bool} {links : Nat} {path : List Segment} :
    LeadsTo root followLast location links here path ↔
      follow root followLast links here path = .reached location := by
  constructor
  · intro h
    induction h with
    | direct h =>
      rw [follow.eq_def]
      simp only [h]
    | link h _ ih => rwa [follow, h]
  · intro h
    fun_induction follow with
    | case1 => contradiction
    | case2 here path directory target rest hadvance links ih => exact .link hadvance (ih h)
    | case3 links here path hother => exact .direct h

/-- From where the first part of a path leads, the second part is followed, if it leads to no link.
-/
theorem follow_append_eq {more : List Segment} (hmore : more ≠ []) {followLast : Bool} {links : Nat}
    {front : List Segment} (hfront : follow root true links here front = .reached directory)
    (hlast : ∀ directory' target rest,
      advance root followLast directory more ≠ .link directory' target rest) :
    follow root followLast links here (front ++ more) = advance root followLast directory more := by
  rw [← leadsTo_iff] at hfront
  induction hfront with
  | direct hreached =>
    rw [follow.eq_def]
    dsimp only
    rw [advance_append hmore, hreached, proceed]
    split
    · rename_i hlink
      exact absurd hlink (hlast _ _ _)
    · rfl
  | @link links here front directory' target rest hlink _ ih =>
    rw [follow, advance_append hmore, hlink, proceed]
    dsimp only
    rw [← List.append_assoc]
    exact ih

/-- Where the first part of a path leads, the second part goes on. -/
theorem follow_append {more : List Segment} (hmore : more ≠ []) {followLast : Bool} {links : Nat}
    {front : List Segment} (hfront : follow root true links here front = .reached directory)
    (hlast : advance root followLast directory more = .reached location) :
    follow root followLast links here (front ++ more) = .reached location := by
  rw [follow_append_eq hmore hfront (by simp [hlast]), hlast]

/-- A segment that is not followed as a link leads to no link. -/
theorem advance_singleton_ne_link (s : Segment) (directory' : Location) (target : Path)
    (rest : List Segment) :
    advance root false directory [s] ≠ .link directory' target rest := by
  by_cases hdir : HasDirectory root directory
  · rcases segment_cases s with hvoid | rfl | ⟨hsolid, hparent, hlong⟩ | hproper
    · rw [advance_void hdir hvoid, advance]
      simp
    · rw [advance_parent hdir, advance]
      simp
    · rw [advance_long hdir hsolid hparent hlong]
      simp
    · rw [advance_name hdir hproper]
      rcases root.get? (directory ++ [s]) with _ | ⟨_⟩ | ⟨_⟩ | ⟨_⟩ <;> simp [advance]
  · rw [advance_of_not_directory hdir]
    simp

/-- A path whose last segment leads to no link leads there from where the segments before it lead.
-/
theorem exists_of_follow_last {followLast : Bool} {links : Nat} {front : List Segment} {s : Segment}
    (hlast : ∀ directory directory' target rest,
      advance root followLast directory [s] ≠ .link directory' target rest)
    (h : follow root followLast links here (front ++ [s]) = .reached location) :
    ∃ directory, follow root true links here front = .reached directory ∧
      advance root followLast directory [s] = .reached location := by
  have hs : [s] ≠ [] := by simp
  simp only [← leadsTo_iff] at h ⊢
  obtain ⟨path, hpath⟩ : ∃ path, front ++ [s] = path := ⟨_, rfl⟩
  rw [hpath] at h
  induction h generalizing front with
  | @direct links here path hreached =>
    rw [← hpath, advance_append hs] at hreached
    cases hfront : advance root true here front with
    | reached directory =>
      rw [hfront] at hreached
      exact ⟨directory, .direct hfront, hreached⟩
    | _ =>
      rw [hfront] at hreached
      contradiction
  | @link links here path directory target rest hlink _ ih =>
    rw [← hpath, advance_append hs] at hlink
    cases hfront : advance root true here front with
    | reached directory' =>
      rw [hfront] at hlink
      exact absurd hlink (hlast directory' directory target rest)
    | link directory' target' rest' =>
      -- The link is the first one of the segments before the last, too.
      rw [hfront] at hlink
      obtain ⟨rfl, rfl, rfl⟩ := Arrival.link.inj hlink
      obtain ⟨directory, hdirectory, hlast⟩ := ih (List.append_assoc _ _ _)
      exact ⟨directory, .link hfront hdirectory, hlast⟩
    | _ =>
      rw [hfront] at hlink
      contradiction

/-- A path whose last segment is not followed as a link leads there from where the segments before
it lead. -/
theorem exists_of_follow_concat {links : Nat} {front : List Segment} {s : Segment}
    (h : follow root false links here (front ++ [s]) = .reached location) :
    ∃ directory, follow root true links here front = .reached directory ∧
      advance root false directory [s] = .reached location :=
  exists_of_follow_last (fun _ => advance_singleton_ne_link s) h

/-! ## Void segments -/

/-- Two dots are no void segment. -/
theorem isVoid_parent : Path.isVoid [Path.dot, Path.dot] = false := by
  decide

/-- What leads to a directory or to a link sets out from a directory. -/
theorem hasDirectory_of_advance (directory : Location) {followLast : Bool} {path : List Segment}
    (h : (advance root followLast here path = .reached directory ∧ HasDirectory root directory) ∨
      ∃ directory' target rest,
        advance root followLast here path = .link directory' target rest) :
    HasDirectory root here := by
  by_contra hdir
  cases path with
  | nil =>
    rw [advance] at h
    rcases h with ⟨hreached, hdirectory⟩ | ⟨_, _, _, hlink⟩
    · exact hdir (Arrival.reached.inj hreached ▸ hdirectory)
    · contradiction
  | cons s rest =>
    rw [advance_of_not_directory hdir] at h
    rcases h with ⟨hreached, -⟩ | ⟨_, _, _, hlink⟩ <;> contradiction

/-- Void segments do not count on the way to a directory. -/
theorem advance_solid_eq_reached {path : List Segment} (hdirectory : HasDirectory root directory) :
    advance root true here (solid path) = .reached directory ↔
      advance root true here path = .reached directory := by
  induction here, path using path_induction root with
  | nil => rfl
  | notDirectory here s rest hdir =>
    -- Neither of the two sets out from a place that is no directory.
    constructor
    · intro h
      exact absurd (hasDirectory_of_advance _ (.inl ⟨h, hdirectory⟩)) hdir
    · intro h
      exact absurd (hasDirectory_of_advance _ (.inl ⟨h, hdirectory⟩)) hdir
  | void here s rest hdir hvoid ih =>
    rw [solid_cons_of_void hvoid, advance_void hdir hvoid, ih]
  | parent here rest hdir ih =>
    rw [solid_cons_of_solid isVoid_parent, advance_parent hdir, advance_parent hdir, ih]
  | long here s rest hdir hsolid hparent hlong =>
    rw [solid_cons_of_solid hsolid, advance_long hdir hsolid hparent hlong,
      advance_long hdir hsolid hparent hlong]
  | name here s rest hdir hproper ih =>
    rw [solid_cons_of_solid hproper.solid, advance_name hdir hproper, advance_name hdir hproper]
    rcases root.get? (here ++ [s]) with _ | ⟨_⟩ | ⟨_⟩ | ⟨_⟩
    · -- Whether more follows may differ, but there is no arrival either way.
      dsimp only
      split <;> split <;> simp
    · exact ih
    · simp
    · exact ih

/-- Void segments do not count on the way to a link, but they may be left after it. -/
theorem advance_solid_eq_link {path rest : List Segment} {target : Path} :
    advance root true here (solid path) = .link directory target rest ↔
      ∃ rest', solid rest' = rest ∧ advance root true here path = .link directory target rest' := by
  induction here, path using path_induction root with
  | nil here =>
    rw [show solid [] = [] from rfl, advance]
    simp
  | notDirectory here s path hdir =>
    constructor
    · intro h
      exact absurd (hasDirectory_of_advance [] (.inr ⟨_, _, _, h⟩)) hdir
    · rintro ⟨_, -, h⟩
      exact absurd (hasDirectory_of_advance [] (.inr ⟨_, _, _, h⟩)) hdir
  | void here s path hdir hvoid ih =>
    rw [solid_cons_of_void hvoid, advance_void hdir hvoid, ih]
  | parent here path hdir ih =>
    rw [solid_cons_of_solid isVoid_parent, advance_parent hdir, advance_parent hdir, ih]
  | long here s path hdir hsolid hparent hlong =>
    rw [solid_cons_of_solid hsolid, advance_long hdir hsolid hparent hlong,
      advance_long hdir hsolid hparent hlong]
    simp
  | name here s path hdir hproper ih =>
    rw [solid_cons_of_solid hproper.solid, advance_name hdir hproper, advance_name hdir hproper]
    rcases root.get? (here ++ [s]) with _ | ⟨_⟩ | ⟨target'⟩ | ⟨_⟩
    · dsimp only
      split <;> split <;> simp
    · exact ih
    · -- The link is found here, and what is left after it are the segments that follow.
      simp only [Bool.not_true, Bool.and_false, Bool.false_eq_true, if_false, Arrival.link.injEq]
      constructor
      · rintro ⟨rfl, rfl, rfl⟩
        exact ⟨path, rfl, rfl, rfl, rfl⟩
      · rintro ⟨_, rfl, rfl, rfl, rfl⟩
        exact ⟨rfl, rfl, rfl⟩
    · exact ih

/-- Paths that differ in void segments only lead to the same directory. -/
theorem follow_congr {links : Nat} {path path' : List Segment} (hpath : solid path = solid path')
    (hdirectory : HasDirectory root directory)
    (h : follow root true links here path = .reached directory) :
    follow root true links here path' = .reached directory := by
  rw [← leadsTo_iff] at h ⊢
  induction h generalizing path' with
  | direct hreached =>
    rw [← advance_solid_eq_reached hdirectory, hpath, advance_solid_eq_reached hdirectory]
      at hreached
    exact .direct hreached
  | @link links here path directory' target rest hlink _ ih =>
    have hsolid := advance_solid_eq_link.mpr ⟨rest, rfl, hlink⟩
    rw [hpath] at hsolid
    obtain ⟨rest', hrest, hlink'⟩ := advance_solid_eq_link.mp hsolid
    refine .link hlink' (ih ?_)
    rw [solid_append, solid_append, hrest]

/-! ## Following in another tree -/

/-- Two nodes that are followed alike. -/
inductive Alike : Node → Node → Prop where
  | file {content content' mode mode'} : Alike (.file content mode) (.file content' mode')
  | link {target} : Alike (.link target) (.link target)
  | directory {mode mode' entries entries'} :
    Alike (.directory mode entries) (.directory mode' entries')

/-- Nodes with the same label are followed alike. -/
theorem alike_of_label {n n' : Node} (h : n.label = n'.label) : Alike n n' := by
  cases n with
  | file content mode =>
    cases n' with
    | file => exact .file
    | link => contradiction
    | directory => contradiction
  | link target =>
    cases n' with
    | file => contradiction
    | link target' =>
      obtain rfl : target = target' := Node.link.inj h
      exact .link
    | directory => contradiction
  | directory mode entries =>
    cases n' with
    | file => contradiction
    | link => contradiction
    | directory => exact .directory

/-- Whatever is found in `root` is found in `root'`. -/
def Extends (root root' : Node) : Prop :=
  ∀ location n, root.get? location = some n → ∃ n', root'.get? location = some n' ∧ Alike n n'

/-- An arrival at a node. -/
def isFound : Arrival → Bool
  | .reached _ => true
  | .link .. => true
  | .absent .. => false
  | .failed _ => false

variable {root' : Node}

theorem Extends.hasDirectory (h : Extends root root') (hdir : HasDirectory root here) :
    HasDirectory root' here := by
  obtain ⟨mode, entries, hget⟩ := hasDirectory_iff.mp hdir
  obtain ⟨n', hget', halike⟩ := h _ _ hget
  cases halike
  exact hasDirectory_iff.mpr ⟨_, _, hget'⟩

/-- Segments that lead to a node lead there in any extension. -/
theorem advance_mono (h : Extends root root') {followLast : Bool} {path : List Segment}
    (hfound : isFound (advance root followLast here path) = true) :
    advance root' followLast here path = advance root followLast here path := by
  induction here, path using path_induction root with
  | nil here => rw [advance, advance]
  | notDirectory here s rest hdir =>
    rw [advance_of_not_directory hdir] at hfound
    contradiction
  | void here s rest hdir hvoid ih =>
    rw [advance_void hdir hvoid] at hfound ⊢
    rw [advance_void (h.hasDirectory hdir) hvoid, ih hfound]
  | parent here rest hdir ih =>
    rw [advance_parent hdir] at hfound ⊢
    rw [advance_parent (h.hasDirectory hdir), ih hfound]
  | long here s rest hdir hsolid hparent hlong =>
    rw [advance_long hdir hsolid hparent hlong] at hfound
    contradiction
  | name here s rest hdir hproper ih =>
    rw [advance_name hdir hproper] at hfound ⊢
    rw [advance_name (h.hasDirectory hdir) hproper]
    cases hget : root.get? (here ++ [s]) with
    | none =>
      rw [hget] at hfound
      dsimp only at hfound
      split at hfound <;> contradiction
    | some n =>
      obtain ⟨n', hget', halike⟩ := h _ _ hget
      rw [hget] at hfound
      rw [hget']
      cases halike with
      | file => exact ih hfound
      | link => rfl
      | directory => exact ih hfound

/-- A path that leads to a node leads there in any extension. -/
theorem follow_mono (h : Extends root root') {followLast : Bool} {links : Nat}
    {path : List Segment} (hreached : follow root followLast links here path = .reached location) :
    follow root' followLast links here path = .reached location := by
  rw [← leadsTo_iff] at hreached ⊢
  induction hreached with
  | direct hdirect => exact .direct (by rw [advance_mono h (by rw [hdirect]; rfl), hdirect])
  | link hlink _ ih => exact .link (by rw [advance_mono h (by rw [hlink]; rfl), hlink]) ih

/-- The directories of a tree do not depend on what is in its regular files. -/
theorem hasDirectory_blank : HasDirectory root.blank location ↔ HasDirectory root location := by
  unfold HasDirectory
  rw [Node.get?_blank]
  cases root.get? location <;> simp

/-- What is in the regular files does not count for following. -/
theorem advance_blank (root : Node) (followLast : Bool) (here : Location) (path : List Segment) :
    advance root.blank followLast here path = advance root followLast here path := by
  induction here, path using path_induction root with
  | nil here => rw [advance, advance]
  | notDirectory here s rest hdir =>
    rw [advance_of_not_directory hdir, advance_of_not_directory (mt hasDirectory_blank.mp hdir)]
  | void here s rest hdir hvoid ih =>
    rw [advance_void hdir hvoid, advance_void (hasDirectory_blank.mpr hdir) hvoid, ih]
  | parent here rest hdir ih =>
    rw [advance_parent hdir, advance_parent (hasDirectory_blank.mpr hdir), ih]
  | long here s rest hdir hsolid hparent hlong =>
    rw [advance_long hdir hsolid hparent hlong,
      advance_long (hasDirectory_blank.mpr hdir) hsolid hparent hlong]
  | name here s rest hdir hproper ih =>
    rw [advance_name hdir hproper, advance_name (hasDirectory_blank.mpr hdir) hproper,
      Node.get?_blank]
    rcases root.get? (here ++ [s]) with _ | ⟨_⟩ | ⟨_⟩ | ⟨_⟩
    · rfl
    · exact ih
    · rfl
    · exact ih

/-- Where a path leads depends on the blank tree only. -/
theorem follow_blank (root : Node) (followLast : Bool) (links : Nat) (here : Location)
    (path : List Segment) :
    follow root.blank followLast links here path = follow root followLast links here path := by
  induction links generalizing here path with
  | zero => rw [follow, follow, advance_blank]
  | succ links ih =>
    rw [follow, follow, advance_blank]
    split
    · exact ih _ _
    · rfl

/-- Two file systems in which the same paths lead to the same places. -/
structure SamePlaces (fs fs' : FileSystem) : Prop where
  blank : fs.root.blank = fs'.root.blank
  cwd : fs.cwd = fs'.cwd

namespace SamePlaces

variable {fs fs' fs'' : FileSystem}

theorem refl (fs : FileSystem) : SamePlaces fs fs :=
  ⟨rfl, rfl⟩

theorem symm (h : SamePlaces fs fs') : SamePlaces fs' fs :=
  ⟨h.blank.symm, h.cwd.symm⟩

theorem trans (h : SamePlaces fs fs') (h' : SamePlaces fs' fs'') : SamePlaces fs fs'' :=
  ⟨h.blank.trans h'.blank, h.cwd.trans h'.cwd⟩

/-- The same paths lead to the same places. -/
theorem arrive (h : SamePlaces fs fs') (followLast : Bool) (p : Path) :
    fs.arrive followLast p = fs'.arrive followLast p := by
  unfold FileSystem.arrive
  rw [h.cwd, ← follow_blank fs.root, ← follow_blank fs'.root, h.blank]

theorem locate (h : SamePlaces fs fs') (p : Path) : fs.locate p = fs'.locate p := by
  unfold FileSystem.locate
  rw [h.arrive]

/-- What stands at a location is the same but for the content of files. -/
theorem get? (h : SamePlaces fs fs') (location : Location) :
    (fs.root.get? location).map Node.blank = (fs'.root.get? location).map Node.blank := by
  rw [← Node.get?_blank, ← Node.get?_blank, h.blank]

/-- Where a regular file stands there is one, with the same permission bits. -/
theorem exists_file (h : SamePlaces fs fs') {location : Location} {content : ByteArray} {mode : Nat}
    (hfile : fs'.root.get? location = some (.file content mode)) :
    ∃ content', fs.root.get? location = some (.file content' mode) := by
  have hget := h.get? location
  rw [hfile] at hget
  obtain ⟨n, hn, hblank⟩ := Option.map_eq_some_iff.mp hget
  cases n with
  | file content' mode' =>
    obtain ⟨-, rfl⟩ := Node.file.inj hblank
    exact ⟨content', hn⟩
  | link => contradiction
  | directory => contradiction

/-- The same paths lead to the same nodes but for the content of files. -/
theorem node_cases (h : SamePlaces fs fs') (p : Path) :
    (∃ e, fs.node p = .error e ∧ fs'.node p = .error e) ∨
      ∃ n n', fs.node p = .ok n ∧ fs'.node p = .ok n' ∧ n.blank = n'.blank := by
  unfold node
  rw [h.locate]
  rcases fs'.locate p with e | location
  · exact .inl ⟨e, rfl, rfl⟩
  · have hget := h.get? location
    rcases hn : fs.root.get? location with _ | n <;> rcases hn' : fs'.root.get? location with _ | n'
    · exact .inl ⟨.notFound, by simp [hn], by simp [hn']⟩
    · rw [hn, hn'] at hget
      contradiction
    · rw [hn, hn'] at hget
      contradiction
    · rw [hn, hn', Option.map_some, Option.map_some, Option.some.injEq] at hget
      exact .inr ⟨n, n', by simp [hn], by simp [hn'], hget⟩

/-- The same paths lead to directories. -/
theorem isDirectory (h : SamePlaces fs fs') (p : Path) : fs.isDirectory p = fs'.isDirectory p := by
  unfold FileSystem.isDirectory
  rcases h.node_cases p with ⟨e, he, he'⟩ | ⟨n, n', hn, hn', hblank⟩
  · rw [he, he']
  · rw [hn, hn']
    show n.isDirectory = n'.isDirectory
    rw [← Node.isDirectory_blank n, hblank, Node.isDirectory_blank]

end SamePlaces

end LogGuard.FileSystem
