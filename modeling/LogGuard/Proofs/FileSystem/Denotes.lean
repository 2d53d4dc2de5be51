import LogGuard.Proofs.FileSystem.Replace
import LogGuard.Proofs.FileSystem.Walk

/-!
# The file that a path denotes

A walk may come to a file by a path that is too long to be followed. The path still denotes the file
(`Denotes`), and so does every path with the same steps (`Denotes.of_same`). Paths with other steps
may denote the same file. In a tree without links the steps alone decide where a path leads: each
one leads on from the place to which the steps before it lead (`eq_foldl_of_follow`).
-/

namespace LogGuard

namespace Node

/-- A tree without links. -/
def LinkFree (root : Node) : Prop :=
  ∀ location target, root.get? location ≠ some (.link target)

/-- Whether a node is a link. -/
def isLink : Node → Bool
  | .link _ => true
  | _ => false

/-- Going through a tree finds out whether it has links. -/
theorem linkFree_of_all {root : Node} (h : (root.all fun n => !n.isLink) = true) :
    root.LinkFree := by
  intro location target hget
  have hno := of_all h hget
  contradiction

end Node

namespace FileSystem

open LogGuard.Path (solid solid_append solid_cons_of_solid)

/-- A path leads to a place if its length does not count. A link at its end is not followed. -/
def Denotes (fs : FileSystem) (p : Path) (location : Location) : Prop :=
  follow fs.root false maxLinks (origin fs.cwd p) (segments p) = .reached location

/-- Two paths denote no file in common. -/
def Apart (fs : FileSystem) (p q : Path) : Prop :=
  ∀ location, fs.Denotes p location → ¬fs.Denotes q location

/-- Where a step leads from a place if there are no links. -/
def stepTo (here : Location) : Component → Location
  | .root => []
  | .current => here
  | .parent => here.dropLast
  | .normal name => here ++ [name]

variable {fs fs' : FileSystem} {p q : Path} {location location' directory : Location}
  {names : Location} {content : ByteArray} {mode : Nat}

/-- A path that leads to a place denotes it. -/
theorem denotes_of_arrive (h : fs.arrive false p = .reached location) : fs.Denotes p location := by
  unfold arrive at h
  split at h
  · contradiction
  · exact h

/-- A path denotes one place. -/
theorem Denotes.unique (h : fs.Denotes p location) (h' : fs.Denotes p location') :
    location = location' :=
  Arrival.reached.inj (h.symm.trans h')

/-- What a path denotes does not depend on the content of files. -/
theorem SamePlaces.denotes (h : SamePlaces fs fs') :
    fs.Denotes p location ↔ fs'.Denotes p location := by
  unfold Denotes
  rw [h.cwd, ← follow_blank fs.root, ← follow_blank fs'.root, h.blank]

theorem Apart.symm (h : fs.Apart p q) : fs.Apart q p :=
  fun location hq hp => h location hp hq

instance (fs : FileSystem) : Std.Symm fs.Apart :=
  ⟨fun _ _ => Apart.symm⟩

/-- Whether paths are apart does not depend on the content of files. -/
theorem SamePlaces.apart (h : SamePlaces fs fs') : fs.Apart p q ↔ fs'.Apart p q := by
  simp only [Apart, h.denotes]

/-- The path of a regular file below a directory denotes it. -/
theorem denotes_below (hp : fs.locate p = .ok directory) (hne : names ≠ [])
    (hnames : ∀ name ∈ names, ValidName name)
    (hget : fs.root.get? (directory ++ names) = some (.file content mode)) :
    fs.Denotes (below p names) (directory ++ names) :=
  follow_below_file hp hne hnames hget false

/-- A path that takes the steps of another one and ends with a name denotes the same file. -/
theorem Denotes.of_same (h : fs.Denotes p location)
    (hfile : fs.root.get? location = some (.file content mode))
    (hq : ∃ front name, segments q = front ++ [name] ∧ Path.component? name = some (.normal name))
    (hsame : p.same q = true) : fs.Denotes q location := by
  obtain ⟨front', name', hsegments', hname'⟩ := hq
  obtain ⟨front, name, hsegments⟩ :=
    (List.eq_nil_or_concat' (segments p)).resolve_left (List.splitOn_ne_nil _ _)
  unfold Denotes at h ⊢
  rw [hsegments] at h
  obtain ⟨directory, hfollow, hlast⟩ := exists_of_follow_concat h
  obtain ⟨hdirectory, hproper, rfl⟩ := of_advance_file hlast hfile
  -- Up to void segments the two paths are followed in the same way.
  obtain ⟨hstart, hsteps⟩ := Path.start_eq_and_steps_eq (beq_iff_eq.mp hsame)
  have hsolid := Path.solid_eq_of_steps hsteps
  have hsolid' := (Path.component?_eq_normal.mp hname').2.1
  rw [hsegments, hsegments', solid_append, solid_append, solid_cons_of_solid hproper.solid,
    solid_cons_of_solid hsolid'] at hsolid
  obtain ⟨hfront, hname⟩ := List.append_inj' hsolid rfl
  obtain rfl : name = name' := (List.cons.inj hname).1
  have horigin : origin fs.cwd p = origin fs.cwd q := by
    unfold origin
    rw [Path.isAbsolute_of_start hstart]
  rw [hsegments', ← horigin]
  exact follow_append (by simp) (follow_congr hfront hdirectory hfollow) hlast

/-! ## Trees without links -/

/-- In a tree without links, segments lead to the place to which their steps lead, or nowhere. -/
theorem advance_of_linkFree {root : Node} (h : root.LinkFree) (followLast : Bool) (here : Location)
    (path : List Segment) :
    advance root followLast here path =
        .reached ((path.filterMap Path.component?).foldl stepTo here) ∨
      (∃ parent name, advance root followLast here path = .absent parent name) ∨
      ∃ e, advance root followLast here path = .failed e := by
  induction here, path using path_induction root with
  | nil here => exact .inl (by rw [advance]; rfl)
  | notDirectory here s rest hdir => exact .inr (.inr ⟨_, advance_of_not_directory hdir ..⟩)
  | void here s rest hdir hvoid ih =>
    rwa [advance_void hdir hvoid, List.filterMap_cons_none (Path.component?_void hvoid)]
  | parent here rest hdir ih =>
    rwa [advance_parent hdir, List.filterMap_cons_some (Path.component?_solid isVoid_parent)]
  | long here s rest hdir hsolid hparent hlong =>
    exact .inr (.inr ⟨_, advance_long hdir hsolid hparent hlong ..⟩)
  | name here s rest hdir hproper ih =>
    have hcomponent : Path.component? s = some (.normal s) :=
      Path.component?_eq_normal.mpr ⟨rfl, hproper.solid, hproper.ne_parent⟩
    rw [advance_name hdir hproper, List.filterMap_cons_some hcomponent, List.foldl_cons]
    rcases hget : root.get? (here ++ [s]) with _ | ⟨_⟩ | ⟨target⟩ | ⟨_⟩
    · dsimp only
      split
      · exact .inr (.inl ⟨_, _, rfl⟩)
      · exact .inr (.inr ⟨_, rfl⟩)
    · exact ih
    · exact absurd hget (h _ target)
    · exact ih

/-- In a tree without links, a path leads to the place to which its steps lead. -/
theorem eq_foldl_of_follow (hlinks : fs.root.LinkFree) {followLast : Bool} {links : Nat}
    (h : follow fs.root followLast links (origin fs.cwd p) (segments p) = .reached location) :
    location = p.components.foldl stepTo fs.cwd := by
  have horigin : origin fs.cwd p = p.start.foldl stepTo fs.cwd := by
    unfold origin Path.start
    split
    · rfl
    · split <;> rfl
  have hlast : location = p.steps.foldl stepTo (origin fs.cwd p) := by
    have hcases := advance_of_linkFree hlinks followLast (origin fs.cwd p) (segments p)
    rcases leadsTo_iff.mpr h with hreached | ⟨hlink, -⟩
    · rw [hreached] at hcases
      rcases hcases with heq | ⟨_, _, heq⟩ | ⟨_, heq⟩
      · exact Arrival.reached.inj heq
      · contradiction
      · contradiction
    · rw [hlink] at hcases
      rcases hcases with heq | ⟨_, _, heq⟩ | ⟨_, heq⟩ <;> contradiction
  rw [hlast, Path.components_eq, List.foldl_append, ← horigin]

/-- Names lead on from the place where they are. -/
theorem foldl_stepTo_names (names here : Location) :
    (names.map Component.normal).foldl stepTo here = here ++ names := by
  induction names generalizing here with
  | nil => rw [List.append_nil]; rfl
  | cons name rest ih =>
    rw [List.map_cons, List.foldl_cons, ih, stepTo, List.append_assoc]
    rfl

/-- In a tree without links, names after the steps of a base lead on from the place of the base. -/
theorem eq_append_of_follow (hlinks : fs.root.LinkFree) {base : Path}
    (hcomponents : p.components = base.components ++ names.map .normal) {followLast : Bool}
    {links : Nat}
    (h : follow fs.root followLast links (origin fs.cwd p) (segments p) = .reached location) :
    location = base.components.foldl stepTo fs.cwd ++ names := by
  rw [eq_foldl_of_follow hlinks h, hcomponents, List.foldl_append, foldl_stepTo_names]

end FileSystem

end LogGuard
