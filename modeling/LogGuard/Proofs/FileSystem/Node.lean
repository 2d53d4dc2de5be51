import LogGuard.FileSystem.Node
import Mathlib.Data.List.Basic

/-!
# Looking into file trees and changing them

`Node.alter` changes the node at one location. Elsewhere the tree stays as it was
(`get?_alter_of_not_prefix`), two changes at one location are one change (`alter_alter`), and a
change that leaves the node as it is changes nothing (`alter_eq_self`).

The blank tree is the tree with every regular file emptied (`blank`). It is all that following a
path or walking a directory looks at, and putting new content into a file does not change it
(`blank_put`).

The label of a node is the node but for the entries of a directory (`label`). A file that is put
where no directory is leaves all other labels as they are (`sameElsewhere_put`).

What is to hold of every node of a tree is found out by going through the tree (`of_all`).
-/

namespace LogGuard.Node

/-! ## Looking into a tree -/

@[simp]
theorem get?_nil (n : Node) : n.get? [] = some n := by
  rw [get?]

/-- Looking below a node goes on from there. -/
theorem get?_append (n : Node) (front rest : Location) :
    n.get? (front ++ rest) = (n.get? front).bind fun below => below.get? rest := by
  induction front generalizing n with
  | nil => simp
  | cons name front ih =>
    rw [List.cons_append, get?, get?]
    cases n.entry? name with
    | none => rfl
    | some child => exact ih child

/-- What is at the end of a location is an entry of the directory before it. -/
theorem get?_concat (n : Node) (front : Location) (name : Segment) :
    n.get? (front ++ [name]) = (n.get? front).bind fun below => below.entry? name := by
  rw [get?_append]
  congr 1
  funext below
  rw [get?]
  cases below.entry? name with
  | none => rfl
  | some child => exact get?_nil child

/-- A node is a file or a link, or a directory with its entries. -/
theorem directory_cases (n : Node) :
    n.isDirectory = false ∨ ∃ mode entries, n = directory mode entries := by
  cases n with
  | file => exact .inl rfl
  | link => exact .inl rfl
  | directory mode entries => exact .inr ⟨mode, entries, rfl⟩

/-- There is nothing below a file or a link. -/
theorem entry?_eq_none {n : Node} (h : n.isDirectory = false) (name : Segment) :
    n.entry? name = none := by
  unfold entry?
  split
  · contradiction
  · rfl

/-- A location that leads through a node ends there unless the node is a directory. -/
theorem eq_nil_of_get? {n below : Node} {rest : Location} (h : n.isDirectory = false)
    (hbelow : n.get? rest = some below) : rest = [] := by
  cases rest with
  | nil => rfl
  | cons name rest =>
    rw [get?, entry?_eq_none h] at hbelow
    contradiction

/-! ## Changing an entry -/

variable {name key : Segment} {f g : Option Node → Option Node}
  {entries : List (Segment × Node)}

/-- An entry is not found under another name. -/
theorem lookup_cons_of_ne {child : Node} (h : key ≠ name) :
    ((name, child) :: entries).lookup key = entries.lookup key := by
  rw [List.lookup_cons, beq_eq_false_iff_ne.mpr h]

/-- The entry of a name is changed where it stands. -/
theorem alterEntry_cons_self (child : Node) :
    alterEntry name f ((name, child) :: entries) =
      (f (some child)).toList.map (name, ·) ++ entries := by
  rw [alterEntry, if_pos (beq_self_eq_true name)]

/-- An entry of another name is passed over. -/
theorem alterEntry_cons_of_ne {child : Node} (h : key ≠ name) :
    alterEntry name f ((key, child) :: entries) = (key, child) :: alterEntry name f entries := by
  rw [alterEntry, if_neg (by simpa using h)]

/-- The other entries stay. -/
theorem lookup_alterEntry_of_ne (h : key ≠ name) :
    (alterEntry name f entries).lookup key = entries.lookup key := by
  have hadded (o : Option Node) (rest : List (Segment × Node)) :
      (o.toList.map (name, ·) ++ rest).lookup key = rest.lookup key := by
    rcases o with _ | n
    · rfl
    · exact lookup_cons_of_ne h
  induction entries with
  | nil => simpa [alterEntry] using hadded (f none) []
  | cons entry entries ih =>
    obtain ⟨first, child⟩ := entry
    by_cases hfirst : first = name
    · subst hfirst
      rw [alterEntry_cons_self, hadded, lookup_cons_of_ne h]
    · rw [alterEntry_cons_of_ne hfirst, List.lookup_cons, List.lookup_cons, ih]

/-- An entry that is not removed is changed by the function. -/
theorem lookup_alterEntry_self {new : Node} (h : f (entries.lookup name) = some new) :
    (alterEntry name f entries).lookup name = some new := by
  induction entries with
  | nil =>
    rw [alterEntry, show f none = some new from h]
    simp
  | cons entry entries ih =>
    obtain ⟨first, child⟩ := entry
    by_cases hfirst : first = name
    · subst hfirst
      rw [List.lookup_cons_self] at h
      rw [alterEntry_cons_self, h]
      simp
    · rw [lookup_cons_of_ne (Ne.symm hfirst)] at h
      rw [alterEntry_cons_of_ne hfirst, lookup_cons_of_ne (Ne.symm hfirst)]
      exact ih h

/-- Two changes of one entry are one change, unless the first one removes it. -/
theorem alterEntry_alterEntry (h : ∀ child, (f (some child)).isSome = true) :
    alterEntry name g (alterEntry name f entries) = alterEntry name (g ∘ f) entries := by
  induction entries with
  | nil =>
    rw [alterEntry, alterEntry]
    rcases hnone : f none with _ | new <;> simp [alterEntry, hnone]
  | cons entry entries ih =>
    obtain ⟨first, child⟩ := entry
    by_cases hfirst : first = name
    · subst hfirst
      obtain ⟨new, hnew⟩ := Option.isSome_iff_exists.mp (h child)
      simp [alterEntry_cons_self, hnew]
    · rw [alterEntry_cons_of_ne hfirst, alterEntry_cons_of_ne hfirst,
        alterEntry_cons_of_ne hfirst, ih]

/-- A change that leaves the entry as it is changes nothing. -/
theorem alterEntry_eq_self (h : f (entries.lookup name) = entries.lookup name) :
    alterEntry name f entries = entries := by
  induction entries with
  | nil =>
    rw [alterEntry, show f none = none from h]
    rfl
  | cons entry entries ih =>
    obtain ⟨first, child⟩ := entry
    by_cases hfirst : first = name
    · subst hfirst
      rw [List.lookup_cons_self] at h
      rw [alterEntry_cons_self, h]
      rfl
    · rw [lookup_cons_of_ne (Ne.symm hfirst)] at h
      rw [alterEntry_cons_of_ne hfirst, ih h]

/-! ## Changing a tree -/

variable {n : Node} {mode : Nat}

/-- What a change below a directory does to the entry on the way to it. -/
def onward (f : Option Node → Option Node) : Location → Option Node → Option Node
  | [] => f
  | next :: rest => Option.map fun child => child.alter (next :: rest) f

theorem alter_cons (name : Segment) (rest : Location) :
    (directory mode entries).alter (name :: rest) f =
      directory mode (alterEntry name (onward f rest) entries) := by
  cases rest with
  | nil => rw [alter, onward]
  | cons next rest => rw [alter, onward]

/-- A change below a file or a link changes nothing. -/
theorem alter_of_not_directory (h : n.isDirectory = false) (name : Segment) (rest : Location) :
    n.alter (name :: rest) f = n := by
  rcases n with ⟨_⟩ | ⟨_⟩ | ⟨_⟩
  · cases rest <;> rfl
  · cases rest <;> rfl
  · contradiction

/-- An entry on the way to a change is changed itself. -/
theorem lookup_alterEntry_onward {rest : Location} (h : rest ≠ []) :
    (alterEntry name (onward f rest) entries).lookup name =
      (entries.lookup name).map fun child => child.alter rest f := by
  obtain ⟨next, rest, rfl⟩ := List.exists_cons_of_ne_nil h
  cases hlookup : entries.lookup name with
  | none =>
    rw [alterEntry_eq_self (by rw [hlookup]; rfl), hlookup]
    rfl
  | some child => exact lookup_alterEntry_self (by rw [hlookup]; rfl)

/-- A directory on the way to a change stays where it is. -/
theorem get?_alter_append (n : Node) (front : Location) {rest : Location} (h : rest ≠ []) :
    (n.alter (front ++ rest) f).get? front =
      (n.get? front).map fun child => child.alter rest f := by
  induction front generalizing n with
  | nil => simp
  | cons name front ih =>
    have hne : front ++ rest ≠ [] := by simp [h]
    rcases n.directory_cases with hn | ⟨mode, entries, rfl⟩
    · rw [List.cons_append, alter_of_not_directory hn, get?, entry?_eq_none hn]
      rfl
    · rw [List.cons_append, alter_cons, get?, get?, entry?, entry?, lookup_alterEntry_onward hne]
      rcases entries.lookup name with _ | child
      · rfl
      · exact ih child

/-- What is at a location away from a change stays. -/
theorem get?_alter_of_not_prefix (n : Node) {location other : Location}
    (h : ¬location <+: other) (h' : ¬other <+: location) :
    (n.alter location f).get? other = n.get? other := by
  induction location generalizing n other with
  | nil => exact absurd List.nil_prefix h
  | cons name rest ih =>
    obtain ⟨name', rest', rfl⟩ : ∃ name' rest', other = name' :: rest' := by
      cases other with
      | nil => exact absurd List.nil_prefix h'
      | cons name' rest' => exact ⟨name', rest', rfl⟩
    rcases n.directory_cases with hn | ⟨mode, entries, rfl⟩
    · rw [alter_of_not_directory hn]
    · rw [alter_cons, get?, get?, entry?, entry?]
      by_cases hname : name' = name
      · -- The two locations part below this entry.
        subst hname
        have hrest : rest ≠ [] := by
          rintro rfl
          exact h ⟨rest', rfl⟩
        rw [lookup_alterEntry_onward hrest]
        rw [List.cons_prefix_cons, not_and] at h h'
        rcases entries.lookup name' with _ | child
        · rfl
        · exact ih child (h rfl) (h' rfl)
      · rw [lookup_alterEntry_of_ne hname]

/-- What a change puts into a directory is found there. -/
theorem get?_alter_self {front : Location} {new : Node}
    (hfront : n.get? front = some (directory mode entries))
    (hnew : f (entries.lookup name) = some new) :
    (n.alter (front ++ [name]) f).get? (front ++ [name]) = some new := by
  rw [get?_concat, get?_alter_append n front (by simp), hfront, Option.map_some, Option.bind_some,
    alter_cons, entry?, onward]
  exact lookup_alterEntry_self hnew

/-- Two changes of one entry are one change, unless the first one removes it. -/
theorem alter_alter (h : ∀ child, (f (some child)).isSome = true) (n : Node) (front : Location)
    (name : Segment) :
    (n.alter (front ++ [name]) f).alter (front ++ [name]) g =
      n.alter (front ++ [name]) (g ∘ f) := by
  induction front generalizing n with
  | nil =>
    rcases n.directory_cases with hn | ⟨mode, entries, rfl⟩
    · simp only [List.nil_append, alter_of_not_directory hn]
    · simp only [List.nil_append, alter_cons, onward, alterEntry_alterEntry h]
  | cons first front ih =>
    rcases n.directory_cases with hn | ⟨mode, entries, rfl⟩
    · simp only [List.cons_append, alter_of_not_directory hn]
    · -- Whatever `f` does, the entry on the way is never removed.
      obtain ⟨next, rest, hrest⟩ := List.exists_cons_of_ne_nil
        (show front ++ [name] ≠ [] by simp)
      have hsome : ∀ child, (onward f (next :: rest) (some child)).isSome = true := fun _ => rfl
      rw [hrest] at ih
      rw [List.cons_append, hrest, alter_cons, alter_cons, alter_cons, alterEntry_alterEntry hsome]
      congr 2
      funext child
      simp only [onward, Function.comp_apply, Option.map_map]
      congr 1
      funext child
      exact ih child

/-- A change that leaves the node at its location as it is changes nothing. -/
theorem alter_eq_self (n : Node) {location : Location}
    (h : f (n.get? location) = n.get? location) : n.alter location f = n := by
  induction location generalizing n with
  | nil =>
    rw [get?_nil] at h
    rw [alter, h]
    rfl
  | cons name rest ih =>
    rcases n.directory_cases with hn | ⟨mode, entries, rfl⟩
    · exact alter_of_not_directory hn name rest
    · rw [alter_cons, alterEntry_eq_self]
      rw [get?, entry?] at h
      rcases hlookup : entries.lookup name with _ | child <;> rw [hlookup] at h
      · rcases rest with _ | ⟨next, rest⟩
        · simpa [onward] using h
        · rfl
      · rcases rest with _ | ⟨next, rest⟩
        · simpa [onward] using h
        · exact congrArg some (ih child h)

/-! ## Going through a tree -/

mutual

/-- Whether a node and all nodes below it have a property. -/
def all (P : Node → Bool) : Node → Bool
  | file content mode => P (file content mode)
  | link target => P (link target)
  | directory mode entries => P (directory mode entries) && allBelow P entries

/-- Whether all nodes of a directory have a property, and those below them. -/
def allBelow (P : Node → Bool) : List (Segment × Node) → Bool
  | [] => true
  | (_, child) :: rest => child.all P && allBelow P rest

end

theorem all_of_lookup {P : Node → Bool} {entries : List (Segment × Node)}
    (h : allBelow P entries = true) {name : Segment} {child : Node}
    (hlookup : entries.lookup name = some child) : child.all P = true := by
  induction entries with
  | nil => contradiction
  | cons entry rest ih =>
    rw [allBelow, Bool.and_eq_true] at h
    rw [List.lookup_cons] at hlookup
    split at hlookup
    · rw [← Option.some.inj hlookup]
      exact h.1
    · exact ih h.2 hlookup

/-- A property of all nodes of a tree holds at every location. -/
theorem of_all {P : Node → Bool} {n below : Node} (h : n.all P = true) {location : Location}
    (hget : n.get? location = some below) : P below = true := by
  induction location generalizing n with
  | nil =>
    obtain rfl : n = below := by simpa using hget
    cases n with
    | file => exact h
    | link => exact h
    | directory =>
      rw [all, Bool.and_eq_true] at h
      exact h.1
  | cons name rest ih =>
    rw [get?] at hget
    split at hget
    · rename_i child hentry
      cases n with
      | file => contradiction
      | link => contradiction
      | directory mode entries =>
        rw [all, Bool.and_eq_true] at h
        exact ih (all_of_lookup h.2 hentry) hget
    · contradiction

/-! ## The blank tree -/

mutual

/-- The tree with every regular file emptied. -/
def blank : Node → Node
  | file _ mode => file .empty mode
  | link target => link target
  | directory mode entries => directory mode (blankEntries entries)

/-- The entries with every regular file below them emptied. -/
def blankEntries : List (Segment × Node) → List (Segment × Node)
  | [] => []
  | (name, child) :: rest => (name, child.blank) :: blankEntries rest

end

@[simp]
theorem isDirectory_blank (n : Node) : n.blank.isDirectory = n.isDirectory := by
  cases n <;> rfl

theorem lookup_blankEntries (entries : List (Segment × Node)) (name : Segment) :
    (blankEntries entries).lookup name = (entries.lookup name).map blank := by
  induction entries with
  | nil => rfl
  | cons entry rest ih =>
    obtain ⟨first, child⟩ := entry
    rw [blankEntries, List.lookup_cons, List.lookup_cons, ih]
    split <;> rfl

/-- The entries of the blank tree have the same names. -/
theorem map_fst_blankEntries (entries : List (Segment × Node)) :
    (blankEntries entries).map Prod.fst = entries.map Prod.fst := by
  induction entries with
  | nil => rfl
  | cons entry rest ih => exact congrArg (entry.1 :: ·) ih

/-- The blank tree has the same locations. -/
theorem get?_blank (n : Node) (location : Location) :
    n.blank.get? location = (n.get? location).map blank := by
  induction location generalizing n with
  | nil => simp
  | cons name rest ih =>
    rcases n with ⟨_⟩ | ⟨_⟩ | ⟨mode, entries⟩
    · rfl
    · rfl
    · rw [blank, get?, get?, entry?, entry?, lookup_blankEntries]
      rcases entries.lookup name with _ | child
      · rfl
      · exact ih child

theorem blankEntries_alterEntry
    (h : (f (entries.lookup name)).map blank = (entries.lookup name).map blank) :
    blankEntries (alterEntry name f entries) = blankEntries entries := by
  induction entries with
  | nil =>
    have hnone : f none = none := by simpa using h
    rw [alterEntry, hnone]
    rfl
  | cons entry rest ih =>
    obtain ⟨first, child⟩ := entry
    by_cases hfirst : first = name
    · subst hfirst
      rw [List.lookup_cons_self] at h
      obtain ⟨new, hnew, hblank⟩ := Option.map_eq_some_iff.mp h
      rw [alterEntry_cons_self, hnew, blankEntries, ← hblank]
      rfl
    · rw [lookup_cons_of_ne (Ne.symm hfirst)] at h
      rw [alterEntry_cons_of_ne hfirst, blankEntries, blankEntries, ih h]

/-- A change that leaves the blank node at its location as it is leaves the blank tree as it is. -/
theorem blank_alter (n : Node) {location : Location}
    (h : (f (n.get? location)).map blank = (n.get? location).map blank) :
    (n.alter location f).blank = n.blank := by
  induction location generalizing n with
  | nil =>
    rw [get?_nil] at h
    obtain ⟨new, hnew, hblank⟩ := Option.map_eq_some_iff.mp h
    rw [alter, show f (some n) = some new from hnew, Option.getD_some, hblank]
  | cons name rest ih =>
    rcases n.directory_cases with hn | ⟨mode, entries, rfl⟩
    · rw [alter_of_not_directory hn]
    · rw [alter_cons, blank, blank, blankEntries_alterEntry]
      rw [get?, entry?] at h
      rcases hlookup : entries.lookup name with _ | child <;> rw [hlookup] at h
      · rcases rest with _ | ⟨next, rest⟩
        · simpa [onward] using h
        · rfl
      · rcases rest with _ | ⟨next, rest⟩
        · simpa [onward] using h
        · exact congrArg some (ih child h)

/-! ## Putting content into a file -/

variable {location other : Location} {content new : ByteArray}

/-- What is put at the location of a node is found there. -/
theorem get?_put_self {n old new : Node} (h : n.get? location = some old) :
    (n.put location new).get? location = some new := by
  rcases List.eq_nil_or_concat' location with rfl | ⟨front, name, rfl⟩
  · simp [put, alter]
  · rw [get?_concat] at h
    obtain ⟨directory, hfront, hentry⟩ := Option.bind_eq_some_iff.mp h
    cases directory with
    | file => contradiction
    | link => contradiction
    | directory mode entries => exact get?_alter_self hfront rfl

/-- New content for one file leaves the other files and the links as they are. -/
theorem get?_put_file {n leaf : Node} {mode : Nat}
    (h : n.get? location = some (file content mode)) (hother : n.get? other = some leaf)
    (hleaf : leaf.isDirectory = false) (hne : other ≠ location) (new : Node) :
    (n.put location new).get? other = some leaf := by
  rw [← hother]
  apply get?_alter_of_not_prefix
  · rintro ⟨rest, rfl⟩
    rw [get?_append, h, Option.bind_some] at hother
    exact hne (by rw [eq_nil_of_get? rfl hother, List.append_nil])
  · rintro ⟨rest, rfl⟩
    rw [get?_append, hother, Option.bind_some] at h
    exact hne (by rw [eq_nil_of_get? hleaf h, List.append_nil])

/-- New content for a file leaves the blank tree as it is. -/
theorem blank_put {n : Node} {mode : Nat} (h : n.get? location = some (file content mode))
    (new : ByteArray) : (n.put location (file new mode)).blank = n.blank := by
  apply blank_alter
  rw [h]
  rfl

/-! ## Labels -/

/-- A node but for the entries of a directory. -/
def label : Node → Node
  | file content mode => file content mode
  | link target => link target
  | directory mode _ => directory mode []

/-- The label of a file is the file. -/
theorem map_label_eq_file {o : Option Node} :
    o.map label = some (file content mode) ↔ o = some (file content mode) := by
  rw [Option.map_eq_some_iff]
  constructor
  · rintro ⟨found, rfl, hlabel⟩
    cases found with
    | file => exact congrArg some hlabel
    | link => contradiction
    | directory => contradiction
  · intro h
    exact ⟨_, h, rfl⟩

/-- The two trees have the same files, links and directories but for what is at `place`. -/
def SameElsewhere (place : Location) (n n' : Node) : Prop :=
  ∀ location, location ≠ place → (n'.get? location).map label = (n.get? location).map label

/-- Away from the place both trees have nothing, or nodes with the same label. -/
theorem SameElsewhere.cases {n n' : Node} {place location : Location}
    (h : SameElsewhere place n n') (hne : location ≠ place) :
    (n.get? location = none ∧ n'.get? location = none) ∨
      ∃ found found', n.get? location = some found ∧ n'.get? location = some found' ∧
        found.label = found'.label := by
  have hlabel := h location hne
  cases hget : n.get? location with
  | none =>
    rw [hget, Option.map_none, Option.map_eq_none_iff] at hlabel
    exact .inl ⟨rfl, hlabel⟩
  | some found =>
    rw [hget, Option.map_some, Option.map_eq_some_iff] at hlabel
    obtain ⟨found', hget', heq⟩ := hlabel
    exact .inr ⟨found, found', rfl, hget', heq.symm⟩

end LogGuard.Node
