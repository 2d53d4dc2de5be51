import LogGuard.Path.Basic

/-!
# File trees

A file tree is a `Node`: a regular file, a symbolic link or a directory of named nodes. A place in
it is a `Location`, the names on the way from the top. `Node.get?` looks at a place and `Node.alter`
changes what is there; both go through directories only and follow no links.
-/

namespace LogGuard

/-- A file or a directory with everything below it. -/
inductive Node where
  /-- A regular file with its permission bits. -/
  | file (content : ByteArray) (mode : Nat)
  /-- A symbolic link. -/
  | link (target : Path)
  /-- A directory with its permission bits. They restrict nothing: what is in a directory can always
  be listed, reached and changed. -/
  | directory (mode : Nat) (entries : List (Segment × Node))

/-- Whether permission bits let the owner of a file read it. -/
def ownerReads (mode : Nat) : Bool :=
  mode.testBit 8

/-- Whether permission bits let the owner of a file write to it. -/
def ownerWrites (mode : Nat) : Bool :=
  mode.testBit 7

/-- The names that lead from the top of a tree to a node. -/
abbrev Location := List Segment

namespace Node

/-- Whether a node is a directory. -/
def isDirectory : Node → Bool
  | .directory .. => true
  | _ => false

/-- The entry of a directory. -/
def entry? (n : Node) (name : Segment) : Option Node :=
  match n with
  | .directory _ entries => entries.lookup name
  | _ => none

/-- The node at a location. -/
def get? (n : Node) : Location → Option Node
  | [] => some n
  | name :: rest =>
    match n.entry? name with
    | some child => child.get? rest
    | none => none

/-- The entries with the entry of a name changed by `f`, which sees it if there is one and may add,
replace or remove it. -/
def alterEntry (name : Segment) (f : Option Node → Option Node) :
    List (Segment × Node) → List (Segment × Node)
  | [] => (f none).toList.map (name, ·)
  | (key, child) :: rest =>
    if key == name then (f (some child)).toList.map (name, ·) ++ rest
    else (key, child) :: alterEntry name f rest

/-- The tree with the node at a location changed by `f`. Nothing changes if a directory on the way
is missing, and the top cannot be removed. -/
def alter (n : Node) (location : Location) (f : Option Node → Option Node) : Node :=
  match location, n with
  | [], n => (f (some n)).getD n
  | [name], .directory mode entries => .directory mode (alterEntry name f entries)
  | name :: next :: rest, .directory mode entries =>
    .directory mode (alterEntry name (Option.map fun child => child.alter (next :: rest) f) entries)
  | _ :: _, n => n

/-- The tree with `new` at a location. -/
def put (n : Node) (location : Location) (new : Node) : Node :=
  n.alter location fun _ => some new

/-- The tree without the node at a location. -/
def erase (n : Node) (location : Location) : Node :=
  n.alter location fun _ => none

end Node

end LogGuard
