import LogGuard.FileSystem.Resolve

/-!
# Comparing file systems

A snapshot lists the files and links below the working directory with their paths. Two snapshots
tell what has changed between them. There is none of a directory with a file that cannot be read.
-/

namespace LogGuard

/-- A file or a link in a snapshot. -/
inductive Leaf where
  | file (content : ByteArray) (mode : Nat)
  | link (target : Path)

instance : DecidableEq Leaf
  | .file content mode, .file content' mode' =>
    match ByteArray.instDecidableEq content content', Nat.decEq mode mode' with
    | .isTrue hcontent, .isTrue hmode => .isTrue (by rw [hcontent, hmode])
    | .isFalse hcontent, _ => .isFalse fun h => hcontent (Leaf.file.inj h).1
    | _, .isFalse hmode => .isFalse fun h => hmode (Leaf.file.inj h).2
  | .link target, .link target' =>
    if h : target = target' then .isTrue (by rw [h])
    else .isFalse fun h' => h (Leaf.link.inj h')
  | .file .., .link _ => .isFalse nofun
  | .link _, .file .. => .isFalse nofun

/-- Whether a snapshot can hold what the owner sees of a file or link. -/
def Leaf.isReadable : Leaf → Bool
  | .file _ mode => ownerReads mode
  | .link _ => true

mutual

/-- The files and links at and below a node whose path is given. -/
def Node.leaves (path : Path) : Node → List (Path × Leaf)
  | .file content mode => [(path, .file content mode)]
  | .link target => [(path, .link target)]
  | .directory _ entries => Node.leavesBelow path entries

/-- The files and links at and below the entries of a directory whose path is given. -/
def Node.leavesBelow (path : Path) : List (Segment × Node) → List (Path × Leaf)
  | [] => []
  | (name, child) :: rest => child.leaves (path.join ⟨name⟩) ++ Node.leavesBelow path rest

end

namespace FileSystem

/-- The files and links below the working directory in the order of the bytes of their paths. -/
def snapshot (fs : FileSystem) : Except IoError (List (Path × Leaf)) :=
  match fs.root.get? fs.cwd with
  | some n =>
    let leaves := (n.leaves ⟨[]⟩).mergeSort fun a b => decide (a.1.bytes ≤ b.1.bytes)
    if leaves.all fun (_, leaf) => leaf.isReadable then .ok leaves else .error .permissionDenied
  | none => .error .notFound

/-- The files and links of `new` that `old` does not have in the same form. -/
def changed (old new : List (Path × Leaf)) : List (Path × Leaf) :=
  new.filter fun (p, leaf) => old.lookup p != some leaf

/-- The paths of files and links of `old` that `new` does not have. -/
def removed (old new : List (Path × Leaf)) : List Path :=
  (old.filter fun (p, _) => (new.lookup p).isNone).map Prod.fst

end FileSystem

end LogGuard
