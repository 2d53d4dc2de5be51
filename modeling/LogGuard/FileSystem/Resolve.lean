import LogGuard.FileSystem.Error
import LogGuard.FileSystem.Node

/-!
# Following paths

A `FileSystem` is a file tree with a working directory. `FileSystem.locate` follows a path through
directories and symbolic links to a location. Links are followed wherever more of the path comes
after them; `..` leads to the directory above the one that was reached, whatever links led there.
The permission bits of files decide who may read them, while directories are open to everyone.
-/

namespace LogGuard

/-- A file tree with a working directory. -/
structure FileSystem where
  root : Node
  cwd : Location

/-- Where following a path has led. -/
inductive Arrival where
  /-- To a node. -/
  | reached (location : Location)
  /-- To a name that a directory does not have. -/
  | absent (parent : Location) (name : Segment)
  /-- To a link in a directory, with more to follow after it. -/
  | link (directory : Location) (target : Path) (rest : List Segment)
  | failed (e : IoError)
  deriving DecidableEq, Repr

/-- The name that a directory does not have, if a path has led to one. -/
def Arrival.missing? : Arrival → Option Segment
  | .absent _ name => some name
  | _ => none

namespace FileSystem

/-- The greatest number of bytes of a file name. -/
def maxName : Nat := 255

/-- The greatest number of bytes of a path. -/
def maxPath : Nat := 4095

/-- The greatest number of links that are followed for one path. -/
def maxLinks : Nat := 40

/-- Follows segments from the node at `here` up to the first link. A link that is the last segment
is followed if `followLast` says so. Every directory lets a path through, whatever its permission
bits are. -/
def advance (root : Node) (followLast : Bool) (here : Location) : List Segment → Arrival
  | [] => .reached here
  | s :: rest =>
    if !((root.get? here).any Node.isDirectory) then .failed .notDirectory
    else if Path.isVoid s then advance root followLast here rest
    else if s == [Path.dot, Path.dot] then advance root followLast here.dropLast rest
    else if maxName < s.length then .failed .nameTooLong
    else
      match root.get? (here ++ [s]) with
      | none => if rest.isEmpty then .absent here s else .failed .notFound
      | some (.link target) =>
        if rest.isEmpty && !followLast then .reached (here ++ [s]) else .link here target rest
      | some _ => advance root followLast (here ++ [s]) rest

/-- The directory from which a path is followed: the root or the given one. -/
def origin (directory : Location) (p : Path) : Location :=
  if p.isAbsolute then [] else directory

/-- All segments of a path. -/
def segments (p : Path) : List Segment :=
  p.bytes.splitOn Path.separator

/-- Follows segments through at most `links` links. -/
def follow (root : Node) (followLast : Bool) :
    (links : Nat) → (here : Location) → List Segment → Arrival
  | links, here, path =>
    match advance root followLast here path with
    | .link directory target rest =>
      match links with
      | 0 => .failed .tooManyLinks
      | links + 1 =>
        follow root followLast links (origin directory target) (segments target ++ rest)
    | arrival => arrival

/-- What is wrong with a path before it is followed. -/
def pathError? (p : Path) : Option IoError :=
  if p.bytes.contains 0 then some .zeroByte
  else if p.bytes.isEmpty then some .notFound
  else if maxPath < p.bytes.length then some .nameTooLong
  else none

/-- Follows a path from the working directory. -/
def arrive (fs : FileSystem) (followLast : Bool) (p : Path) : Arrival :=
  match pathError? p with
  | some e => .failed e
  | none => follow fs.root followLast maxLinks (origin fs.cwd p) (segments p)

/-- The location of the node that a path leads to. -/
def locate (fs : FileSystem) (p : Path) : Except IoError Location :=
  match fs.arrive true p with
  | .reached location => .ok location
  | .absent .. => .error .notFound
  | .link .. => .error .tooManyLinks
  | .failed e => .error e

/-- The node that a path leads to. -/
def node (fs : FileSystem) (p : Path) : Except IoError Node :=
  match fs.locate p with
  | .error e => .error e
  | .ok location =>
    match fs.root.get? location with
    | some n => .ok n
    | none => .error .notFound

/-- Whether a path leads to anything. -/
def exists? (fs : FileSystem) (p : Path) : Bool :=
  (fs.node p).isOk

/-- Whether a path leads to a directory. -/
def isDirectory (fs : FileSystem) (p : Path) : Bool :=
  match fs.node p with
  | .ok n => n.isDirectory
  | .error _ => false

/-- The content of the file that a path leads to, if its owner may read it. -/
def read (fs : FileSystem) (p : Path) : Except IoError ByteArray :=
  match fs.node p with
  | .ok (.file content mode) => if ownerReads mode then .ok content else .error .permissionDenied
  | .ok _ => .error .isDirectory
  | .error e => .error e

/-- The text of the file that a path leads to. -/
def readText (fs : FileSystem) (p : Path) : Except IoError String :=
  match fs.read p with
  | .error e => .error e
  | .ok content =>
    match String.fromUTF8? content with
    | some s => .ok s
    | none => .error .notUtf8

end FileSystem

end LogGuard
