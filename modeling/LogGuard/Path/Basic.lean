import LogGuard.Text.Lossy

/-!
# Paths

A path is the list of its bytes (`Path`), which need not be UTF-8. `Path.head` and `Path.body`
divide it into what it starts from and the segments between its separators; empty segments and `.`
segments are void, they name nothing. `Path.components` is what the path means: two paths with the
same components are the same path (`Path.same`), however they are written.
-/

namespace LogGuard

/-- A file name, or whatever stands between two separators of a path. -/
abbrev Segment := List UInt8

/-- A path as its raw bytes. -/
structure Path where
  bytes : List UInt8
  deriving DecidableEq, Repr, Inhabited

/-- A step of a path. -/
inductive Component where
  /-- The root of the file system. -/
  | root
  /-- The working directory, named by a leading dot. -/
  | current
  /-- The directory above. -/
  | parent
  /-- The entry of a directory. -/
  | normal (name : Segment)
  deriving DecidableEq, Repr

namespace Path

/-- The separator `/`. -/
def separator : UInt8 := 0x2F

/-- The dot `.`. -/
def dot : UInt8 := 0x2E

/-- The path that a text spells. -/
def ofString (s : String) : Path :=
  ⟨s.toByteArray.data.toList⟩

/-- The text that spells the path, if its bytes are UTF-8. -/
def toString? (p : Path) : Option String :=
  String.fromUTF8? ⟨p.bytes.toArray⟩

/-- The path as it is shown in messages. -/
def display (p : Path) : String :=
  match p.toString? with
  | some s => s
  | none => String.ofList (Text.decodeLossy p.bytes)

/-- Whether the path starts at the root. -/
def isAbsolute (p : Path) : Bool :=
  p.bytes.head? == some separator

/-- Whether the path starts with a segment that is a single dot. -/
def startsWithDot (p : Path) : Bool :=
  match p.bytes with
  | [b] => b == dot
  | b :: c :: _ => b == dot && c == separator
  | [] => false

/-- What the path starts from: the root, a leading dot, or nothing that is written. -/
def head (p : Path) : List UInt8 :=
  if p.isAbsolute then [separator] else if p.startsWithDot then [dot] else []

/-- The segments after the head. -/
def body (p : Path) : List Segment :=
  (p.bytes.drop p.head.length).splitOn separator

/-- The path with the given head and segments. -/
def ofParts (head : List UInt8) (segments : List Segment) : Path :=
  ⟨head ++ [separator].intercalate segments⟩

/-- A segment that names nothing. -/
def isVoid (s : Segment) : Bool :=
  s.isEmpty || s == [dot]

/-- The component that a segment of the body stands for. -/
def component? (s : Segment) : Option Component :=
  if isVoid s then none
  else if s == [dot, dot] then some .parent
  else some (.normal s)

/-- The steps of the path. -/
def components (p : Path) : List Component :=
  let start := if p.isAbsolute then [.root] else if p.startsWithDot then [.current] else []
  start ++ p.body.filterMap component?

/-- Whether two paths take the same steps. -/
def same (p q : Path) : Bool :=
  p.components == q.components

/-- The path `p` seen from `base`. -/
def join (base p : Path) : Path :=
  if p.isAbsolute || base.bytes.isEmpty then p
  else if base.bytes.getLast? == some separator then ⟨base.bytes ++ p.bytes⟩
  else ⟨base.bytes ++ separator :: p.bytes⟩

/-- Drops void segments at the end. -/
def dropVoidEnd (segments : List Segment) : List Segment :=
  (segments.reverse.dropWhile isVoid).reverse

/-- Drops segments from the front until `n` that are not void are dropped. -/
def dropComponents : Nat → List Segment → List Segment
  | 0, segments => segments
  | _, [] => []
  | n + 1, s :: segments =>
    if isVoid s then dropComponents (n + 1) segments else dropComponents n segments

/-- The rest of the path after the steps of `base`, if it begins with them. -/
def stripPrefix? (base p : Path) : Option Path :=
  if base.components.isPrefixOf p.components then
    if base.components.isEmpty then
      some (ofParts p.head (dropVoidEnd p.body))
    else
      let inBody := base.components.length - p.head.length
      some (ofParts [] (dropVoidEnd ((dropComponents inBody p.body).dropWhile isVoid)))
  else none

/-- The path without its last step. The root and the empty path have no parent. -/
def parent? (p : Path) : Option Path :=
  match p.components.getLast? with
  | none => none
  | some .root => none
  | some .current => some ⟨[]⟩
  | some _ => some (ofParts p.head (dropVoidEnd (dropVoidEnd p.body).dropLast))

/-- The name of the entry that the path leads to. -/
def fileName? (p : Path) : Option Segment :=
  match p.components.getLast? with
  | some (.normal name) => some name
  | _ => none

end Path

end LogGuard
