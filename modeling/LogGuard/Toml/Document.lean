import LogGuard.Toml.Number
import LogGuard.Toml.String
import LogGuard.Toml.Table

/-!
# TOML documents

`Toml.parse` reads a document into the fields of its root table, or fails. Values are read by
recursion on the number of brackets and braces that may still be opened (`Toml.value?`). The lines
of a document are read one after the other; the state between them is the root table and the path of
the last header (`Toml.Progress`).
-/

namespace LogGuard.Toml

/-- A recogniser: what it reads and what is left, or failure. -/
abbrev Reader (α : Type) := Text → Option (α × Text)

/-- How deep arrays and inline tables may nest. -/
def maxNesting : Nat := 79

/-- How many keys a dotted key may have. -/
def maxKeys : Nat := 79

/-- A character of a key without quotes. -/
def isBareKey (c : Char) : Bool :=
  isDigit c || ('a' ≤ c && c ≤ 'z') || ('A' ≤ c && c ≤ 'Z') || c == '_' || c == '-'

/-- Reads one key. -/
def simpleKey? (t : Text) : Option (Text × Text) :=
  if t.head? == some '"' || t.head? == some '\'' then lineString? t
  else
    let key := t.takeWhile isBareKey
    if key.isEmpty then none else some (key, t.dropWhile isBareKey)

/-- Reads keys with dots between them and blanks around each. -/
def keys? (t : Text) : Option (List Text × Text) :=
  match simpleKey? (dropBlanks t) with
  | none => none
  | some (key, rest) =>
    match dropBlanks rest with
    | '.' :: deeper =>
      if _h : deeper.length < t.length then
        (keys? deeper).map fun (path, after) => (key :: path, after)
      else none
    | after => some ([key], after)
  termination_by t.length

/-- Reads a dotted key as the keys of the tables that lead to a value and its own key. -/
def dottedKey? (t : Text) : Option ((List Text × Text) × Text) := do
  let (path, rest) ← keys? t
  guard (path.length ≤ maxKeys)
  let key ← path.getLast?
  some ((path.dropLast, key), rest)

/-- Reads a dotted key, an equals sign and a value. -/
def keyValue? (value? : Reader Value) (t : Text) :
    Option (((List Text × Text) × Value) × Text) := do
  let (key, rest) ← dottedKey? t
  let rest ← after? '=' rest
  let (v, rest) ← value? (dropBlanks rest)
  some ((key, v), rest)

/-- Reads the items of an array after its opening bracket or a comma, up to the closing bracket. -/
def items? (value? : Reader Value) (t : Text) : Option (List Value × Text) :=
  match dropTrivia false t with
  | ']' :: rest => some ([], rest)
  | start =>
    match value? start with
    | none => none
    | some (v, rest) =>
      match dropTrivia false rest with
      | ']' :: rest => some ([v], rest)
      | ',' :: rest =>
        if _h : rest.length < t.length then
          (items? value? rest).map fun (vs, after) => (v :: vs, after)
        else none
      | _ => none
  termination_by t.length

/-- Reads the fields of an inline table up to the closing brace and adds them to `fields`. -/
def inlineFields? (value? : Reader Value) (fields : Fields) (t : Text) : Option (Fields × Text) :=
  match keyValue? value? t with
  | none => none
  | some (((path, key), v), rest) =>
    match fields.insert? path key v with
    | none => none
    | some fields =>
      match dropBlanks rest with
      | '\x7d' :: rest => some (fields, rest)
      | ',' :: rest =>
        if _h : rest.length < t.length then inlineFields? value? fields rest else none
      | _ => none
  termination_by t.length

/-- Reads an inline table after its opening brace. -/
def inlineTable? (value? : Reader Value) (t : Text) : Option (Fields × Text) :=
  match dropBlanks t with
  | '\x7d' :: rest => some ([], rest)
  | _ => inlineFields? value? [] t

/-- Reads a value in which arrays and inline tables nest at most `depth` deep. -/
def value? (depth : Nat) (t : Text) : Option (Value × Text) :=
  match t with
  | [] => none
  | c :: rest =>
    if c == '"' || c == '\'' then (string? t).map fun (s, after) => (.string s, after)
    else if c == '[' then
      match depth with
      | 0 => none
      | depth + 1 => (items? (value? depth) rest).map fun (vs, after) => (.array vs, after)
    else if c == '\x7b' then
      match depth with
      | 0 => none
      | depth + 1 =>
        (inlineTable? (value? depth) rest).map fun (fields, after) =>
          (.table .inlined fields, after)
    else scalar? t

/-- What the lines read so far have built. -/
structure Progress where
  /-- The fields of the root table. -/
  root : Fields
  /-- The path of the last header. -/
  header : List Text

/-- Adds a key and its value to the table of the last header. -/
def Progress.insert? (p : Progress) (path : List Text) (key : Text) (v : Value) :
    Option Progress :=
  (p.root.modifyAt? p.header fun fields => fields.insert? path key v).map ({ p with root := · })

/-- Reads a header after its first bracket. -/
def header? (p : Progress) : Text → Option (Progress × Text)
  | '[' :: t => do
    let ((path, key), rest) ← dottedKey? t
    let rest ← after? ']' rest
    let rest ← after? ']' rest
    let root ← p.root.appendTable? path key
    some (⟨root, path ++ [key]⟩, rest)
  | t => do
    let ((path, key), rest) ← dottedKey? t
    let rest ← after? ']' rest
    let root ← p.root.openTable? path key
    some (⟨root, path ++ [key]⟩, rest)

/-- Reads a line that holds a header or a key and its value. -/
def expression? (p : Progress) : Text → Option (Progress × Text)
  | '[' :: t => do
    let (p, rest) ← header? p t
    some (p, ← endOfLine? rest)
  | t => do
    let (((path, key), v), rest) ← keyValue? (value? maxNesting) t
    let p ← p.insert? path key v
    some (p, ← endOfLine? rest)

/-- Reads the next line, which may be empty or hold a comment only. -/
def line? (p : Progress) (t : Text) : Option (Progress × Text) :=
  match endOfLine? t with
  | some rest => some (p, rest)
  | none => expression? p (dropBlanks t)

/-- Reads the lines of a document. -/
def lines? (p : Progress) (t : Text) : Option Progress :=
  if t.isEmpty then some p
  else
    match line? p t with
    | none => none
    | some (p, rest) => if _h : rest.length < t.length then lines? p rest else none
  termination_by t.length

/-- Reads a document into the fields of its root table. A byte order mark may precede it. -/
def parse (t : Text) : Option Fields :=
  let t :=
    match t with
    | '\uFEFF' :: rest => rest
    | _ => t
  (lines? ⟨[], []⟩ t).map (·.root)

end LogGuard.Toml
