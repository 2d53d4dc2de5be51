import LogGuard.Toml.Value

/-!
# Building tables

How lines add to the tables of a document: `Fields.insert?` adds the value of a dotted key,
`Fields.openTable?` opens the table of a header and `Fields.appendTable?` appends a table for a
header in double brackets. Each fails if it would define something twice or give a table to a value.
-/

namespace LogGuard.Toml.Fields

/-- Adds a value under a dotted key, given as the keys of the tables that lead to it and its own.
The tables on the way have to be absent, implied or dotted, and the last of them absent or dotted.
-/
def insert? (fields : Fields) (path : List Text) (key : Text) (v : Value) : Option Fields :=
  match path with
  | [] => if (fields.get? key).isSome then none else some (fields.set key v)
  | name :: deeper =>
    match fields.get? name with
    | none => (insert? [] deeper key v).map fun inner => fields.set name (.table .dotted inner)
    | some (.table .dotted inner) =>
      (insert? inner deeper key v).map fun inner => fields.set name (.table .dotted inner)
    | some (.table .implied inner) =>
      if deeper.isEmpty then none
      else (insert? inner deeper key v).map fun inner => fields.set name (.table .implied inner)
    | some (.tables elements) =>
      if deeper.isEmpty then none
      else do
        let last ← elements.getLast?
        let inner ← insert? last deeper key v
        some (fields.set name (.tables (elements.dropLast ++ [inner])))
    | some _ => none

/-- Changes the table that a header path leads to. Absent tables on the way are implied, and a path
through appended tables goes to the last of them. -/
def modifyAt? (fields : Fields) (path : List Text) (change : Fields → Option Fields) :
    Option Fields :=
  match path with
  | [] => change fields
  | name :: deeper =>
    match fields.get? name with
    | none =>
      (modifyAt? [] deeper change).map fun inner => fields.set name (.table .implied inner)
    | some (.table .inlined _) => none
    | some (.table origin inner) =>
      (modifyAt? inner deeper change).map fun inner => fields.set name (.table origin inner)
    | some (.tables elements) => do
      let last ← elements.getLast?
      let inner ← modifyAt? last deeper change
      some (fields.set name (.tables (elements.dropLast ++ [inner])))
    | some _ => none

/-- Opens the table of a header. It has to be absent or implied. -/
def openTable? (fields : Fields) (path : List Text) (key : Text) : Option Fields :=
  fields.modifyAt? path fun parent =>
    match parent.get? key with
    | none => some (parent.set key (.table .header []))
    | some (.table .implied inner) => some (parent.set key (.table .header inner))
    | some _ => none

/-- Appends a table for a header in double brackets. -/
def appendTable? (fields : Fields) (path : List Text) (key : Text) : Option Fields :=
  fields.modifyAt? path fun parent =>
    match parent.get? key with
    | none => some (parent.set key (.tables [[]]))
    | some (.tables elements) => some (parent.set key (.tables (elements ++ [[]])))
    | some _ => none

end LogGuard.Toml.Fields
