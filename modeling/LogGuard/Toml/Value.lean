import LogGuard.Text.Basic

/-!
# TOML values

The values of a TOML document and the tables that hold them. A table remembers how it came to be
(`Toml.Origin`), since that decides whether a later line may add to it. Of the scalars that no
setting has, only the kind is kept.
-/

namespace LogGuard.Toml

/-- How a table came to be. -/
inductive Origin where
  /-- By a header of its own. -/
  | header
  /-- By the header of a table inside it. -/
  | implied
  /-- By a dotted key. -/
  | dotted
  /-- As a value between braces. -/
  | inlined
  deriving DecidableEq, Repr

/-- A TOML value. -/
inductive Value where
  | string (t : Text)
  | integer (n : Int)
  | float
  | boolean (b : Bool)
  | dateTime
  | array (items : List Value)
  | table (origin : Origin) (fields : List (Text × Value))
  /-- The tables that headers in double brackets have appended. -/
  | tables (elements : List (List (Text × Value)))

/-- The keys of a table with their values. -/
abbrev Fields := List (Text × Value)

namespace Fields

/-- The value of a key. -/
def get? (fields : Fields) (key : Text) : Option Value :=
  fields.lookup key

/-- The fields with the value of a key replaced, or added if there is none. -/
def set (fields : Fields) (key : Text) (v : Value) : Fields :=
  match fields with
  | [] => [(key, v)]
  | (k, w) :: rest => if k == key then (k, v) :: rest else (k, w) :: set rest key v

end Fields

end LogGuard.Toml
